import Ekip.Evaluation.Adapters.Proactive
import Ekip.Agents.Investigation.LiveCredential
import Ekip.Agents.Investigation.GatheredOnce
import Ekip.Evaluation.Semantic.SeenByReviewers
import Ekip.Evaluation.Semantic.EvaluatorValidation
import Ekip.Evaluation.Semantic.Agreement
import Ekip.Evaluation.Semantic.GroundTruth
import Ekip.Lib.CohensKappa
import Ekip.Evaluation.DatasetRoundTrip
import Ekip.Evaluation.DatasetLoader
import Ekip.Lib.JsonText
import Ekip.Agents.KnowledgeGap.StablePartition
import Ekip.Agents.Investigation.Evidence
import Ekip.Agents.Investigation.LiveSources
import Ekip.Core.Incidents.Timeline
import Ekip.Ingestion.GitHubFullWalk
import Ekip.Lib.Visits
import Ekip.Ingestion.Discussions
import Ekip.Ingestion.Connectors.GitHub
import Ekip.Agents.KnowledgeGap.DocumentMatch
import Ekip.Evaluation.VerdictsSound
import Ekip.Evaluation.ChunkOrder
import Ekip.Evaluation.SoundVerdicts
import Ekip.Evaluation.Verdicts
import Ekip.Evaluation.Metrics
import Ekip.Evaluation.Semantic.Recommendations
import Ekip.Evaluation.Semantic.Calibration
import Ekip.Evaluation.CitationsChecked
import Ekip.Agents.PromptSafety
import Ekip.Lib.Substitution
import Ekip.Ingestion.DocumentKeys
import Ekip.Ingestion.Connectors.Listed
import Ekip.Lib.Joined
import Ekip.Agents.KnowledgeGap.NoDuplicates
import Ekip.Agents.KnowledgeGap.Centroids
import Ekip.Agents.KnowledgeGap.Scans
import Ekip.Agents.KnowledgeGap.Pipeline
import Ekip.Lib.RootQuotient
import Ekip.Database.ContentModels
import Ekip.Ingestion.Connectors.IncrementalFilters
import Ekip.Ingestion.Connectors.PagerDuty
import Ekip.Ingestion.Connectors.Jira
import Ekip.Ingestion.Connectors.Notion
import Ekip.Core.Tenancy.DefaultProject
import Ekip.Lib.Service
import Ekip.Core.Auth.Signup
import Ekip.Core.Tenancy.Organizations
import Ekip.Core.Graph.BreadthFirst
import Ekip.Lib.Firsts
import Ekip.Agents.Confidence
import Ekip.Lib.WeightedMean
import Ekip.Ingestion.PageLoop
import Ekip.Ingestion.Processors.Cleaning
import Ekip.Lib.Gaps
import Ekip.Retrieval.MetadataPath
import Ekip.Retrieval.Fusion
import Ekip.Lib.TopRanked
import Ekip.Agents.Investigation.IssueTags
import Ekip.Agents.Investigation.CountedOnce
import Ekip.Agents.Investigation.HonestReview
import Ekip.Agents.Investigation.Critique
import Ekip.Agents.Investigation.Review
import Ekip.Agents.Investigation.Hypothesis
import Ekip.Lib.Retry
import Ekip.Lib.Json
import Ekip.Core.Graph.Noninterference
import Ekip.Core.Graph.Traversal
import Ekip.Core.Graph.Discovery
import Ekip.Core.Graph.Service
import Ekip.Core.Graph.Repository
import Ekip.Core.Graph.Contract
import Ekip.Lib.Tombstones
import Ekip.Lib.Run
import Ekip.Lib.ReadCommitted
import Ekip.Lib.Custody
import Ekip.Core.Users.ProjectOverride
import Ekip.Core.Tenancy.Provisioning
import Ekip.Core.Auth.ReuseDetection
import Ekip.Core.Auth.Rotation
import Ekip.Core.Auth.RevokeAll
import Ekip.Core.Auth.Takeover
import Ekip.Core.Auth.InvitationRace
import Ekip.Mcp.OAuth.ClientBinding
import Ekip.Lib.Feed
import Ekip.Ingestion.Watermark
import Ekip.Ingestion.DeltaLink
import Ekip.Core.Knowledge.ReviewGate
import Ekip.Core.Knowledge.ReviewRace
import Ekip.Core.Memory.Noninterference
import Ekip.Core.Memory.LifecycleRace
import Ekip.Core.Privacy.TenantFrame
import Ekip.Core.Privacy.Completeness
import Ekip.Core.Proactive.Visibility
import Ekip.Ingestion.Workers.DeadLetter
import Ekip.Agents.IncidentSearch
import Ekip.Core.Tenancy.ProjectScope
import Ekip.Agents.SpendCounted
import Ekip.Agents.BestEffort
import Ekip.Agents.Answer.Grounded
import Ekip.Ingestion.Superseded
import Ekip.Ingestion.Connectors.IncidentWalk
import Ekip.Ingestion.Connectors.OffsetWalks
import Ekip.Ingestion.PostmortemSync
import Ekip.Ingestion.CrashReplay
import Ekip.Ingestion.Connectors.Teams
import Ekip.Ingestion.FullWalk
import Ekip.Ingestion.ForcedResync
import Ekip.Core.Tenancy.Disconnect
import Ekip.Lib.Datetime
import Ekip.Ingestion.CheckpointEnvelope
import Ekip.Core.Incidents.Resolution
import Ekip.Core.Incidents.PostmortemRace
import Ekip.Core.Auth.PendingInvitation
import Ekip.Lib.TokenBucket
import Ekip.Shared.RateLimiter
import Ekip.Shared.OverGrants
import Ekip.Shared.SameDecisions
import Ekip.Lib.Packing
import Ekip.Ingestion.Processors.Chunking
import Ekip.Ingestion.Processors.Pieces
import Ekip.Ingestion.Processors.BlankPieces
import Ekip.Ingestion.Processors.Offsets
import Ekip.Ingestion.Processors.Citations
import Ekip.Core.Graph.Neighborhood
import Ekip.Evaluation.Confidence
import Ekip.Ingestion.Workers.Lock
import Ekip.Database.Session
