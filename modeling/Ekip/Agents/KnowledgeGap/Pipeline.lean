import Ekip.Database.ContentModels
import Mathlib.Tactic.NormNum
import Ekip.Lib.Text
import Ekip.Core.Users.Service
import Ekip.Agents.KnowledgeGap.Clustering

/-!
# Knowledge gap reports: `agents/knowledge_gap/repository.py` and `pipeline.py`
-/
namespace Ekip.Agents.KnowledgeGap

open Ekip.Lib Ekip.Database Ekip.Core

/-! ## `agents/knowledge_gap/repository.py` -/

/-- An operation of one transaction on the tables of the agents. -/
abbrev GapM := Service Exn GapDb

namespace Repository

def listLowConfidenceExecutions (organizationId : Uuid) (agentName : String) (maxConfidence : Rat)
    (since : Instant) (db : GapDb) : List AgentExecutionRow :=
  Query.orderBy (fun a b => a ≤ b) (fun row : AgentExecutionRow => row.startedAt)
    (db.agentExecutions.filter fun row =>
      row.organizationId = organizationId ∧ row.agentName = agentName ∧
        row.status = .succeeded ∧ (∃ confidence ∈ row.confidenceScore, confidence < maxConfidence) ∧
        since ≤ row.startedAt)

/-- The newest first. -/
def listOpenGapReports (organizationId : Uuid) (db : GapDb) : List KnowledgeGapReport :=
  Query.orderBy (fun a b => b ≤ a) KnowledgeGapReport.createdAt
    (db.gapReports.filter fun row => row.organizationId = organizationId ∧ row.status = .open)

def insertGapReport (row : KnowledgeGapReport) : GapM KnowledgeGapReport := do
  let reports ← Service.read GapDb.gapReports
  Service.raiseIf (reports.any fun other => other.id = row.id)
    (.integrityError "knowledge_gap_reports_pkey")
  Service.write fun db => { db with gapReports := db.gapReports ++ [row] }
  pure row

def updateReport (p : KnowledgeGapReport → Bool) (f : KnowledgeGapReport → KnowledgeGapReport) :
    GapM (Option KnowledgeGapReport) := do
  let row ← Service.read fun db => db.gapReports.find? p
  Service.write fun db => { db with gapReports := Table.updateWhere db.gapReports p f }
  pure (row.map f)

def updateGapReportSupportingIds (gapReportId : Uuid) (supportingExecutionIds : List Uuid) :
    GapM (Option KnowledgeGapReport) :=
  updateReport (fun row => row.id = gapReportId) fun row => { row with supportingExecutionIds }

def updateGapReportStatus (gapReportId organizationId : Uuid) (status : GapReportStatus) :
    GapM (Option KnowledgeGapReport) :=
  updateReport (fun row => row.id = gapReportId ∧ row.organizationId = organizationId)
    fun row => { row with status }

end Repository

/-!
## `agents/knowledge_gap/pipeline.py`

The scan for repeated questions that were answered with little confidence, and
`dismiss_gap_report` of `agents/service.py`. The audit row of a dismissal is not part of
this model.
-/

open Ekip.Shared

/-- What one scan calls: the embedding model, the language model, which is shown an
evidence block under fixed instructions, and the search in the documentation, which gives
the score and the document of its best hit. -/
structure Model where
  embedTexts : List String → Except Exn (List Embedding)
  ainvoke : String → Except Exn String
  searchDocumentation : Uuid → String → Except Exn (Option (Rat × Uuid))

/-- The default threshold passes its own check. -/
theorem defaultSimilarity_nonneg : (0 : Rat) ≤ 82 / 100 := by norm_num

theorem defaultSimilarity_le_one : (82 / 100 : Rat) ≤ 1 := by norm_num

structure GapSettings where
  confidenceThreshold : Rat := 1 / 2
  lookbackDays : Nat := 14
  minClusterSize : Nat := 3
  similarityThreshold : Rat := 82 / 100
  one_le_lookback : 1 ≤ lookbackDays := by decide
  two_le_minClusterSize : 2 ≤ minClusterSize := by decide
  similarity_nonneg : 0 ≤ similarityThreshold := by exact defaultSimilarity_nonneg
  similarity_le_one : similarityThreshold ≤ 1 := by exact defaultSimilarity_le_one

def microsecondsPerDay : Nat := 24 * 60 * 60 * 1000000

def answerAgentName : String := "answer_question"

def mergeSimilarityThreshold : Rat := 9 / 10

def documentMatchScoreThreshold : Rat := 6 / 10

/-- What one scan draws: the time at which its transaction began, the time that it reads,
and the id of the report it creates for a cluster. -/
structure Draw where
  beganAt : Instant
  now : Instant
  reportId : Nat → Uuid

/-- A question of some text. -/
def query? (execution : AgentExecutionRow) : Option (AgentExecutionRow × String) :=
  match execution.inputSummary with
  | some (.question query _ _) => if query = "" then none else some (execution, query)
  | _ => none

/-- `items[i]`, or an `IndexError`. -/
def item {α : Type} (items : List α) (i : Nat) : Except Exn α :=
  match items[i]? with
  | some a => .ok a
  | none => .error indexError

def column (vectors : List Embedding) (d : Nat) : Except Exn (List Rat) :=
  vectors.mapM fun vector => item vector d

def average (vectors : List Embedding) : Except Exn Embedding := do
  let first ← item vectors 0
  (List.range first.length).mapM fun d =>
    (column vectors d).map fun values => values.sum / vectors.length

def findMergeableReport (centroid : Embedding) (existingReports : List KnowledgeGapReport) :
    Except Exn (Option KnowledgeGapReport) :=
  (closest (fun report => cosineSimilarity centroid report.topicEmbedding) existingReports
    noneYet).map fun best => best.1.filter fun _ => .ofRat mergeSimilarityThreshold ≤ best.2

/-- `str.strip()`. -/
def stripped (text : String) : String := String.ofList (Text.strip text.toList)

def synthesizeTopic (model : Model) (queries : List String) : Except Exn String :=
  (model.ainvoke ("\n".intercalate ((queries.take 20).map fun query => "- " ++ query))).map stripped

def resolveSuggestedAction (model : Model) (organizationId : Uuid) (topic : String) :
    Except Exn (SuggestedAction × Option Uuid) :=
  (model.searchDocumentation organizationId topic).map fun result =>
    match result with
    | some (score, documentId) =>
      if documentMatchScoreThreshold ≤ score then (.updateExisting, some documentId)
      else (.newRunbook, none)
    | none => (.newRunbook, none)

/-- What the members of one cluster have in common. -/
structure Topic where
  executionIds : List Uuid
  queries : List String
  centroid : Embedding

def gatherTopic (queryable : List (AgentExecutionRow × String)) (embeddings : List Embedding)
    (memberIndices : List Nat) : Except Exn Topic := do
  let members ← memberIndices.mapM (item queryable)
  let vectors ← memberIndices.mapM (item embeddings)
  let centroid ← average vectors
  pure
    { executionIds := members.map fun member => member.1.id
      queries := members.map Prod.snd
      centroid }

section Scan

variable (model : Model) (organizationId : Uuid) (draw : Draw)

/-- The session holds one object a row: what an earlier cluster of the run merged into the
report is read here. -/
def mergeInto (report : KnowledgeGapReport) (executionIds : List Uuid) :
    GapM (Option KnowledgeGapReport) := do
  let current ← Service.read fun db =>
    (Table.get? KnowledgeGapReport.id db.gapReports report.id).getD report
  let mergedIds := ((current.supportingExecutionIds ++ executionIds).dedup).insertionSort (· ≤ ·)
  Repository.updateGapReportSupportingIds report.id mergedIds

def createReport (position : Nat) (topic : Topic) : GapM (Option KnowledgeGapReport) := do
  let suggestedTopic ← Service.ofExcept (synthesizeTopic model topic.queries)
  let (suggestedAction, relatedDocumentId) ←
    Service.ofExcept (resolveSuggestedAction model organizationId suggestedTopic)
  let row ← Repository.insertGapReport
    { id := draw.reportId position
      organizationId
      suggestedTopic
      topicEmbedding := topic.centroid
      supportingExecutionIds := topic.executionIds
      suggestedAction
      relatedDocumentId
      createdAt := draw.beganAt }
  pure (some row)

def reportCluster (existingReports : List KnowledgeGapReport) (position : Nat) (topic : Topic) :
    GapM (Option KnowledgeGapReport) := do
  let mergeable ← Service.ofExcept (findMergeableReport topic.centroid existingReports)
  match mergeable with
  | some report => mergeInto report topic.executionIds
  | none => createReport model organizationId draw position topic

/-- The loop over the clusters: `existingReports` was read before it. -/
def reportClusters (minClusterSize : Nat) (queryable : List (AgentExecutionRow × String))
    (embeddings : List Embedding) (existingReports : List KnowledgeGapReport) :
    Nat → List (List Nat) → GapM (List KnowledgeGapReport)
  | _, [] => pure []
  | position, memberIndices :: rest =>
    if memberIndices.length < minClusterSize then
      reportClusters minClusterSize queryable embeddings existingReports (position + 1) rest
    else do
      let topic ← Service.ofExcept (gatherTopic queryable embeddings memberIndices)
      let reported ← reportCluster model organizationId draw existingReports position topic
      let others ← reportClusters minClusterSize queryable embeddings existingReports
        (position + 1) rest
      pure (reported.toList ++ others)

variable (settings : GapSettings)

/-- The executions that a scan looks at, with their questions. -/
def queryableExecutions (db : GapDb) : List (AgentExecutionRow × String) :=
  (Repository.listLowConfidenceExecutions organizationId answerAgentName
    settings.confidenceThreshold (draw.now - settings.lookbackDays * microsecondsPerDay)
    db).filterMap query?

def detectKnowledgeGaps : GapM (List KnowledgeGapReport) := do
  let queryable ← Service.read (queryableExecutions organizationId draw settings)
  if queryable.length < settings.minClusterSize then pure []
  else do
    let embeddings ← Service.ofExcept (model.embedTexts (queryable.map Prod.snd))
    let clusters ← Service.ofExcept (clusterBySimilarity settings.similarityThreshold embeddings)
    let existingReports ← Service.read (Repository.listOpenGapReports organizationId)
    reportClusters model organizationId draw settings.minClusterSize queryable embeddings
      existingReports 0 clusters

end Scan

/-! ## `dismiss_gap_report` -/

def gapReviewPermission : String := "knowledge:review"

def dismissGapReport (actor : Identity) (gapReportId : Uuid) : GapM KnowledgeGapReport := do
  Service.raiseIf (!Users.authorize actor gapReviewPermission)
    (permissionDenied "You do not have permission to perform this action." "permission_denied"
      [("required_permission", gapReviewPermission)])
  let updated ← Repository.updateGapReportStatus gapReportId actor.organizationId .dismissed
  Service.orRaise updated
    (notFound "Gap report not found." "gap_report.not_found"
      [("gap_report_id", toString gapReportId)])

end Ekip.Agents.KnowledgeGap
