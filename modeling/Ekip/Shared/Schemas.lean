import Mathlib.Data.List.AList
import Mathlib.Data.Finset.Basic
import Ekip.Database.Models

/-!
# The schemas that all components share: `shared/schemas`
-/
namespace Ekip.Shared

open Ekip.Database

/-!
## `Identity`, the resolved caller

A Python `dict` is an association list without repeated keys; a `frozenset` is
a `Finset`.
-/

abbrev Dict (κ v : Type) := AList fun _ : κ => v

inductive ActorKind
  | user
  | service
  | agent

def ActorKind.value : ActorKind → String
  | user => "user"
  | service => "service"
  | agent => "agent"

structure Identity where
  kind : ActorKind
  subject : String
  organizationId : Uuid
  userId : Option Uuid := none
  displayName : Option String := none
  roles : List String := []
  permissions : Finset String := ∅
  projectPermissions : Dict Uuid (Finset String) := ∅

def Identity.auditTag (self : Identity) : String := s!"{self.kind.value}:{self.subject}"

/-- A project with an entry in `projectPermissions` is decided by that entry
alone; any other project, or no project, by the organization-level set. -/
def Identity.hasPermission (self : Identity) (permissionCode : String)
    (projectId : Option Uuid := none) : Bool :=
  match projectId.bind fun p => self.projectPermissions.lookup p with
  | some codes => permissionCode ∈ codes
  | none => permissionCode ∈ self.permissions

/-!
## What the agents answer with: `shared/schemas/agent_contracts.py`

Scores and confidences are fractions.
-/

structure Citation where
  documentId : Uuid
  chunkId : Uuid
  sourceUrl : Option String
  excerpt : String

inductive EvidenceSource
  | github
  | pullRequest
  | commit
  | issue
  | slack
  | jira
  | deployment
  | postmortem
  | monitoring
  | runbook
deriving DecidableEq

structure EvidenceItem where
  source : EvidenceSource
  reference : String
  summary : String
  retrievedAt : Instant
  sourceTimestamp : Option Instant := none
  metadata : Dict String String := ∅

structure RootCauseHypothesis where
  description : String
  confidence : Rat
  supportingEvidenceIds : List String

inductive ReviewStatus
  | notReviewed
  | reviewed
  | reviewFailed

inductive CritiqueVerdict
  | accept
  | revise
  | reject
deriving DecidableEq

def CritiqueVerdict.value : CritiqueVerdict → String
  | accept => "accept"
  | revise => "revise"
  | reject => "reject"

structure InvestigationResult where
  evidence : List EvidenceItem
  hypotheses : List RootCauseHypothesis
  suggestedOwnerTeam : Option String
  suggestedNextSteps : List String
  reviewStatus : ReviewStatus := .notReviewed
  critiqueVerdict : Option CritiqueVerdict := none
  revisionCount : Nat := 0
  critiqueIssues : List String := []

inductive Route
  | answer
  | investigation
deriving DecidableEq

inductive AnswerMode
  | answered
  | noAnswer
deriving DecidableEq

structure AskResponse where
  confidence : Rat
  routeTaken : Route
  answer : Option String := none
  /-- Unset for an investigation and for a technical failure. -/
  answerMode : Option AnswerMode := none
  citations : List Citation := []
  investigation : Option InvestigationResult := none

end Ekip.Shared
