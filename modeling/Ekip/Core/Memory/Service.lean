import Ekip.Lib.Query
import Ekip.Lib.Text
import Ekip.Core.Exceptions
import Ekip.Database.ContentModels

/-!
# Memories: `core/memory/repository.py` and `core/memory/service.py`
-/
namespace Ekip.Core.Memory

open Ekip.Lib Ekip.Database Ekip.Core

/-!
## `core/memory/repository.py`

Every read but one carries the visibility clause in its `WHERE`.
-/

/-- Embeddings in `ε`, distances in `ω`; the comparison is that of the database. -/
structure Engine (ε ω : Type) where
  embedQuery : String → Except Exn ε
  zeroVector : ε
  cosineDistance : ε → ε → ω
  le : ω → ω → Bool
  /-- `1.0 - distance`. -/
  relevance : ω → ω
  lt : ω → ω → Bool

/-- An operation on the table of memories. -/
abbrev MemoryM (ε α : Type) := Service Exn (List (AgentMemory ε)) α

namespace Repository

variable {ε ω : Type}

section Reads

variable (organizationId : Uuid) (actorUserId : Option Uuid) (allowedProjectIds : List Uuid)

/-- The disjunction over the scopes: without a user, or without projects, the
branch matches nothing. -/
def scopeBranches (row : AgentMemory ε) : Bool :=
  (row.scope = .user ∧ ∃ userId ∈ actorUserId, row.ownerUserId = some userId) ∨
    (row.scope = .project ∧ ∃ projectId ∈ row.projectId, projectId ∈ allowedProjectIds)

def visibilityClause (row : AgentMemory ε) : Bool :=
  row.organizationId = organizationId ∧ row.status = .active ∧
    scopeBranches actorUserId allowedProjectIds row

def visibleSelect (rows : List (AgentMemory ε)) : List (AgentMemory ε) :=
  rows.filter (visibilityClause organizationId actorUserId allowedProjectIds)

def negativeLimit : Exn := .runtimeError "LIMIT must not be negative"
def negativeOffset : Exn := .runtimeError "OFFSET must not be negative"

/-- `recall`, a word of Lean: nearest first. -/
def recall_ (engine : Engine ε ω) (queryEmbedding : ε) (limit : Nat)
    (rows : List (AgentMemory ε)) : Except Exn (List (AgentMemory ε × ω)) :=
  Query.limit negativeLimit limit (Query.orderBy engine.le Prod.snd
    ((visibleSelect organizationId actorUserId allowedProjectIds rows).map fun row =>
      (row, engine.cosineDistance row.embedding queryEmbedding)))

/-- Newest first. -/
def listVisible (limit offset : Int) (rows : List (AgentMemory ε)) :
    Except Exn (List (AgentMemory ε)) := do
  let rows ← Query.offset negativeOffset offset
    (Query.orderBy (fun a b => decide (b ≤ a)) AgentMemory.createdAt
      (visibleSelect organizationId actorUserId allowedProjectIds rows))
  Query.limit negativeLimit limit rows

def getVisible (memoryId : Uuid) (rows : List (AgentMemory ε)) : Option (AgentMemory ε) :=
  (visibleSelect organizationId actorUserId allowedProjectIds rows).find? fun row =>
    row.id = memoryId

/-- Any status and any scope: only the organization is asked for. -/
def getAnyStatusForOwner (memoryId : Uuid) (rows : List (AgentMemory ε)) :
    Option (AgentMemory ε) :=
  rows.find? fun row => row.id = memoryId ∧ row.organizationId = organizationId

end Reads

/-! ## Writes, each of which also sets `updated_at` -/

def insert (row : AgentMemory ε) : MemoryM ε (AgentMemory ε) := do
  Service.write fun rows => rows ++ [row]
  pure row

/-- `UPDATE … WHERE`, with the number of rows that matched. -/
def update (p : AgentMemory ε → Bool) (f : AgentMemory ε → AgentMemory ε) : MemoryM ε Nat := do
  let count ← Service.read fun rows => rows.countP p
  Service.write fun rows => Table.updateWhere rows p f
  pure count

/-- The new image of a row whose content is replaced. -/
def withContent (now : Instant) (content : String) (embedding : ε)
    (memoryMetadata : Option String) (row : AgentMemory ε) : AgentMemory ε :=
  { row with content, embedding, memoryMetadata, updatedAt := now }

def superseded (now : Instant) (row : AgentMemory ε) : AgentMemory ε :=
  { row with status := .superseded, updatedAt := now }

def tombstone (zeroVector : ε) (now : Instant) (row : AgentMemory ε) : AgentMemory ε :=
  { row with status := .deleted, content := "", embedding := zeroVector, updatedAt := now }

/-- `… RETURNING`, of which the first row is taken. -/
def updateContent (now : Instant) (memoryId : Uuid) (content : String) (embedding : ε)
    (memoryMetadata : Option String) : MemoryM ε (Option (AgentMemory ε)) := do
  let _ ← update (fun row => row.id = memoryId) (withContent now content embedding memoryMetadata)
  Service.read fun rows => rows.find? fun row => row.id = memoryId

def markSuperseded (now : Instant) (memoryId : Uuid) : MemoryM ε Nat :=
  update (fun row => row.id = memoryId ∧ row.status = .active) (superseded now)

def softDelete (zeroVector : ε) (now : Instant) (memoryId : Uuid) : MemoryM ε Nat :=
  update (fun row => row.id = memoryId ∧ row.status ≠ .deleted) (tombstone zeroVector now)

def touchLastAccessed (memoryIds : List Uuid) (accessedAt : Instant) : MemoryM ε Nat :=
  update (fun row => row.id ∈ memoryIds)
    (fun row => { row with lastAccessedAt := some accessedAt, updatedAt := accessedAt })

end Repository

/-!
## `core/memory/service.py`

The audit records that the operations write belong to another module and are
read by none of these.
-/

open Ekip.Shared

def maxContentLength : Nat := 2000

/-- A request to remember something: a scope comes with the column that it needs. -/
structure MemoryCreate where
  scope : MemoryScope
  memoryType : MemoryType
  content : String
  projectId : Option Uuid := none
  sourceType : MemorySourceType := .explicit
  sourceId : Option Uuid := none
  supersedesMemoryId : Option Uuid := none
  memoryMetadata : Option String := none
  contentLength : 1 ≤ content.length ∧ content.length ≤ maxContentLength
  contentIsNotOnlyWhitespace : Text.strip content.toList ≠ []
  scopeMatchesItsRequiredField : scope = .project ↔ projectId.isSome

structure MemoryUpdate where
  content : String
  memoryMetadata : Option String := none
  contentLength : 1 ≤ content.length ∧ content.length ≤ maxContentLength
  contentIsNotOnlyWhitespace : Text.strip content.toList ≠ []

set_option linter.dupNamespace false in
/-- A memory as it is returned to a caller. -/
structure Memory where
  id : Uuid
  organizationId : Uuid
  scope : MemoryScope
  ownerUserId : Option Uuid
  projectId : Option Uuid
  memoryType : MemoryType
  content : String
  sourceType : Option MemorySourceType
  sourceId : Option Uuid
  createdBy : String
  status : MemoryStatus
  supersedesMemoryId : Option Uuid
  createdAt : Instant
  updatedAt : Instant

structure RecalledMemory (ω : Type) where
  id : Uuid
  scope : MemoryScope
  memoryType : MemoryType
  content : String
  distance : ω

structure Settings (ω : Type) where
  memoryRecallLimit : Nat := 5
  memoryRelevanceThreshold : ω
  memoryContextCharBudget : Nat := 2000

variable {ε ω : Type}

/-- `Memory.model_validate(row)`. -/
def toMemory (row : AgentMemory ε) : Memory :=
  { id := row.id
    organizationId := row.organizationId
    scope := row.scope
    ownerUserId := row.ownerUserId
    projectId := row.projectId
    memoryType := row.memoryType
    content := row.content
    sourceType := row.sourceType
    sourceId := row.sourceId
    createdBy := row.createdBy
    status := row.status
    supersedesMemoryId := row.supersedesMemoryId
    createdAt := row.createdAt
    updatedAt := row.updatedAt }

/-- What one request draws, and whether its write of `last_accessed_at` succeeds. -/
structure Draw where
  memoryId : Uuid
  now : Instant
  touches : Bool := true

variable (engine : Engine ε ω) (settings : Settings ω) (draw : Draw) (actor : Identity)

def allowedProjectIds : List Uuid := actor.projectPermissions.keys

def memoryNotFound (message : String) (memoryId : Uuid) : Exn :=
  notFound message "memory.not_found" [("memory_id", toString memoryId)]

/-- The one lookup that the operations on a single memory begin with. -/
def visibleTo (memoryId : Uuid) (rows : List (AgentMemory ε)) : Option (AgentMemory ε) :=
  Repository.getVisible actor.organizationId actor.userId (allowedProjectIds actor) memoryId rows

/-! ## Creation -/

/-- The owner of a user-scoped memory is the actor. -/
def ownerFor (data : MemoryCreate) : MemoryM ε (Option Uuid) :=
  match data.scope with
  | .user => do
    let userId ← Service.orRaise actor.userId
      (validation "Only a user identity can create user-scoped memory."
        "memory.owner_required" [("scope", "user")])
    pure (some userId)
  | .project => do
    let projectId ← Service.orRaise data.projectId (.runtimeError "AssertionError")
    Service.raiseIf (projectId ∉ allowedProjectIds actor)
      (permissionDenied "You do not have access to this project."
        "memory.project_access_denied" [("project_id", toString projectId)])
    pure none

def requireSupersedable : Option Uuid → MemoryM ε Unit
  | none => pure ()
  | some memoryId => do
    let existing ← Service.read fun rows => visibleTo actor memoryId rows
    Service.raiseIf existing.isNone (memoryNotFound "Memory to supersede not found." memoryId)

def newRow (ownerUserId : Option Uuid) (data : MemoryCreate) (vector : ε) : AgentMemory ε :=
  { id := draw.memoryId
    organizationId := actor.organizationId
    scope := data.scope
    ownerUserId
    projectId := data.projectId
    memoryType := data.memoryType
    content := data.content
    embedding := vector
    sourceType := some data.sourceType
    sourceId := data.sourceId
    createdBy := actor.auditTag
    status := .active
    supersedesMemoryId := data.supersedesMemoryId
    memoryMetadata := data.memoryMetadata
    createdAt := draw.now
    updatedAt := draw.now }

def retire : Option Uuid → MemoryM ε Unit
  | none => pure ()
  | some memoryId => do
    let _ ← Repository.markSuperseded draw.now memoryId

def createMemory (data : MemoryCreate) : MemoryM ε Memory := do
  let ownerUserId ← ownerFor actor data
  requireSupersedable actor data.supersedesMemoryId
  let vector ← Service.ofExcept (engine.embedQuery data.content)
  let row ← Repository.insert (newRow draw actor ownerUserId data vector)
  retire draw data.supersedesMemoryId
  pure (toMemory row)

/-! ## Reads -/

def listMemories (limit : Int := 50) (offset : Int := 0) : MemoryM ε (List Memory) := do
  let rows ← Service.read fun rows =>
    Repository.listVisible actor.organizationId actor.userId (allowedProjectIds actor) limit offset
      rows
  let rows ← Service.ofExcept rows
  pure (rows.map toMemory)

def getMemory (memoryId : Uuid) : MemoryM ε Memory := do
  let row ← Service.read fun rows => visibleTo actor memoryId rows
  let row ← Service.orRaise row (memoryNotFound "Memory not found." memoryId)
  pure (toMemory row)

/-- The candidates that are relevant enough and fit the budget of characters. A
candidate below the threshold ends the selection; one that is too long is skipped. -/
def selectRelevant : List (AgentMemory ε × ω) → Nat → List (RecalledMemory ω)
  | [], _ => []
  | (row, distance) :: candidates, usedChars =>
    if engine.lt (engine.relevance distance) settings.memoryRelevanceThreshold then []
    else if settings.memoryContextCharBudget < usedChars + row.content.length then
      selectRelevant candidates usedChars
    else
      { id := row.id
        scope := row.scope
        memoryType := row.memoryType
        content := row.content
        distance } :: selectRelevant candidates (usedChars + row.content.length)

def touch (selected : List (RecalledMemory ω)) : MemoryM ε Unit :=
  if selected.isEmpty ∨ draw.touches = false then pure ()
  else do
    let _ ← Repository.touchLastAccessed (selected.map RecalledMemory.id) draw.now

def recallRelevant (query : String) : MemoryM ε (List (RecalledMemory ω)) :=
  if settings.memoryRecallLimit ≤ 0 then pure []
  else do
    let queryVector ← Service.ofExcept (engine.embedQuery query)
    let candidates ← Service.read fun rows =>
      Repository.recall_ actor.organizationId actor.userId (allowedProjectIds actor) engine
        queryVector settings.memoryRecallLimit rows
    let candidates ← Service.ofExcept candidates
    let selected := selectRelevant engine settings candidates 0
    touch draw selected
    pure selected

/-! ## Lifecycle -/

def updateMemory (memoryId : Uuid) (data : MemoryUpdate) : MemoryM ε Memory := do
  let existing ← Service.read fun rows => visibleTo actor memoryId rows
  let _ ← Service.orRaise existing (memoryNotFound "Memory not found." memoryId)
  let vector ← Service.ofExcept (engine.embedQuery data.content)
  let updated ← Repository.updateContent draw.now memoryId data.content vector data.memoryMetadata
  let updated ← Service.orRaise updated (.runtimeError "Memory disappeared mid-update.")
  pure (toMemory updated)

/-- Nothing visible under the id: a tombstone of the organization answers `False`. -/
def deleteNothing (memoryId : Uuid) : MemoryM ε Bool := do
  let existing ← Service.read fun rows =>
    Repository.getAnyStatusForOwner actor.organizationId memoryId rows
  Service.raiseIf (¬ ∃ row ∈ existing, row.status = .deleted)
    (memoryNotFound "Memory not found." memoryId)
  pure false

def deleteVisible (memoryId : Uuid) : MemoryM ε Bool := do
  let rows ← Repository.softDelete engine.zeroVector draw.now memoryId
  pure (rows ≠ 0)

def deleteMemory (memoryId : Uuid) : MemoryM ε Bool := do
  let visible ← Service.read fun rows => visibleTo actor memoryId rows
  match visible with
  | none => deleteNothing actor memoryId
  | some _ => deleteVisible engine draw memoryId

end Ekip.Core.Memory
