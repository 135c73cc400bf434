import Mathlib.Logic.Function.Basic
import Ekip.Core.Exceptions

/-!
# `ingestion/workers/tasks.py`: attempts and their `ingestion_jobs` rows

An attempt is followed through `run_ingestion_job_task` and the part of
`_execute_ingestion_job` that decides what its row says. A step leads from one
commit, or one await that may fail, to the next; attempts take their steps in any
order. What is fetched and what becomes of it is left to the steps. An attempt
is named by the id that its row gets.
-/
namespace Ekip.Ingestion.Workers

open Ekip.Lib Ekip.Database Ekip.Core

def maxJobTries : Nat := 3

inductive JobStatus
  | queued
  | running
  | succeeded
  | failed
  | deadLettered
deriving DecidableEq

def JobStatus.value : JobStatus → String
  | queued => "queued"
  | running => "running"
  | succeeded => "succeeded"
  | failed => "failed"
  | deadLettered => "dead_lettered"

structure Counters where
  documentsProcessed : Nat := 0
  pagesFetched : Nat := 0
  itemsDiscovered : Nat := 0
  itemsSkipped : Nat := 0
  chunksEmbedded : Nat := 0
deriving DecidableEq

structure IngestionJob where
  id : Uuid
  organizationId : Uuid
  connectorConfigId : Uuid
  status : JobStatus := .queued
  failedStage : Option String := none
  counters : Counters := {}
  retryCount : Nat := 0
  lastErrorType : Option String := none

/-- What an await raises. A `CancelledError` is no `Exception`. -/
inductive Raised
  | exception (e : Exn)
  | cancelled
deriving DecidableEq

/-- `type(exc).__name__`. -/
def Raised.typeName : Raised → String
  | exception (.ekip error) =>
    match error.kind with
    | .permissionDenied => "PermissionDeniedError"
    | .notFound => "NotFoundError"
    | .conflict => "ConflictError"
    | .validation => "ValidationError"
  | exception (.integrityError _) => "IntegrityError"
  | exception (.runtimeError _) => "RuntimeError"
  | exception (.valueError _) => "ValueError"
  | exception (.typeError _) => "TypeError"
  | exception (.keyError _) => "KeyError"
  | cancelled => "CancelledError"

inductive Stage
  | authenticate
  | fetch
  /-- The page has come, and is checked. -/
  | validate
  | processItem
deriving DecidableEq

def Stage.value : Stage → String
  | authenticate => "authenticate"
  | fetch | validate => "fetch"
  | processItem => "process_item"

/-- What arq hands to the task; `redis` says whether its context has a client. -/
structure Attempt where
  jobTry : Nat
  organizationId : Uuid
  connectorConfigId : Uuid
  redis : Bool := true
deriving DecidableEq

/-- `attempt_number`, passed on with the rate limiter only. -/
def Attempt.attemptNumber (attempt : Attempt) : Nat := if attempt.redis then attempt.jobTry else 1

/-- How the task ends. -/
inductive Outcome
  | skippedDuplicate
  | skippedDisconnected
  | completed
  | deadLettered
  | exhausted
  | retried
  | propagated
deriving DecidableEq

inductive Phase
  | waiting
  /-- `_acquire_connector_lock`. -/
  | acquiring (attempt : Attempt)
  /-- Up to the commit of the running row. -/
  | setup (attempt : Attempt)
  /-- From there to the `try`. -/
  | prepare (attempt : Attempt)
  | body (attempt : Attempt) (stage : Stage) (counters : Counters)
  /-- `except (Exception, asyncio.CancelledError) as exc`. -/
  | recording (attempt : Attempt) (stage : Stage) (counters : Counters) (exc : Raised)
  /-- `finally: await connector.close(client)`. -/
  | closing (attempt : Attempt) (result : Except Raised JobStatus)
  | deadLettering (attempt : Attempt)
  /-- The commit of `session_scope`. -/
  | leaving (attempt : Attempt) (status : JobStatus)
  | ended (attempt : Attempt) (outcome : Outcome)
deriving DecidableEq

structure St where
  jobs : List IngestionJob
  phase : Uuid → Phase

def St.start : St := { jobs := [], phase := fun _ => .waiting }

/-- What an attempt is told next. -/
inductive Event
  /-- What the phase awaits returns. -/
  | returned
  /-- Another attempt holds the lock. -/
  | lockHeld
  | fetched (itemsDiscovered : Nat)
  | processed (documentsProcessed chunksEmbedded : Nat)
  | checkpointed
  | completed
  /-- `applied`: the commit that was awaited took effect all the same. -/
  | fails (raised : Raised) (applied : Bool)

inductive Label
  | starts (jobId : Uuid) (attempt : Attempt)
  | goesOn (jobId : Uuid) (event : Event)

namespace St

variable (s : St) (jobId : Uuid)

def goto (phase : Phase) : St := { s with phase := Function.update s.phase jobId phase }

/-- `repository.update_ingestion_job`, committed. -/
def updateIngestionJob (change : IngestionJob → IngestionJob) : St :=
  { s with jobs := Table.updateWhere s.jobs (fun row => row.id = jobId) change }

/-- An interrupted predecessor is closed. -/
def interrupted (row : IngestionJob) : IngestionJob :=
  { row with
    status := .failed
    failedStage := row.failedStage.or (some "worker_interrupted")
    lastErrorType := some "WorkerInterrupted" }

/-- `repository.insert_ingestion_job` and the update to running, committed together. -/
def insertIngestionJob (attempt : Attempt) : St :=
  { s with
    jobs := Table.updateWhere s.jobs (fun row => row.organizationId = attempt.organizationId ∧
        row.connectorConfigId = attempt.connectorConfigId ∧ row.status = .running) interrupted ++
      [{ id := jobId
         organizationId := attempt.organizationId
         connectorConfigId := attempt.connectorConfigId
         status := .running
         retryCount := max (attempt.attemptNumber - 1) 0 }] }

end St

/-! ## What the layers make of an exception -/

def disconnectedCode : String := "connector_config.disconnected"

def givenUp (attempt : Attempt) : Outcome :=
  if maxJobTries ≤ attempt.jobTry then .exhausted else .retried

/-- Around `_acquire_connector_lock`; a cancellation passes. -/
def lockFailed (attempt : Attempt) : Raised → Outcome
  | .cancelled => .propagated
  | .exception _ => givenUp attempt

/-- The `except` clauses of the task; a cancellation passes them. -/
def handled (attempt : Attempt) : Raised → Outcome
  | .cancelled => .propagated
  | .exception (.ekip error) =>
    if error.errorCode = disconnectedCode then .skippedDisconnected else givenUp attempt
  | .exception _ => givenUp attempt

/-- After `service.run_ingestion_job`. -/
def afterService (attempt : Attempt) : Except Raised JobStatus → Phase
  | .error raised => .ended attempt (handled attempt raised)
  | .ok status =>
    if status = .failed ∧ maxJobTries ≤ attempt.jobTry then .deadLettering attempt
    else .leaving attempt status

/-- The client exists once `authenticate` has returned. -/
def finallyPhase (attempt : Attempt) (stage : Stage) (result : Except Raised JobStatus) : Phase :=
  if stage = .authenticate then afterService attempt result else .closing attempt result

/-- Re-raised if it is a cancellation. -/
def recordedResult : Raised → Except Raised JobStatus
  | .cancelled => .error .cancelled
  | .exception _ => .ok .failed

def failedJob (stage : Stage) (counters : Counters) (exc : Raised) (row : IngestionJob) :
    IngestionJob :=
  { row with
    status := .failed
    failedStage := some stage.value
    counters
    lastErrorType := some exc.typeName }

def succeededJob (counters : Counters) (row : IngestionJob) : IngestionJob :=
  { row with status := .succeeded, counters }

/-- `dead_letter_ingestion_job`. -/
def deadLetteredJob (row : IngestionJob) : IngestionJob := { row with status := .deadLettered }

def leftOutcome : JobStatus → Outcome
  | .deadLettered => .deadLettered
  | .failed => .retried
  | _ => .completed

/-- One step of an attempt that is in `phase`. -/
def advance (s : St) (jobId : Uuid) : Phase → Event → Option St
  | .acquiring attempt, .returned => some (s.goto jobId (.setup attempt))
  | .acquiring attempt, .lockHeld => some (s.goto jobId (.ended attempt .skippedDuplicate))
  | .acquiring attempt, .fails raised false =>
    some (s.goto jobId (.ended attempt (lockFailed attempt raised)))
  | .setup attempt, .returned =>
    some ((s.insertIngestionJob jobId attempt).goto jobId (.prepare attempt))
  | .setup attempt, .fails raised applied =>
    some ((if applied then s.insertIngestionJob jobId attempt else s).goto jobId
      (.ended attempt (handled attempt raised)))
  | .prepare attempt, .returned => some (s.goto jobId (.body attempt .authenticate {}))
  | .prepare attempt, .fails raised false =>
    some (s.goto jobId (.ended attempt (handled attempt raised)))
  | .body attempt .authenticate counters, .returned =>
    some (s.goto jobId (.body attempt .fetch counters))
  | .body attempt .fetch counters, .fetched itemsDiscovered =>
    some (s.goto jobId (.body attempt .validate
      { counters with
        pagesFetched := counters.pagesFetched + 1
        itemsDiscovered := counters.itemsDiscovered + itemsDiscovered }))
  | .body attempt .validate counters, .returned =>
    some (s.goto jobId (.body attempt .processItem counters))
  | .body attempt .processItem counters, .processed documentsProcessed chunksEmbedded =>
    some (s.goto jobId (.body attempt .processItem
      { counters with
        documentsProcessed := counters.documentsProcessed + documentsProcessed
        chunksEmbedded := counters.chunksEmbedded + chunksEmbedded
        itemsSkipped := counters.itemsSkipped + if documentsProcessed = 0 then 1 else 0 }))
  | .body attempt .processItem counters, .checkpointed =>
    some ((s.updateIngestionJob jobId fun row => { row with counters }).goto jobId
      (.body attempt .fetch counters))
  | .body attempt .processItem counters, .completed =>
    some ((s.updateIngestionJob jobId (succeededJob counters)).goto jobId
      (.closing attempt (.ok .succeeded)))
  | .body attempt .processItem counters, .fails raised true =>
    some ((s.updateIngestionJob jobId (succeededJob counters)).goto jobId
      (.recording attempt .processItem counters raised))
  | .body attempt stage counters, .fails raised false =>
    some (s.goto jobId (.recording attempt stage counters raised))
  | .recording attempt stage counters exc, .returned =>
    some ((s.updateIngestionJob jobId (failedJob stage counters exc)).goto jobId
      (finallyPhase attempt stage (recordedResult exc)))
  | .recording attempt stage counters exc, .fails raised applied =>
    some ((if applied then s.updateIngestionJob jobId (failedJob stage counters exc) else s).goto
      jobId (finallyPhase attempt stage (.error raised)))
  | .closing attempt result, .returned => some (s.goto jobId (afterService attempt result))
  | .closing attempt _, .fails raised false =>
    some (s.goto jobId (.ended attempt (handled attempt raised)))
  | .deadLettering attempt, .returned =>
    some ((s.updateIngestionJob jobId deadLetteredJob).goto jobId (.leaving attempt .deadLettered))
  | .deadLettering attempt, .fails raised applied =>
    some ((if applied then s.updateIngestionJob jobId deadLetteredJob else s).goto jobId
      (.ended attempt (handled attempt raised)))
  | .leaving attempt status, .returned => some (s.goto jobId (.ended attempt (leftOutcome status)))
  | .leaving attempt _, .fails raised false =>
    some (s.goto jobId (.ended attempt (handled attempt raised)))
  | _, _ => none

def step (s : St) : Label → Option St
  | .starts jobId attempt =>
    -- without Redis there is no lock to wait for
    if s.phase jobId = .waiting then
      some (s.goto jobId (if attempt.redis then .acquiring attempt else .setup attempt))
    else none
  | .goesOn jobId event => advance s jobId (s.phase jobId) event

/-! ## Replay -/

def notReplayable (row : IngestionJob) : Exn :=
  conflict "Only a dead-lettered ingestion run can be replayed." "ingestion_job.not_replayable"
    [("job_id", toString row.id), ("status", row.status.value)]

/-- `get_replayable_ingestion_run`, for a connector that the caller may see. -/
def getReplayableIngestionRun (s : St) (organizationId connectorConfigId jobId : Uuid) :
    Except Exn IngestionJob :=
  match s.jobs.find? fun row => row.id = jobId ∧ row.organizationId = organizationId ∧
      row.connectorConfigId = connectorConfigId with
  | none => .error (notFound "Ingestion run not found." "ingestion_job.not_found"
      [("job_id", toString jobId)])
  | some row => if row.status ≠ .deadLettered then .error (notReplayable row) else .ok row

end Ekip.Ingestion.Workers
