import Ekip.Ingestion.Workers.Tasks
import Ekip.Lib.Run

/-!
# No exhausted sync is lost to replay

The row of a last attempt reaches `dead_lettered` where the failure is recorded
inside the job and the job returns. What is raised outside the recorded part, and
what passes through it, leaves the row as it stood.
-/
namespace Ekip.Ingestion.Workers

open Ekip.Lib Ekip.Database

/-- The row of an attempt that has ended can be left as it is. -/
structure Settled (attempt : Attempt) (row : IngestionJob) : Prop where
  notRunning : row.status ≠ .running
  replayable : maxJobTries ≤ attempt.jobTry → row.status = .succeeded ∨ row.status = .deadLettered

def AllSettled (s : St) : Prop :=
  ∀ row ∈ s.jobs, ∀ attempt outcome, s.phase row.id = .ended attempt outcome → Settled attempt row

/-! ## Steps that are provided for -/

/-- An attempt with the running row committed raises only in the body or after
it; a last attempt is not cancelled in the body, nor does anything raise on its
way from there to the dead letter. A write that records a failure takes effect. -/
def ForeseenIn : Phase → Event → Prop
  | .setup _, .fails _ applied => applied = false
  | .prepare _, .fails _ _ => False
  | .body attempt _ _, .fails raised _ => raised = .cancelled → attempt.jobTry < maxJobTries
  | .recording attempt _ _ _, .fails _ applied => applied = true ∧ attempt.jobTry < maxJobTries
  | .closing attempt result, .fails _ _ => result = .ok .failed → attempt.jobTry < maxJobTries
  | .deadLettering _, .fails _ applied => applied = true
  | _, _ => True

def Foreseen (s : St) : Label → Prop
  | .starts _ _ => True
  | .goesOn jobId event => ForeseenIn (s.phase jobId) event

instance (phase : Phase) (event : Event) : Decidable (ForeseenIn phase event) := by
  unfold ForeseenIn
  split <;> infer_instance

instance (s : St) : (label : Label) → Decidable (Foreseen s label)
  | .starts _ _ => .isTrue trivial
  | .goesOn jobId event => inferInstanceAs (Decidable (ForeseenIn (s.phase jobId) event))

/-- What the row of an attempt says in each phase. -/
def Fits (row : IngestionJob) : Phase → Prop
  | .waiting | .acquiring _ | .setup _ => False
  | .prepare _ | .body _ _ _ => True
  | .recording attempt _ _ exc => exc = .cancelled → attempt.jobTry < maxJobTries
  | .closing attempt (.error _) => row.status = .failed ∧ attempt.jobTry < maxJobTries
  | .closing _ (.ok status) =>
    row.status = status ∧ (status = .succeeded ∨ status = .failed)
  | .deadLettering _ => row.status = .failed
  | .leaving attempt status => row.status = status ∧ Settled attempt row
  | .ended attempt _ => Settled attempt row

structure Inv (s : St) : Prop where
  ids : (s.jobs.map IngestionJob.id).Nodup
  fits : ∀ row ∈ s.jobs, Fits row (s.phase row.id)

section Statements

variable {s : St} {jobId : Uuid} {phase old : Phase}

theorem inv_start : Inv St.start where
  ids := List.nodup_nil
  fits row hrow := by cases hrow

theorem inv_goto (h : Inv s) (hphase : s.phase jobId = old)
    (hfits : ∀ row, Fits row old → Fits row phase) : Inv (s.goto jobId phase) := by
  refine ⟨h.ids, fun row hrow => ?_⟩
  have hold := h.fits row hrow
  show Fits row (Function.update s.phase jobId phase row.id)
  by_cases hid : row.id = jobId
  · subst hid
    rw [Function.update_self]
    exact hfits row (hphase ▸ hold)
  · rw [Function.update_of_ne hid]
    exact hold

/-- A statement on the row of the attempt, and the phase after it. -/
theorem inv_update (h : Inv s) (hphase : s.phase jobId = old)
    {change : IngestionJob → IngestionJob} (hid : ∀ row, (change row).id = row.id)
    (hfits : ∀ row, Fits row old → Fits (change row) phase) :
    Inv ((s.updateIngestionJob jobId change).goto jobId phase) := by
  constructor
  · show ((Table.updateWhere s.jobs _ change).map IngestionJob.id).Nodup
    rw [Table.map_key_updateWhere hid]
    exact h.ids
  intro row hrow
  obtain ⟨stored, hstored, rfl⟩ := Table.mem_updateWhere.mp hrow
  have hfit := h.fits stored hstored
  show Fits _ (Function.update s.phase jobId phase _)
  by_cases hmine : stored.id = jobId
  · subst hmine
    simp only [decide_true, if_true]
    rw [hid, Function.update_self]
    exact hfits stored (hphase ▸ hfit)
  · simp only [hmine, decide_false, Bool.false_eq_true, if_false]
    rw [Function.update_of_ne hmine]
    exact hfit

/-- A row that is not running is no interrupted predecessor. -/
theorem fits_interrupted {row : IngestionJob} (hrunning : row.status = .running)
    (h : Fits row phase) : Fits (St.interrupted row) phase := by
  cases phase with
  | waiting | acquiring attempt | setup attempt => exact h
  | prepare attempt | body attempt stage counters => trivial
  | recording attempt stage counters exc => exact h
  | closing attempt result =>
    cases result with
    | error raised =>
      have hfailed := h.1
      rw [hrunning] at hfailed
      cases hfailed
    | ok status =>
      obtain ⟨rfl, hstatus⟩ := h
      rw [hrunning] at hstatus
      rcases hstatus with hstatus | hstatus <;> cases hstatus
  | deadLettering attempt =>
    have hfailed : row.status = .failed := h
    rw [hrunning] at hfailed
    cases hfailed
  | leaving attempt status => exact absurd hrunning h.2.notRunning
  | ended attempt outcome => exact absurd hrunning h.notRunning

/-- The row of the attempt comes into being, for the first time. -/
theorem inv_insert (h : Inv s) {attempt : Attempt} (hsetup : s.phase jobId = .setup attempt)
    (hfits : ∀ row, Fits row phase) :
    Inv ((s.insertIngestionJob jobId attempt).goto jobId phase) := by
  have hnew : ∀ row ∈ s.jobs, row.id ≠ jobId := by
    intro row hrow hid
    have hfit := h.fits row hrow
    rw [hid, hsetup] at hfit
    exact hfit
  constructor
  · refine Table.nodup_keys_append ?_ fun row hrow => ?_
    · have hkeep : ∀ row, (St.interrupted row).id = row.id := fun _ => rfl
      rw [Table.map_key_updateWhere hkeep]
      exact h.ids
    · obtain ⟨old, hold, rfl⟩ := Table.mem_updateWhere.mp hrow
      split
      · exact hnew old hold
      · exact hnew old hold
  intro row hrow
  show Fits row (Function.update s.phase jobId phase row.id)
  rcases List.mem_append.mp hrow with hrow | hrow
  · obtain ⟨old, hold, rfl⟩ := Table.mem_updateWhere.mp hrow
    have hfit := h.fits old hold
    have hne := hnew old hold
    by_cases hstale : old.organizationId = attempt.organizationId ∧
        old.connectorConfigId = attempt.connectorConfigId ∧ old.status = .running
    · rw [if_pos (decide_eq_true hstale)]
      show Fits (St.interrupted old) (Function.update s.phase jobId phase old.id)
      rw [Function.update_of_ne hne]
      exact fits_interrupted hstale.2.2 hfit
    · rw [if_neg (by simpa using hstale), Function.update_of_ne hne]
      exact hfit
  · obtain rfl := List.mem_singleton.mp hrow
    show Fits _ (Function.update s.phase jobId phase jobId)
    rw [Function.update_self]
    exact hfits _

end Statements

/-! ## One step -/

section Steps

variable {attempt : Attempt} {row : IngestionJob}

theorem fits_afterService_ok {status : JobStatus} (hrow : row.status = status)
    (hstatus : status = .succeeded ∨ status = .failed) :
    Fits row (afterService attempt (.ok status)) := by
  show Fits row (if status = .failed ∧ maxJobTries ≤ attempt.jobTry then _ else _)
  by_cases hlast : status = .failed ∧ maxJobTries ≤ attempt.jobTry
  · rw [if_pos hlast]
    exact hrow.trans hlast.1
  · rw [if_neg hlast]
    refine ⟨hrow, ?_, ?_⟩
    · rw [hrow]
      rcases hstatus with rfl | rfl <;> decide
    · intro hlate
      rw [hrow]
      rcases hstatus with rfl | rfl
      · exact .inl rfl
      · exact absurd ⟨rfl, hlate⟩ hlast

theorem settled_of_failed (hrow : row.status = .failed) (hearly : attempt.jobTry < maxJobTries) :
    Settled attempt row := by
  constructor
  · rw [hrow]
    decide
  · intro hlate
    omega

theorem fits_finally_error {stage : Stage} {raised : Raised} (hrow : row.status = .failed)
    (hearly : attempt.jobTry < maxJobTries) :
    Fits row (finallyPhase attempt stage (.error raised)) := by
  unfold finallyPhase
  split
  · exact settled_of_failed hrow hearly
  · exact ⟨hrow, hearly⟩

/-- After the failure was recorded. -/
theorem fits_finally {stage : Stage} {exc : Raised} (hrow : row.status = .failed)
    (hexc : exc = .cancelled → attempt.jobTry < maxJobTries) :
    Fits row (finallyPhase attempt stage (recordedResult exc)) := by
  cases exc with
  | exception e =>
    unfold finallyPhase
    split
    · exact fits_afterService_ok hrow (.inr rfl)
    · exact ⟨hrow, .inr rfl⟩
  | cancelled => exact fits_finally_error hrow (hexc rfl)

theorem fits_afterService {result : Except Raised JobStatus} (h : Fits row (.closing attempt result)) :
    Fits row (afterService attempt result) := by
  cases result with
  | error raised => exact settled_of_failed h.1 h.2
  | ok status => exact fits_afterService_ok h.1 h.2

/-- A raise while the client is closed ends the attempt as the row stands. -/
theorem settled_of_closing {result : Except Raised JobStatus} (h : Fits row (.closing attempt result))
    (hforeseen : result = .ok .failed → attempt.jobTry < maxJobTries) : Settled attempt row := by
  cases result with
  | error raised => exact settled_of_failed h.1 h.2
  | ok status =>
    obtain ⟨hrow, rfl | rfl⟩ := h
    · constructor
      · rw [hrow]
        decide
      · exact fun _ => .inl hrow
    · exact settled_of_failed hrow (hforeseen rfl)

theorem advance_inv {s s' : St} {jobId : Uuid} {phase : Phase} {event : Event} (h : Inv s)
    (hphase : s.phase jobId = phase) (hforeseen : ForeseenIn phase event)
    (hstep : advance s jobId phase event = some s') : Inv s' := by
  unfold advance at hstep
  split at hstep <;> cases hstep
  -- while the lock is acquired there is no row
  case h_1 attempt => exact inv_goto h hphase fun _ hfit => hfit
  case h_2 attempt => exact inv_goto h hphase fun _ hfit => hfit.elim
  case h_3 attempt raised => exact inv_goto h hphase fun _ hfit => hfit.elim
  case h_4 attempt => exact inv_insert h hphase fun _ => trivial
  case h_5 attempt raised applied =>
    have happlied : applied = false := hforeseen
    subst happlied
    exact inv_goto h hphase fun _ hfit => hfit.elim
  case h_6 attempt => exact inv_goto h hphase fun _ _ => trivial
  case h_7 attempt raised => exact hforeseen.elim
  -- in the body the row is not looked at
  case h_8 attempt counters => exact inv_goto h hphase fun _ _ => trivial
  case h_9 attempt counters itemsDiscovered => exact inv_goto h hphase fun _ _ => trivial
  case h_10 attempt counters => exact inv_goto h hphase fun _ _ => trivial
  case h_11 attempt counters documentsProcessed chunksEmbedded =>
    exact inv_goto h hphase fun _ _ => trivial
  case h_12 attempt counters => exact inv_update h hphase (fun _ => rfl) fun _ _ => trivial
  case h_13 attempt counters =>
    exact inv_update h hphase (fun _ => rfl) fun _ _ => ⟨rfl, .inl rfl⟩
  case h_14 attempt counters raised =>
    exact inv_update h hphase (fun _ => rfl) fun _ _ => hforeseen
  case h_15 attempt stage counters raised _ => exact inv_goto h hphase fun _ _ => hforeseen
  -- recorded, and then out through the layers
  case h_16 attempt stage counters exc =>
    exact inv_update h hphase (fun _ => rfl) fun _ hfit => fits_finally rfl hfit
  case h_17 attempt stage counters exc raised applied =>
    obtain ⟨rfl, hearly⟩ := hforeseen
    exact inv_update h hphase (fun _ => rfl) fun _ _ => fits_finally_error rfl hearly
  case h_18 attempt result => exact inv_goto h hphase fun _ hfit => fits_afterService hfit
  case h_19 attempt result raised =>
    exact inv_goto h hphase fun _ hfit => settled_of_closing hfit hforeseen
  case h_20 attempt =>
    refine inv_update h hphase (fun _ => rfl) fun _ _ => ⟨rfl, ?_, fun _ => .inr rfl⟩
    intro hrunning
    cases hrunning
  case h_21 attempt raised applied =>
    have happlied : applied = true := hforeseen
    subst happlied
    refine inv_update h hphase (fun _ => rfl) fun _ _ => ⟨?_, fun _ => .inr rfl⟩
    intro hrunning
    cases hrunning
  case h_22 attempt status => exact inv_goto h hphase fun _ hfit => hfit.2
  case h_23 attempt status raised => exact inv_goto h hphase fun _ hfit => hfit.2

theorem step_inv {s s' : St} {label : Label} (h : Inv s) (hforeseen : Foreseen s label)
    (hstep : step s label = some s') : Inv s' := by
  cases label with
  | starts jobId attempt =>
    dsimp only [step] at hstep
    by_cases hwaiting : s.phase jobId = .waiting
    · rw [if_pos hwaiting] at hstep
      obtain rfl := Option.some.inj hstep
      split
      · exact inv_goto h hwaiting fun _ hfit => hfit
      · exact inv_goto h hwaiting fun _ hfit => hfit
    · rw [if_neg hwaiting] at hstep
      cases hstep
  | goesOn jobId event => exact advance_inv h rfl hforeseen hstep

end Steps

/-! ## Whole runs -/

theorem inv_of_run {s : St} (hrun : Run step Foreseen St.start s) : Inv s :=
  hrun.invariant (fun _ _ _ h hforeseen hstep => step_inv h hforeseen hstep) inv_start

/-- Every exhausted sync succeeded, or can be replayed. -/
theorem exhausted_replayable {s : St} (hrun : Run step Foreseen St.start s) :
    AllSettled s ∧ ∀ row ∈ s.jobs, ∀ attempt outcome, s.phase row.id = .ended attempt outcome →
      maxJobTries ≤ attempt.jobTry → row.status ≠ .succeeded →
        ∃ run, getReplayableIngestionRun s row.organizationId row.connectorConfigId row.id =
          .ok run := by
  have hinv := inv_of_run hrun
  have hsettled : AllSettled s := by
    intro row hrow attempt outcome hended
    have hfits := hinv.fits row hrow
    rw [hended] at hfits
    exact hfits
  refine ⟨hsettled, fun row hrow attempt outcome hended hlast hnot => ?_⟩
  have hdead : row.status = .deadLettered :=
    ((hsettled row hrow attempt outcome hended).replayable hlast).resolve_left hnot
  unfold getReplayableIngestionRun
  cases hfound : s.jobs.find? fun other => other.id = row.id ∧
      other.organizationId = row.organizationId ∧
      other.connectorConfigId = row.connectorConfigId with
  | none =>
    have hnone := List.find?_eq_none.mp hfound row hrow
    simp at hnone
  | some other =>
    have hkey := List.find?_some hfound
    simp only [decide_eq_true_eq] at hkey
    obtain rfl := Table.keyUnique_of_nodup hinv.ids other (List.mem_of_find?_eq_some hfound) row
      hrow hkey.1
    exact ⟨other, if_neg fun hother => hother hdead⟩

/-! ## Attempts that are not provided for -/

def lastAttempt : Attempt := { jobTry := 3, organizationId := 1, connectorConfigId := 2 }

/-- The task is started, gets the lock and commits its row. -/
def untilRunning : List Label :=
  [.starts 7 lastAttempt, .goesOn 7 .returned, .goesOn 7 .returned]

/-- It authenticates, and the fetch raises; the failure is recorded. -/
def untilRecorded : List Label :=
  untilRunning ++ [.goesOn 7 .returned, .goesOn 7 .returned,
    .goesOn 7 (.fails (.exception (.runtimeError "fetch")) false), .goesOn 7 .returned]

theorem exhausted_replayable_failed :
    ∃ s, Run step Foreseen St.start s ∧ (∃ row ∈ s.jobs, row.status = .deadLettered) ∧
      AllSettled s := by
  have hexec : ((execWithin step Foreseen St.start (untilRecorded ++
      [.goesOn 7 .returned, .goesOn 7 .returned, .goesOn 7 .returned])).any fun s =>
        decide (∃ row ∈ s.jobs, row.status = .deadLettered)) = true := by
    decide
  obtain ⟨s, hrun, hdead⟩ := exists_of_execWithin hexec
  exact ⟨s, hrun, hdead, (exhausted_replayable hrun).1⟩

/-- A cancellation in the page loop leaves the row of the last attempt failed,
and so does a client that cannot be closed; a cancellation between the commit of
the running row and the `try` leaves it running. -/
theorem cancelled_not_replayable :
    (∃ s, exec step St.start (untilRunning ++ [.goesOn 7 .returned, .goesOn 7 .returned,
        .goesOn 7 (.fails .cancelled false), .goesOn 7 .returned, .goesOn 7 .returned]) = some s ∧
      s.phase 7 = .ended lastAttempt .propagated ∧ s.jobs.map IngestionJob.status = [.failed]) ∧
    (∃ s, exec step St.start (untilRecorded ++
        [.goesOn 7 (.fails (.exception (.runtimeError "close")) false)]) = some s ∧
      s.phase 7 = .ended lastAttempt .exhausted ∧ s.jobs.map IngestionJob.status = [.failed]) ∧
    ∃ s, exec step St.start (untilRunning ++ [.goesOn 7 (.fails .cancelled false)]) = some s ∧
      s.phase 7 = .ended lastAttempt .propagated ∧ s.jobs.map IngestionJob.status = [.running] := by
  refine ⟨?_, ?_, ?_⟩
  · apply exists_of_exec
    decide
  · apply exists_of_exec
    decide
  · apply exists_of_exec
    decide

end Ekip.Ingestion.Workers
