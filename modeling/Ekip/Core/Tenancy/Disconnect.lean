import Ekip.Lib.Run
import Ekip.Lib.ReadCommitted
import Ekip.Core.Tenancy.Connectors

/-!
# A sync in flight and `disconnect_connector`: `core/tenancy/service.py`

A session keeps the instance of the row that it has loaded. `session.get` returns
that instance as it is, an update writes the attributes that were changed in the
session, and `refresh` reads the row again; a commit keeps the instance, and a
rollback expires it. The job reads the row at its start, saves a checkpoint after
each page, and in the end reports its success or its failure; it may raise at any
step. The user's session reads, updates and commits.
-/
namespace Ekip.Core.Tenancy.Disconnect

open Ekip.Lib Ekip.Database

variable {υ τ γ : Type}

abbrev Row (υ τ γ : Type) := ConnectorConfig υ τ γ

/-! ## What a session writes -/

section Attributes

variable [DecidableEq υ] [DecidableEq τ] [DecidableEq γ]

/-- An attribute whose value has changed since the instance was loaded. -/
def changed {α : Type} [DecidableEq α] (loaded new stored : α) : α :=
  if new = loaded then stored else new

/-- `UPDATE` sets the changed attributes, whatever the row holds by now. -/
def updated (loaded new stored : Row υ τ γ) : Row υ τ γ where
  source := stored.source
  status := changed loaded.status new.status stored.status
  lastSyncedAt := changed loaded.lastSyncedAt new.lastSyncedAt stored.lastSyncedAt
  config := changed loaded.config new.config stored.config

end Attributes

/-! ## The parties -/

inductive Party
  | worker
  | user
deriving DecidableEq

inductive JobPhase (υ τ γ : Type)
  | starting
  | syncing
  /-- Attributes of the instance are set and not yet flushed; `last` says that this
  is a report and not a checkpoint. -/
  | setting (loaded new : Row υ τ γ) (last : Bool)
  | flushed (last : Bool)
  | failing
  | ended

inductive UserPhase (υ τ γ : Type)
  | idle
  | setting (loaded new : Row υ τ γ)
  | flushed
  | done

structure St (υ τ γ : Type) where
  row : LockedRow Party (Row υ τ γ)
  /-- The instance in the session of the job, unless it is expired. -/
  identityMap : Option (Row υ τ γ) := none
  job : JobPhase υ τ γ := .starting
  user : UserPhase υ τ γ := .idle
  /-- The connector has been committed as disconnected. -/
  disconnected : Bool

def St.initial (row : Row υ τ γ) : St υ τ γ where
  row := { committed := row }
  disconnected := row.status = .disconnected

inductive Label (τ γ : Type)
  | jobRead
  /-- A dropped connection is recovered from while an item is processed. -/
  | jobRecovered
  | jobCheckpointed (checkpoint : γ)
  | jobSucceeded (completedAt : Instant) (latestResumeToken : Option τ)
  | jobFlushed
  /-- `answered` says whether the job learns that the commit has taken effect. -/
  | jobCommitted (answered : Bool)
  | jobRaised
  | jobFailed (latestResumeToken : Option τ)
  /-- It gives up, or its process dies. -/
  | jobEnded
  | userRead
  | userFlushed
  | userCommitted
  | userRolledBack

namespace St

variable (s : St υ τ γ)

/-- `session.get` in the session of the job. -/
def get : Row υ τ γ := s.identityMap.getD (s.row.view .worker)

/-- The attributes are set, unless the instance says `disconnected`; then nothing is
flushed before the commit. -/
def set (change : Row υ τ γ → Row υ τ γ) (last : Bool) : St υ τ γ :=
  if s.get.status = .disconnected then { s with identityMap := some s.get, job := .flushed last }
  else { s with identityMap := some s.get, job := .setting s.get (change s.get) last }

def raise (job : JobPhase υ τ γ) : St υ τ γ :=
  { s with row := s.row.rollback .worker, identityMap := none, job }

variable [DecidableEq υ] [DecidableEq τ] [DecidableEq γ]

/-- `session.flush` of one party. -/
def flush (party : Party) (loaded new : Row υ τ γ) : LockedRow Party (Row υ τ γ) :=
  if new = loaded then s.row else s.row.write party (updated loaded new (s.row.view party))

end St

def checkpointPatch (checkpoint : γ) : ConfigPatch τ γ :=
  { ingestionCheckpoint := some (some checkpoint) }

def completionPatch (latestResumeToken : Option τ) : ConfigPatch τ γ :=
  { ingestionCheckpoint := some none, resumeToken := latestResumeToken }

def failurePatch (latestResumeToken : Option τ) : Option (ConfigPatch τ γ) :=
  latestResumeToken.map fun token => { resumeToken := some token }

def step [DecidableEq υ] [DecidableEq τ] [DecidableEq γ] (s : St υ τ γ) : Label τ γ → Option (St υ τ γ)
  | .jobRead =>
    match s.job with
    | .starting => some { s with
        identityMap := some s.get
        job := if s.get.status = .disconnected then .ended else .syncing }
    | _ => none
  | .jobRecovered =>
    match s.job with
    | .syncing => some (s.raise .syncing)
    | _ => none
  | .jobCheckpointed checkpoint =>
    match s.job with
    | .syncing => some (s.set
        (fun row => row.patchConnectorConfigIngestionCheckpoint (checkpointPatch checkpoint)) false)
    | _ => none
  | .jobSucceeded completedAt latestResumeToken =>
    match s.job with
    | .syncing => some (s.set
        (fun row => row.updateConnectorConfigSyncStatus .active (some completedAt)
          (some (completionPatch latestResumeToken))) true)
    | _ => none
  | .jobFlushed =>
    match s.job with
    | .setting loaded new last =>
      -- an unchanged instance sends nothing, and waits for no lock
      if new = loaded ∨ s.row.free .worker = true then
        -- the instance is refreshed while a lock that was taken is held
        some { s with
          row := s.flush .worker loaded new
          identityMap := some ((s.flush .worker loaded new).view .worker)
          job := .flushed last }
      else none
    | _ => none
  | .jobCommitted answered =>
    match s.job with
    | .flushed last =>
      let committed := { s with row := s.row.commit .worker }
      some (if answered then { committed with job := if last then .ended else .syncing }
        else committed.raise .failing)
    | _ => none
  | .jobRaised =>
    match s.job with
    | .starting | .ended => none
    | .syncing | .setting _ _ _ | .flushed _ | .failing => some (s.raise .failing)
  | .jobFailed latestResumeToken =>
    match s.job with
    | .failing => some (s.set
        (fun row => row.updateConnectorConfigSyncStatus .error none (failurePatch latestResumeToken))
        true)
    | _ => none
  | .jobEnded => some (s.raise .ended)
  | .userRead =>
    match s.user with
    | .idle => some { s with
        user := .setting (s.row.view .user)
          ((s.row.view .user).updateConnectorConfigSyncStatus .disconnected none none) }
    | _ => none
  | .userFlushed =>
    match s.user with
    | .setting loaded new =>
      if new = loaded ∨ s.row.free .user = true then
        some { s with row := s.flush .user loaded new, user := .flushed }
      else none
    | _ => none
  | .userCommitted =>
    match s.user with
    | .flushed => some { s with
        row := s.row.commit .user, user := .done, disconnected := true }
    | _ => none
  | .userRolledBack =>
    match s.user with
    | .setting _ _ | .flushed => some { s with row := s.row.rollback .user, user := .idle }
    | _ => none

/-! ## Stale reports -/

/-- Once the connector is disconnected, an update of the job leaves the status out:
the attribute has the value with which the instance was loaded. -/
def StatusKept (s : St υ τ γ) : Label τ γ → Prop
  | .jobFlushed =>
    match s.job with
    | .setting loaded new _ => s.disconnected = true → new.status = loaded.status
    | _ => True
  | _ => True

/-! ## The invariant -/

structure Inv (s : St υ τ γ) : Prop where
  committed : s.row.committed.status = .disconnected ↔ s.disconnected = true
  worker : ∀ row, s.row.pending = some (.worker, row) →
    (∃ last, s.job = .flushed last) ∧ (row.status = .disconnected ↔ s.disconnected = true)
  user : ∀ row, s.row.pending = some (.user, row) → s.user = .flushed ∧ row.status = .disconnected
  identityMap : ∀ row ∈ s.identityMap, row.status = .disconnected → s.disconnected = true
  jobSetting : ∀ loaded new last, s.job = .setting loaded new last →
    loaded.status ≠ .disconnected ∧ new.status ≠ .disconnected
  userSetting : ∀ loaded new, s.user = .setting loaded new →
    new.status = .disconnected ∧ (loaded.status = .disconnected → s.disconnected = true)
  userFlushed : s.user = .flushed →
    s.disconnected = true ∨ ∃ row, s.row.pending = some (.user, row)

variable {s s' : St υ τ γ} {a : Label τ γ}

theorem inv_initial (row : Row υ τ γ) : Inv (St.initial row) where
  committed := decide_eq_true_iff.symm
  worker := fun _ h => by cases h
  user := fun _ h => by cases h
  identityMap := fun _ h => by cases h
  jobSetting := fun _ _ _ h => by cases h
  userSetting := fun _ _ h => by cases h
  userFlushed := fun h => by cases h

namespace Inv

variable (h : Inv s)
include h

theorem view_worker : (s.row.view .worker).status = .disconnected ↔ s.disconnected = true := by
  by_cases himage : ∃ row, s.row.pending = some (.worker, row)
  · obtain ⟨row, hrow⟩ := himage
    rw [LockedRow.view_of_image hrow]
    exact (h.worker row hrow).2
  · rw [LockedRow.view_of_no_image (not_exists.mp himage)]
    exact h.committed

theorem get_disconnected (hget : s.get.status = .disconnected) : s.disconnected = true := by
  unfold St.get at hget
  cases hmap : s.identityMap with
  | none =>
    rw [hmap] at hget
    exact h.view_worker.mp hget
  | some row =>
    rw [hmap] at hget
    exact h.identityMap row hmap hget

/-- The job has read the row, or expired it. -/
theorem of_job {identityMap : Option (Row υ τ γ)} {job : JobPhase υ τ γ}
    (hworker : ∀ row, s.row.pending ≠ some (.worker, row))
    (hmap : ∀ row ∈ identityMap, row.status = .disconnected → s.disconnected = true)
    (hsetting : ∀ loaded new last, job = .setting loaded new last →
      loaded.status ≠ .disconnected ∧ new.status ≠ .disconnected) :
    Inv { s with identityMap, job } where
  committed := h.committed
  worker := fun row hrow => absurd hrow (hworker row)
  user := h.user
  identityMap := hmap
  jobSetting := hsetting
  userSetting := h.userSetting
  userFlushed := h.userFlushed

theorem set {change : Row υ τ γ → Row υ τ γ} {last : Bool}
    (hworker : ∀ row, s.row.pending ≠ some (.worker, row))
    (hchange : ∀ row, row.status ≠ .disconnected → (change row).status ≠ .disconnected) :
    Inv (s.set change last) := by
  have hmap : ∀ row ∈ some s.get, row.status = .disconnected → s.disconnected = true := by
    intro row hrow hstatus
    obtain rfl := Option.some.inj hrow
    exact h.get_disconnected hstatus
  unfold St.set
  split
  · exact h.of_job hworker hmap fun _ _ _ hjob => by cases hjob
  · rename_i hconnected
    refine h.of_job hworker hmap ?_
    intro loaded new last hjob
    cases hjob
    exact ⟨hconnected, hchange _ hconnected⟩

theorem raise {job : JobPhase υ τ γ}
    (hsetting : ∀ loaded new last, job ≠ .setting loaded new last) : Inv (s.raise job) where
  committed := h.committed
  worker := fun row hrow => absurd rfl (LockedRow.rollback_pending hrow).2
  user := fun row hrow => h.user row (LockedRow.rollback_pending hrow).1
  identityMap := fun _ hrow => by cases hrow
  jobSetting := fun loaded new last hjob => absurd hjob (hsetting loaded new last)
  userSetting := h.userSetting
  userFlushed := by
    intro hflushed
    rcases h.userFlushed hflushed with hdone | ⟨row, hrow⟩
    · exact .inl hdone
    · exact .inr ⟨row, LockedRow.pending_rollback hrow (by decide)⟩

/-- The changes of the job are committed. -/
theorem commit_worker {job : JobPhase υ τ γ}
    (hsetting : ∀ loaded new last, job ≠ .setting loaded new last) :
    Inv { s with row := s.row.commit .worker, job } where
  committed := h.view_worker
  worker := fun row hrow => absurd rfl (LockedRow.rollback_pending hrow).2
  user := fun row hrow => h.user row (LockedRow.rollback_pending hrow).1
  identityMap := h.identityMap
  jobSetting := fun loaded new last hjob => absurd hjob (hsetting loaded new last)
  userSetting := h.userSetting
  userFlushed := by
    intro hflushed
    rcases h.userFlushed hflushed with hdone | ⟨row, hrow⟩
    · exact .inl hdone
    · exact .inr ⟨row, LockedRow.pending_rollback hrow (by decide)⟩

end Inv

theorem inv_userCommitted (h : Inv s) (huser : s.user = .flushed) :
    Inv { s with row := s.row.commit .user, user := .done, disconnected := true } := by
  have hview : (s.row.view .user).status = .disconnected := by
    by_cases himage : ∃ row, s.row.pending = some (.user, row)
    · obtain ⟨row, hrow⟩ := himage
      rw [LockedRow.view_of_image hrow]
      exact (h.user row hrow).2
    · rw [LockedRow.view_of_no_image (not_exists.mp himage)]
      exact h.committed.mpr ((h.userFlushed huser).resolve_right himage)
  refine ⟨⟨fun _ => rfl, fun _ => hview⟩, ?_, ?_, fun _ _ _ => rfl, h.jobSetting,
    fun _ _ hset => (by cases hset), fun hflushed => (by cases hflushed)⟩
  · intro row hrow
    obtain ⟨hworker, -⟩ := LockedRow.rollback_pending hrow
    obtain ⟨hjob, hstatus⟩ := h.worker row hworker
    refine ⟨hjob, fun _ => rfl, fun _ => hstatus.mpr ?_⟩
    rcases h.userFlushed huser with hdone | ⟨other, hother⟩
    · exact hdone
    · rw [hworker] at hother
      cases hother
  · intro row hrow
    exact absurd rfl (LockedRow.rollback_pending hrow).2

theorem Inv.no_image (h : Inv s) (hjob : ∀ last, s.job ≠ .flushed last) (row : Row υ τ γ) :
    s.row.pending ≠ some (.worker, row) := by
  intro hrow
  obtain ⟨⟨last, hflushed⟩, -⟩ := h.worker row hrow
  exact hjob last hflushed

variable [DecidableEq υ] [DecidableEq τ] [DecidableEq γ]

/-- What the update of the job makes of the status, if it keeps it. -/
theorem updated_status {loaded new stored : Row υ τ γ} (hnew : new.status ≠ .disconnected) {flag : Bool}
    (hkept : flag = true → new.status = loaded.status)
    (hstored : stored.status = .disconnected ↔ flag = true) :
    (updated loaded new stored).status = .disconnected ↔ flag = true := by
  show (if new.status = loaded.status then stored.status else new.status) = _ ↔ _
  split
  · exact hstored
  · rename_i hchanged
    constructor
    · exact fun hstatus => absurd hstatus hnew
    · exact fun hflag => absurd (hkept hflag) hchanged

theorem inv_jobFlushed {loaded new : Row υ τ γ} {last : Bool} (h : Inv s)
    (hjob : s.job = .setting loaded new last) (hfree : new = loaded ∨ s.row.free .worker = true)
    (hkept : s.disconnected = true → new.status = loaded.status) :
    Inv { s with
      row := s.flush .worker loaded new
      identityMap := some ((s.flush .worker loaded new).view .worker)
      job := .flushed last } := by
  have himage : ∀ row, s.row.pending ≠ some (.worker, row) := by
    intro row hrow
    obtain ⟨⟨last, hflushed⟩, -⟩ := h.worker row hrow
    rw [hjob] at hflushed
    cases hflushed
  by_cases hsame : new = loaded
  · rw [show s.flush .worker loaded new = s.row from if_pos hsame]
    refine h.of_job himage ?_ fun _ _ _ hset => by cases hset
    intro row hrow hstatus
    obtain rfl := Option.some.inj hrow
    exact h.view_worker.mp hstatus
  have hnone : s.row.pending = none :=
    LockedRow.pending_of_free (hfree.resolve_left hsame) fun row hrow => absurd hrow (himage row)
  have hcommitted : (s.flush .worker loaded new).committed = s.row.committed := by
    unfold St.flush
    split <;> rfl
  have hpending : ∀ party row, (s.flush .worker loaded new).pending = some (party, row) →
      party = .worker ∧ (row.status = .disconnected ↔ s.disconnected = true) := by
    intro party row hrow
    unfold St.flush at hrow
    split at hrow
    · rw [hnone] at hrow
      cases hrow
    · cases hrow
      exact ⟨rfl, updated_status (h.jobSetting _ _ _ hjob).2 hkept h.view_worker⟩
  constructor
  · show (s.flush .worker loaded new).committed.status = _ ↔ _
    rw [hcommitted]
    exact h.committed
  · intro row hrow
    exact ⟨⟨last, rfl⟩, (hpending .worker row hrow).2⟩
  · intro row hrow
    cases (hpending .user row hrow).1
  · intro row hrow hstatus
    obtain rfl := Option.some.inj hrow
    by_cases himage : ∃ row, (s.flush .worker loaded new).pending = some (.worker, row)
    · obtain ⟨row, hrow⟩ := himage
      rw [LockedRow.view_of_image hrow] at hstatus
      exact (hpending .worker row hrow).2.mp hstatus
    · rw [LockedRow.view_of_no_image (not_exists.mp himage), hcommitted] at hstatus
      exact h.committed.mp hstatus
  · intro _ _ _ hset
    cases hset
  · exact h.userSetting
  · intro hflushed
    rcases h.userFlushed hflushed with hdone | ⟨row, hrow⟩
    · exact .inl hdone
    · rw [hnone] at hrow
      cases hrow

theorem inv_userFlushed {loaded new : Row υ τ γ} (h : Inv s) (huser : s.user = .setting loaded new) :
    Inv { s with row := s.flush .user loaded new, user := .flushed } := by
  obtain ⟨hnew, hloaded⟩ := h.userSetting loaded new huser
  have himage : ∀ row, s.row.pending ≠ some (.user, row) := by
    intro row hrow
    obtain ⟨hflushed, -⟩ := h.user row hrow
    rw [huser] at hflushed
    cases hflushed
  unfold St.flush
  split
  · rename_i hsame
    refine ⟨h.committed, h.worker, ?_, h.identityMap, h.jobSetting, fun _ _ hset => (by cases hset), ?_⟩
    · exact fun row hrow => absurd hrow (himage row)
    · intro _
      exact .inl (hloaded (hsame ▸ hnew))
  · refine ⟨h.committed, fun _ hrow => (by cases hrow), ?_, h.identityMap, h.jobSetting,
      fun _ _ hset => (by cases hset), fun _ => .inr ⟨_, rfl⟩⟩
    intro row hrow
    cases hrow
    refine ⟨rfl, ?_⟩
    show (if new.status = loaded.status then (s.row.view .user).status else new.status) = _
    split
    · rename_i hsame
      rw [LockedRow.view_of_no_image himage]
      exact h.committed.mpr (hloaded (hsame ▸ hnew))
    · exact hnew

theorem inv_step (h : Inv s) (hkept : StatusKept s a) (hstep : step s a = some s') : Inv s' := by
  cases a with
  | jobRead =>
    simp only [step] at hstep
    split at hstep
    · rename_i hjob
      cases hstep
      have hmap : ∀ row ∈ some s.get, row.status = .disconnected → s.disconnected = true := by
        intro row hrow hstatus
        obtain rfl := Option.some.inj hrow
        exact h.get_disconnected hstatus
      refine h.of_job (h.no_image (by simp [hjob])) hmap ?_
      intro loaded new last hset
      split at hset <;> cases hset
    · cases hstep
  | jobRecovered =>
    simp only [step] at hstep
    split at hstep
    · cases hstep
      exact h.raise fun _ _ _ hset => by cases hset
    · cases hstep
  | jobCheckpointed checkpoint =>
    simp only [step] at hstep
    split at hstep
    · rename_i hjob
      cases hstep
      refine h.set (h.no_image (by simp [hjob])) ?_
      intro row hrow
      rw [ConnectorConfig.patchConnectorConfigIngestionCheckpoint_of_connected hrow]
      exact hrow
    · cases hstep
  | jobSucceeded completedAt latest =>
    simp only [step] at hstep
    split at hstep
    · rename_i hjob
      cases hstep
      refine h.set (h.no_image (by simp [hjob])) ?_
      intro row hrow
      rw [ConnectorConfig.updateConnectorConfigSyncStatus_of_connected hrow]
      exact fun hactive => by cases hactive
    · cases hstep
  | jobFlushed =>
    simp only [step] at hstep
    split at hstep
    · rename_i loaded new last hjob
      split at hstep
      · rename_i hfree
        cases hstep
        simp only [StatusKept, hjob] at hkept
        exact inv_jobFlushed h hjob hfree hkept
      · cases hstep
    · cases hstep
  | jobCommitted answered =>
    simp only [step] at hstep
    split at hstep
    · rename_i last hjob
      cases hstep
      cases answered with
      | true =>
        refine h.commit_worker ?_
        intro loaded new last hset
        split at hset <;> cases hset
      | false =>
        have hcommitted : Inv { s with row := s.row.commit .worker, job := .failing } :=
          h.commit_worker fun _ _ _ hset => by cases hset
        exact hcommitted.raise fun _ _ _ hset => by cases hset
    · cases hstep
  | jobRaised =>
    have hraise : Inv (s.raise .failing) := h.raise fun _ _ _ hset => by cases hset
    simp only [step] at hstep
    split at hstep
    · cases hstep
    · cases hstep
    · cases hstep
      exact hraise
    · cases hstep
      exact hraise
    · cases hstep
      exact hraise
    · cases hstep
      exact hraise
  | jobFailed latest =>
    simp only [step] at hstep
    split at hstep
    · rename_i hjob
      cases hstep
      refine h.set (h.no_image (by simp [hjob])) ?_
      intro row hrow
      rw [ConnectorConfig.updateConnectorConfigSyncStatus_of_connected hrow]
      exact fun herror => by cases herror
    · cases hstep
  | jobEnded =>
    cases hstep
    exact h.raise fun _ _ _ hset => by cases hset
  | userRead =>
    simp only [step] at hstep
    split at hstep
    · rename_i huser
      cases hstep
      refine ⟨h.committed, h.worker, ?_, h.identityMap, h.jobSetting, ?_, fun hset => by cases hset⟩
      · intro row hrow
        obtain ⟨hflushed, -⟩ := h.user row hrow
        rw [huser] at hflushed
        cases hflushed
      · intro loaded new hset
        cases hset
        constructor
        · unfold ConnectorConfig.updateConnectorConfigSyncStatus
          rw [if_neg (by simp)]
        · intro hstatus
          rw [LockedRow.view_of_no_image] at hstatus
          · exact h.committed.mp hstatus
          · intro row hrow
            obtain ⟨hflushed, -⟩ := h.user row hrow
            rw [huser] at hflushed
            cases hflushed
    · cases hstep
  | userFlushed =>
    simp only [step] at hstep
    split at hstep
    · rename_i loaded new huser
      split at hstep
      · cases hstep
        exact inv_userFlushed h huser
      · cases hstep
    · cases hstep
  | userCommitted =>
    simp only [step] at hstep
    split at hstep
    · rename_i huser
      cases hstep
      exact inv_userCommitted h huser
    · cases hstep
  | userRolledBack =>
    have hrolledBack : Inv { s with row := s.row.rollback .user, user := .idle } := by
      refine ⟨h.committed, ?_, ?_, h.identityMap, h.jobSetting, fun _ _ hset => (by cases hset),
        fun hset => (by cases hset)⟩
      · exact fun row hrow => h.worker row (LockedRow.rollback_pending hrow).1
      · exact fun row hrow => absurd rfl (LockedRow.rollback_pending hrow).2
    simp only [step] at hstep
    split at hstep
    · cases hstep
      exact hrolledBack
    · cases hstep
      exact hrolledBack
    · cases hstep

theorem inv_of_run {row : Row υ τ γ} (h : Run step StatusKept (St.initial row) s) : Inv s :=
  h.invariant (I := Inv) (fun _ _ _ hI hok hstep => inv_step hI hok hstep) (inv_initial row)

/-! ## Disconnecting is final -/

/-- As long as no report of the job writes the status from an instance that it loaded
before the disconnect was committed, the stored status stays `disconnected`. -/
theorem disconnect_final {row : Row υ τ γ} (h : Run step StatusKept (St.initial row) s)
    (hdisconnected : s.disconnected = true) : s.row.committed.status = .disconnected :=
  (inv_of_run h).committed.mpr hdisconnected

/-- A report that does, and whose changes are committed, revives the connector. -/
theorem disconnected_iff_kept {row : Row υ τ γ} {loaded new : Row υ τ γ} {last answered : Bool}
    {s₁ s₂ : St υ τ γ} (h : Run step StatusKept (St.initial row) s)
    (hdisconnected : s.disconnected = true) (hjob : s.job = .setting loaded new last)
    (hflush : step s .jobFlushed = some s₁) (hcommit : step s₁ (.jobCommitted answered) = some s₂) :
    s₂.row.committed.status = .disconnected ↔ new.status = loaded.status := by
  have hinv := inv_of_run h
  obtain ⟨hloaded, hnew⟩ := hinv.jobSetting loaded new last hjob
  have hview := hinv.view_worker.mpr hdisconnected
  have hrow : s₂.row.committed = (s.flush .worker loaded new).view .worker := by
    simp only [step, hjob] at hflush
    split at hflush
    · cases hflush
      simp only [step] at hcommit
      cases hcommit
      cases answered <;> rfl
    · cases hflush
  rw [hrow]
  unfold St.flush
  split
  · rename_i hsame
    exact ⟨fun _ => by rw [hsame], fun _ => hview⟩
  · rw [LockedRow.view_write]
    show (if new.status = loaded.status then (s.row.view .worker).status else new.status) = _ ↔ _
    split
    · rename_i hsame
      exact ⟨fun _ => hsame, fun _ => hview⟩
    · rename_i hchanged
      exact ⟨fun hstatus => absurd hstatus hnew, fun hsame => absurd hsame hchanged⟩

/-! ## A connector that is deleted during a sync -/

section Example

instance (s : St υ τ γ) : ∀ a : Label τ γ, Decidable (StatusKept s a)
  | .jobFlushed =>
    match h : s.job with
    | .setting loaded new _ =>
      decidable_of_iff (s.disconnected = true → new.status = loaded.status)
        (by simp only [StatusKept, h])
    | .starting | .syncing | .flushed _ | .failing | .ended =>
      isTrue (by simp only [StatusKept, h])
  | .jobRead | .jobRecovered | .jobCheckpointed _ | .jobSucceeded _ _ | .jobCommitted _ | .jobRaised
  | .jobFailed _ | .jobEnded | .userRead | .userFlushed | .userCommitted | .userRolledBack =>
    isTrue trivial

def repositories (status : ConnectorStatus) : Row String String String where
  source := "github"
  status := status
  config := { operator := "acme/checkout" }

/-- The connector is disconnected while the job is syncing. -/
def deletedSync : List (Label String String) :=
  [.jobRead, .userRead, .userFlushed, .userCommitted, .jobSucceeded 5 none, .jobFlushed,
    .jobCommitted true]

theorem disconnect_final_active : ∃ s : St String String String,
    s.disconnected = true ∧ s.row.committed.lastSyncedAt = some 5 ∧
      s.row.committed.status = .disconnected := by
  have hreplay : (execWithin step StatusKept (St.initial (repositories .active)) deletedSync).any
      (fun s => decide (s.disconnected = true ∧ s.row.committed.lastSyncedAt = some 5)) = true := by
    decide +kernel
  obtain ⟨s, hrun, hdisconnected, hsynced⟩ := exists_of_execWithin hreplay
  exact ⟨s, hdisconnected, hsynced, disconnect_final hrun hdisconnected⟩

/-- The first sync of a connector reports that it is active. -/
theorem disconnect_revived : ∃ s : St String String String,
    Run step anyStep (St.initial (repositories .connecting)) s ∧ s.disconnected = true ∧
      s.row.committed.status = .active := by
  have hreplay : (exec step (St.initial (repositories .connecting)) deletedSync).any
      (fun s => decide (s.disconnected = true ∧ s.row.committed.status = .active)) = true := by
    decide +kernel
  obtain ⟨s, hexec, hrevived⟩ := exists_of_exec hreplay
  exact ⟨s, run_of_exec hexec, hrevived⟩

end Example

end Ekip.Core.Tenancy.Disconnect
