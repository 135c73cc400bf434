import Ekip.Lib.Run
import Ekip.Lib.ReadCommitted
import Ekip.Core.Incidents.Postmortems

/-!
# Concurrent edits and approvals of one postmortem

`update_postmortem` and `approve_postmortem`, statement by statement. A request reads
the row, checks the status on what it has read, and sends an `UPDATE` of the columns
that it has changed, whatever the row holds by then.
-/
namespace Ekip.Core.Incidents.PostmortemRace

open Ekip.Lib Ekip.Database Ekip.Shared Ekip.Core

/-! ## Requests -/

/-- A patch moves between these two only. -/
inductive EditableStatus
  | draft
  | inReview
deriving DecidableEq

def EditableStatus.toStatus : EditableStatus → PostmortemStatus
  | draft => .draft
  | inReview => .inReview

/-- A field that the request leaves out is unset; one that it names may be `null`. -/
structure PostmortemUpdate where
  rootCause : Option (Option String) := none
  actionItems : Option (Option (List ActionItem)) := none
  status : Option (Option EditableStatus) := none

inductive Request
  | updatePostmortem (patch : PostmortemUpdate)
  | approvePostmortem

structure Call where
  actor : Identity
  organizationId : Uuid
  request : Request

def postmortemWritePermission : String := "postmortem:write"

def Request.permission : Request → String
  | updatePostmortem _ => postmortemWritePermission
  | approvePostmortem => postmortemApprovePermission

/-- The instance after `setattr`. A status of `null` violates a constraint, and action
items of `null` do not fit the answer: both raise. -/
def patched (existing : PostmortemRow) (patch : PostmortemUpdate) : Option PostmortemRow :=
  if patch.status = some none ∨ patch.actionItems = some none then none
  else some
    { existing with
      rootCause := patch.rootCause.getD existing.rootCause
      actionItems := patch.actionItems.join.getD existing.actionItems
      status := (patch.status.join.map EditableStatus.toStatus).getD existing.status }

def assigned (call : Call) (existing : PostmortemRow) : Option PostmortemRow :=
  match call.request with
  | .updatePostmortem patch => patched existing patch
  | .approvePostmortem => some { existing with status := .approved, reviewedBy := call.actor.userId }

/-- The reviewer of an approval. -/
def Call.reviewer (call : Call) : Option Uuid :=
  match call.request with
  | .updatePostmortem _ => none
  | .approvePostmortem => call.actor.userId

/-- A column is set where the instance has another value than it was loaded with. -/
def column {α : Type} [DecidableEq α] (loaded new stored : α) : α :=
  if new = loaded then stored else new

/-- The row that an `UPDATE` makes of the stored one. -/
def updated (now : Instant) (loaded new stored : PostmortemRow) : PostmortemRow :=
  { stored with
    status := column loaded.status new.status stored.status
    rootCause := column loaded.rootCause new.rootCause stored.rootCause
    actionItems := column loaded.actionItems new.actionItems stored.actionItems
    reviewedBy := column loaded.reviewedBy new.reviewedBy stored.reviewedBy
    updatedAt := now }

/-! ## Sessions -/

inductive Phase
  | idle
  | started (call : Call)
  | loaded (call : Call) (existing : PostmortemRow)
  | checked (call : Call) (existing : PostmortemRow)
  /-- Everything is sent, and not yet committed. -/
  | flushed (reviewer : Option Uuid)
  | done

structure St (τ : Type) where
  row : LockedRow τ PostmortemRow
  phase : τ → Phase := fun _ => .idle
  /-- The reviewers whose approvals are committed, the oldest first. -/
  approvals : List Uuid := []

inductive Label (τ : Type)
  | start (t : τ) (call : Call)
  | read (t : τ)
  /-- `incident` is what the session reads of the postmortem's incident. -/
  | check (t : τ) (incident : Option IncidentRow)
  | write (t : τ) (now : Instant)
  | commit (t : τ)
  /-- Whatever raises, or ends the process. -/
  | abort (t : τ)

variable {τ : Type} [DecidableEq τ]

namespace St

variable (s : St τ) (t : τ)

def goto (phase : Phase) : St τ := { s with phase := Function.update s.phase t phase }

/-- The session is rolled back. -/
def fail : St τ := { s.goto t .done with row := s.row.rollback t }

def flush (reviewer : Option Uuid) (image : PostmortemRow) : St τ :=
  { s.goto t (.flushed reviewer) with row := s.row.write t image }

def commit (reviewer : Option Uuid) : St τ :=
  { s.goto t .done with row := s.row.commit t, approvals := s.approvals ++ reviewer.toList }

end St

def Request.needsUser : Request → Bool
  | updatePostmortem _ => false
  | approvePostmortem => true

/-- The actor's own organization, and a user where the request approves. -/
def mayStart (call : Call) : Bool :=
  decide (call.actor.organizationId = call.organizationId) &&
    (!call.request.needsUser || call.actor.userId.isSome)

def mayWrite (call : Call) (existing : PostmortemRow) (incident : Option IncidentRow) : Bool :=
  reviewable existing && Users.authorize call.actor call.request.permission
    (incident.map fun row => row.projectId)

def step (s : St τ) : Label τ → Option (St τ)
  | .start t call =>
    match s.phase t with
    | .idle => some (if mayStart call then s.goto t (.started call) else s.fail t)
    | _ => none
  | .read t =>
    match s.phase t with
    | .started call =>
      if (s.row.view t).organizationId = call.organizationId then
        some (s.goto t (.loaded call (s.row.view t)))
      else some (s.fail t)
    | _ => none
  | .check t incident =>
    match s.phase t with
    | .loaded call existing =>
      some (if mayWrite call existing incident then s.goto t (.checked call existing)
        else s.fail t)
    | _ => none
  | .write t now =>
    match s.phase t with
    | .checked call existing =>
      match assigned call existing with
      | none => some (s.fail t)
      | some new =>
        if new = existing then some (s.goto t (.flushed call.reviewer))
        else if s.row.free t then
          some (s.flush t call.reviewer (updated now existing new (s.row.view t)))
        else none
    | _ => none
  | .commit t =>
    match s.phase t with
    | .flushed reviewer => some (s.commit t reviewer)
    | _ => none
  | .abort t => some (s.fail t)

/-- What the request has checked is still so when its update is sent. -/
def CheckHolds (s : St τ) : Label τ → Prop
  | .write _ _ => reviewable s.row.committed = true
  | _ => True

/-! ## The invariant -/

/-- What the session keeps of the row has the first reviewer, if it was not reviewed. -/
def PhaseOk (first : Option Uuid) : Phase → Prop
  | .idle | .flushed _ | .done => True
  | .started call => mayStart call = true
  | .loaded call existing =>
    mayStart call = true ∧ (reviewable existing = true → existing.reviewedBy = first)
  | .checked call existing =>
    mayStart call = true ∧ reviewable existing = true ∧ existing.reviewedBy = first

/-- The image of an approval names its reviewer; that of an edit leaves the reviewer. -/
def ImageOk (first reviewer : Option Uuid) (image : PostmortemRow) : Prop :=
  match reviewer with
  | none => image.reviewedBy = first
  | some u => image.status = .approved ∧ image.reviewedBy = some u

structure Inv (first : Option Uuid) (s : St τ) : Prop where
  unapproved : s.approvals = [] → s.row.committed.reviewedBy = first
  approved : s.approvals ≠ [] → ∃ u, s.approvals = [u] ∧ s.row.committed.status = .approved ∧
    s.row.committed.reviewedBy = some u
  phase : ∀ t, PhaseOk first (s.phase t)
  image : ∀ t image, s.row.pending = some (t, image) → reviewable s.row.committed = true ∧
    ∃ reviewer, s.phase t = .flushed reviewer ∧ ImageOk first reviewer image
  flushed : ∀ t u, s.phase t = .flushed (some u) → ∃ image, s.row.pending = some (t, image)

variable {first : Option Uuid} {s s' : St τ} {t : τ} {a : Label τ}

theorem not_reviewable_of_approved {row : PostmortemRow} (h : row.status = .approved) :
    reviewable row = false := by
  unfold reviewable
  rw [h]
  rfl

omit [DecidableEq τ] in
theorem inv_initial (row : PostmortemRow) : Inv row.reviewedBy ({ row := { committed := row } } : St τ) where
  unapproved := fun _ => rfl
  approved := fun h => absurd rfl h
  phase := fun _ => trivial
  image := fun _ _ h => by cases h
  flushed := fun _ _ h => by cases h

namespace Inv

variable (h : Inv first s)
include h

omit [DecidableEq τ] in
theorem approvals_of_reviewable (hreviewable : reviewable s.row.committed = true) :
    s.approvals = [] := by
  by_contra hne
  obtain ⟨u, -, hstatus, -⟩ := h.approved hne
  rw [not_reviewable_of_approved hstatus] at hreviewable
  cases hreviewable

omit [DecidableEq τ] in
/-- A session that has not sent its update holds no lock. -/
theorem no_image (hphase : ∀ reviewer, s.phase t ≠ .flushed reviewer) (image : PostmortemRow) :
    s.row.pending ≠ some (t, image) := by
  intro hpending
  obtain ⟨-, reviewer, hflushed, -⟩ := h.image t image hpending
  exact hphase reviewer hflushed

theorem view_eq (hphase : ∀ reviewer, s.phase t ≠ .flushed reviewer) :
    s.row.view t = s.row.committed :=
  LockedRow.view_of_no_image (h.no_image hphase)

theorem goto {p : Phase} (hphase : ∀ reviewer, s.phase t ≠ .flushed reviewer)
    (hp : PhaseOk first p) (hreviewer : ∀ u, p ≠ .flushed (some u)) : Inv first (s.goto t p) where
  unapproved := h.unapproved
  approved := h.approved
  phase := forall_update hp h.phase
  image t' image hpending := by
    have hne : t' ≠ t := by
      rintro rfl
      exact h.no_image hphase image hpending
    obtain ⟨hreviewable, reviewer, hflushed, himage⟩ := h.image t' image hpending
    exact ⟨hreviewable, reviewer, (Function.update_of_ne hne ..).trans hflushed, himage⟩
  flushed t' u hflushed := by
    rcases of_update (P := fun q : Phase => q = .flushed (some u)) hflushed with ⟨-, hp⟩ | ⟨-, hold⟩
    · exact absurd hp (hreviewer u)
    · exact h.flushed t' u hold

theorem fail : Inv first (s.fail t) where
  unapproved := h.unapproved
  approved := h.approved
  phase := forall_update trivial h.phase
  image t' image hpending := by
    obtain ⟨hbefore, hne⟩ := LockedRow.rollback_pending hpending
    obtain ⟨hreviewable, reviewer, hflushed, himage⟩ := h.image t' image hbefore
    exact ⟨hreviewable, reviewer, (Function.update_of_ne hne ..).trans hflushed, himage⟩
  flushed t' u hflushed := by
    rcases of_update (P := fun q : Phase => q = .flushed (some u)) hflushed with ⟨-, hp⟩ | ⟨hne, hold⟩
    · cases hp
    · obtain ⟨image, himage⟩ := h.flushed t' u hold
      exact ⟨image, LockedRow.pending_rollback himage hne⟩

theorem flush {reviewer : Option Uuid} {image : PostmortemRow} (hfree : s.row.free t = true)
    (hphase : ∀ reviewer, s.phase t ≠ .flushed reviewer)
    (hreviewable : reviewable s.row.committed = true) (himage : ImageOk first reviewer image) :
    Inv first (s.flush t reviewer image) where
  unapproved := h.unapproved
  approved := h.approved
  phase := forall_update trivial h.phase
  image t' image' hpending := by
    obtain ⟨rfl, rfl⟩ := Prod.mk.inj (Option.some.inj hpending)
    exact ⟨hreviewable, reviewer, Function.update_self .., himage⟩
  flushed t' u hflushed := by
    rcases of_update (P := fun q : Phase => q = .flushed (some u)) hflushed with ⟨rfl, -⟩ | ⟨-, hold⟩
    · exact ⟨image, rfl⟩
    · -- the lock was free, so nobody else has an image
      obtain ⟨other, hother⟩ := h.flushed t' u hold
      rw [LockedRow.pending_of_free hfree (h.no_image hphase)] at hother
      cases hother

/-- The session holds the lock: what it commits was reviewable until now. -/
theorem commit_image {reviewer : Option Uuid} {image : PostmortemRow}
    (hphase : s.phase t = .flushed reviewer) (hpending : s.row.pending = some (t, image)) :
    s.approvals = [] ∧ Inv first (s.commit t reviewer) := by
  obtain ⟨hreviewable, other, hflushed, hok⟩ := h.image t image hpending
  obtain rfl := Phase.flushed.inj (hphase.symm.trans hflushed)
  have hnone := h.approvals_of_reviewable hreviewable
  have hcommitted : (s.commit t reviewer).row.committed = image := LockedRow.view_of_image hpending
  have happrovals : (s.commit t reviewer).approvals = reviewer.toList := by
    show s.approvals ++ reviewer.toList = _
    rw [hnone, List.nil_append]
  have hunlocked : ∀ t' image', (s.commit t reviewer).row.pending ≠ some (t', image') := by
    intro t' image' hafter
    obtain ⟨hbefore, hne⟩ := LockedRow.rollback_pending hafter
    rw [hpending] at hbefore
    exact hne (Prod.mk.inj (Option.some.inj hbefore)).1.symm
  refine ⟨hnone, ?_⟩
  constructor
  · intro hempty
    rw [happrovals] at hempty
    rw [hcommitted]
    cases reviewer with
    | none => exact hok
    | some u => cases hempty
  · intro hne
    rw [happrovals] at hne ⊢
    rw [hcommitted]
    cases reviewer with
    | none => exact absurd rfl hne
    | some u => exact ⟨u, rfl, hok⟩
  · exact forall_update trivial h.phase
  · intro t' image' hafter
    exact absurd hafter (hunlocked t' image')
  · intro t' u hafter
    rcases of_update (P := fun q : Phase => q = .flushed (some u)) hafter with ⟨-, hp⟩ | ⟨hne, hold⟩
    · cases hp
    · obtain ⟨image', hother⟩ := h.flushed t' u hold
      rw [hpending] at hother
      exact absurd (Prod.mk.inj (Option.some.inj hother)).1.symm hne

/-- The session has sent no update: it commits nothing, and is no approval. -/
theorem commit_nothing {reviewer : Option Uuid} (hphase : s.phase t = .flushed reviewer)
    (himage : ∀ image, s.row.pending ≠ some (t, image)) :
    (s.commit t reviewer).row.committed = s.row.committed ∧
      (s.commit t reviewer).approvals = s.approvals ∧ Inv first (s.commit t reviewer) := by
  have hcommitted : (s.commit t reviewer).row.committed = s.row.committed :=
    LockedRow.view_of_no_image himage
  have happrovals : (s.commit t reviewer).approvals = s.approvals := by
    cases reviewer with
    | none => exact List.append_nil _
    | some u =>
      obtain ⟨image, hpending⟩ := h.flushed t u hphase
      exact absurd hpending (himage image)
  refine ⟨hcommitted, happrovals, ?_⟩
  constructor
  · rw [hcommitted, happrovals]
    exact h.unapproved
  · rw [hcommitted, happrovals]
    exact h.approved
  · exact forall_update trivial h.phase
  · rw [hcommitted]
    exact h.fail.image
  · exact h.fail.flushed

end Inv

/-! ## One step -/

theorem reviewedBy_patched {existing new : PostmortemRow} {patch : PostmortemUpdate}
    (h : patched existing patch = some new) : new.reviewedBy = existing.reviewedBy := by
  unfold patched at h
  split at h
  · cases h
  · cases h
    rfl

theorem imageOk_updated {call : Call} {existing new stored : PostmortemRow} {now : Instant}
    (hstart : mayStart call = true) (hreviewable : reviewable existing = true)
    (hexisting : existing.reviewedBy = first) (hstored : stored.reviewedBy = first)
    (h : assigned call existing = some new) :
    ImageOk first call.reviewer (updated now existing new stored) := by
  unfold assigned at h
  unfold Call.reviewer
  split at h
  · show column existing.reviewedBy new.reviewedBy stored.reviewedBy = first
    rw [column, if_pos (reviewedBy_patched h), hstored]
  · rename_i happrove
    obtain ⟨u, hu⟩ : ∃ u, call.actor.userId = some u := by
      unfold mayStart at hstart
      rw [happrove] at hstart
      simpa [Request.needsUser, Option.isSome_iff_exists] using (Bool.and_eq_true_iff.mp hstart).2
    have hopen : PostmortemStatus.approved ≠ existing.status := by
      intro hstatus
      rw [not_reviewable_of_approved hstatus.symm] at hreviewable
      cases hreviewable
    cases h
    rw [hu]
    constructor
    · show column existing.status .approved stored.status = .approved
      rw [column, if_neg hopen]
    · show column existing.reviewedBy (some u) stored.reviewedBy = some u
      unfold column
      split
      · rename_i hsame
        rw [hstored, ← hexisting, hsame]
      · rfl

/-- An approval always changes the status. -/
theorem reviewer_of_unchanged {call : Call} {existing : PostmortemRow}
    (hreviewable : reviewable existing = true) (h : assigned call existing = some existing) :
    call.reviewer = none := by
  unfold assigned at h
  unfold Call.reviewer
  split at h
  · rfl
  · have hstatus : existing.status = .approved :=
      (congrArg (fun row : PostmortemRow => row.status) (Option.some.inj h)).symm
    rw [not_reviewable_of_approved hstatus] at hreviewable
    cases hreviewable

theorem inv_step (h : Inv first s) (hok : CheckHolds s a) (hstep : step s a = some s') :
    Inv first s' ∧ (s.approvals ≠ [] →
      s'.row.committed = s.row.committed ∧ s'.approvals = s.approvals) := by
  cases a with
  | start t call =>
    simp only [step] at hstep
    split at hstep
    · rename_i hphase
      cases hstep
      split
      · rename_i hstart
        exact ⟨h.goto (by simp [hphase]) hstart (by simp), fun _ => ⟨rfl, rfl⟩⟩
      · exact ⟨h.fail, fun _ => ⟨rfl, rfl⟩⟩
    · cases hstep
  | read t =>
    simp only [step] at hstep
    split at hstep
    · rename_i call hphase
      have hview : s.row.view t = s.row.committed := h.view_eq (by simp [hphase])
      have hstart : mayStart call = true := by
        have hp := h.phase t
        rwa [hphase] at hp
      split at hstep
      · cases hstep
        refine ⟨h.goto (by simp [hphase]) ⟨hstart, ?_⟩ (by simp), fun _ => ⟨rfl, rfl⟩⟩
        rw [hview]
        exact fun hreviewable => h.unapproved (h.approvals_of_reviewable hreviewable)
      · cases hstep
        exact ⟨h.fail, fun _ => ⟨rfl, rfl⟩⟩
    · cases hstep
  | check t incident =>
    simp only [step] at hstep
    split at hstep
    · rename_i call existing hphase
      have hloaded : PhaseOk first (.loaded call existing) := hphase ▸ h.phase t
      obtain ⟨hstart, hfirst⟩ := hloaded
      cases hstep
      split
      · rename_i hmay
        have hreviewable := (Bool.and_eq_true_iff.mp hmay).1
        exact ⟨h.goto (by simp [hphase]) ⟨hstart, hreviewable, hfirst hreviewable⟩ (by simp),
          fun _ => ⟨rfl, rfl⟩⟩
      · exact ⟨h.fail, fun _ => ⟨rfl, rfl⟩⟩
    · cases hstep
  | write t now =>
    simp only [step] at hstep
    split at hstep
    · rename_i call existing hphase
      have hquiet : ∀ reviewer, s.phase t ≠ .flushed reviewer := by simp [hphase]
      have hchecked : PhaseOk first (.checked call existing) := hphase ▸ h.phase t
      obtain ⟨hstart, hreviewable, hfirst⟩ := hchecked
      split at hstep
      · cases hstep
        exact ⟨h.fail, fun _ => ⟨rfl, rfl⟩⟩
      · rename_i new hassigned
        split at hstep
        · rename_i hsame
          cases hstep
          have hreviewer := reviewer_of_unchanged hreviewable (hsame ▸ hassigned)
          rw [hreviewer]
          exact ⟨h.goto hquiet trivial (by simp), fun _ => ⟨rfl, rfl⟩⟩
        · split at hstep
          · rename_i hfree
            cases hstep
            have hstored : (s.row.view t).reviewedBy = first := by
              rw [h.view_eq hquiet]
              exact h.unapproved (h.approvals_of_reviewable hok)
            exact ⟨h.flush hfree hquiet hok
              (imageOk_updated hstart hreviewable hfirst hstored hassigned), fun _ => ⟨rfl, rfl⟩⟩
          · cases hstep
    · cases hstep
  | commit t =>
    simp only [step] at hstep
    split at hstep
    · rename_i reviewer hphase
      cases hstep
      by_cases himage : ∃ image, s.row.pending = some (t, image)
      · obtain ⟨image, hpending⟩ := himage
        obtain ⟨hnone, hinv⟩ := h.commit_image hphase hpending
        exact ⟨hinv, fun hne => absurd hnone hne⟩
      · obtain ⟨hcommitted, happrovals, hinv⟩ := h.commit_nothing hphase (not_exists.mp himage)
        exact ⟨hinv, fun _ => ⟨hcommitted, happrovals⟩⟩
    · cases hstep
  | abort t =>
    cases hstep
    exact ⟨h.fail, fun _ => ⟨rfl, rfl⟩⟩

/-! ## Every interleaving -/

theorem inv_of_run {row : PostmortemRow}
    (h : Run step CheckHolds ({ row := { committed := row } } : St τ) s) : Inv row.reviewedBy s :=
  h.invariant (I := Inv row.reviewedBy) (fun _ _ _ hI hok hstep => (inv_step hI hok hstep).1)
    (inv_initial row)

/-- As long as no request sends its update after an approval has been committed, an
approved postmortem stays what the one approval has made of it. -/
theorem approved_frozen {row : PostmortemRow}
    (h : Run step CheckHolds ({ row := { committed := row } } : St τ) s) (happroved : s.approvals ≠ [])
    (hlater : Run step CheckHolds s s') :
    s'.row.committed = s.row.committed ∧ s'.row.committed.status = .approved ∧
      ∃ u, s'.approvals = [u] ∧ s'.row.committed.reviewedBy = some u := by
  have hinv := inv_of_run h
  obtain ⟨hcommitted, happrovals⟩ : s'.row.committed = s.row.committed ∧ s'.approvals = s.approvals := by
    have hkept := hlater.relation (I := Inv row.reviewedBy)
      (R := fun s s' => s.approvals ≠ [] →
        s'.row.committed = s.row.committed ∧ s'.approvals = s.approvals)
      (fun _ _ _ hI hok hstep => (inv_step hI hok hstep).1) (fun _ _ => ⟨rfl, rfl⟩)
      (fun s t u hst htu hne => by
        obtain ⟨hrow, happrovals⟩ := hst hne
        obtain ⟨hrow', happrovals'⟩ := htu (happrovals ▸ hne)
        exact ⟨hrow'.trans hrow, happrovals'.trans happrovals⟩)
      (fun _ _ _ hI hok hstep => (inv_step hI hok hstep).2) hinv
    exact hkept happroved
  obtain ⟨u, hu, hstatus, hreviewer⟩ := hinv.approved happroved
  rw [hcommitted, happrovals]
  exact ⟨rfl, hstatus, u, hu, hreviewer⟩

/-! ## An edit that comes too late -/

instance checkHoldsDecidable (s : St τ) : ∀ a : Label τ, Decidable (CheckHolds s a)
  | .write _ _ => inferInstanceAs (Decidable (reviewable s.row.committed = true))
  | .start _ _ | .read _ | .check _ _ | .commit _ | .abort _ => isTrue trivial

def draft : PostmortemRow where
  id := 1
  organizationId := 5
  incidentId := 9
  rootCause := some "an expired certificate"
  generatedBy := "agent:postmortem_agent"
  createdAt := 0
  updatedAt := 0

def editor : Call where
  actor := { kind := .user, subject := "2", organizationId := 5, userId := some 2
             permissions := {postmortemWritePermission} }
  organizationId := 5
  request := .updatePostmortem { rootCause := some (some "unknown") }

def approver : Call where
  actor := { kind := .user, subject := "3", organizationId := 5, userId := some 3
             permissions := {postmortemApprovePermission} }
  organizationId := 5
  request := .approvePostmortem

def approval : List (Label Bool) :=
  [.start true approver, .read true, .check true none, .write true 10, .commit true]

/-- An edit that has started before the approval reads the row after it, and is refused. -/
theorem approved_frozen_draft : ∃ s s' : St Bool,
    execWithin step CheckHolds ({ row := { committed := draft } } : St Bool)
        (.start false editor :: approval) = some s ∧ s.approvals = [3] ∧
      execWithin step CheckHolds s [.read false, .check false none] = some s' ∧
      step s' (.write false 20) = none ∧ s'.row.committed = s.row.committed ∧
      s'.row.committed.status = .approved ∧ s'.row.committed.reviewedBy = some 3 := by
  have hreplay : (execWithin step CheckHolds ({ row := { committed := draft } } : St Bool)
      (.start false editor :: approval)).any (fun s => decide (s.approvals = [3]) &&
        (execWithin step CheckHolds s [.read false, .check false none]).any fun s' =>
          (step s' (.write false 20)).isNone) = true := by decide +kernel
  obtain ⟨s, hexec, hlater⟩ := (Option.any_eq_true _ _).mp hreplay
  obtain ⟨happrovals, hlater⟩ := (Bool.and_eq_true_iff).mp hlater
  obtain ⟨s', hexec', hrefused⟩ := (Option.any_eq_true _ _).mp hlater
  have happrovals : s.approvals = [3] := of_decide_eq_true happrovals
  obtain ⟨hkept, hstatus, -⟩ := approved_frozen (run_of_execWithin hexec)
    (by simp [happrovals]) (run_of_execWithin hexec')
  obtain ⟨-, -, u', hu', hreviewer'⟩ := approved_frozen (run_of_execWithin hexec)
    (by simp [happrovals]) (.refl s)
  obtain rfl : 3 = u' := List.singleton_inj.mp (happrovals.symm.trans hu')
  exact ⟨s, s', hexec, happrovals, hexec', Option.isNone_iff_eq_none.mp hrefused, hkept, hstatus,
    hkept ▸ hreviewer'⟩

/-- The edit has checked the draft before the approval, and is sent after it. -/
theorem approved_edited : ∃ s s' : St Bool,
    Run step anyStep ({ row := { committed := draft } } : St Bool) s ∧ s.approvals = [3] ∧
      Run step anyStep s s' ∧ s.row.committed.rootCause = some "an expired certificate" ∧
      s'.row.committed.rootCause = some "unknown" := by
  have hreplay : (exec step ({ row := { committed := draft } } : St Bool)
      ([.start false editor, .read false, .check false none] ++ approval)).any (fun s =>
        (exec step s [.write false 20, .commit false]).any fun s' =>
          decide (s.approvals = [3] ∧ s.row.committed.rootCause = some "an expired certificate" ∧
            s'.row.committed.rootCause = some "unknown")) = true := by decide +kernel
  obtain ⟨s, hexec, hlater⟩ := (Option.any_eq_true _ _).mp hreplay
  obtain ⟨s', hexec', hfacts⟩ := (Option.any_eq_true _ _).mp hlater
  obtain ⟨happrovals, hbefore, hafter⟩ := of_decide_eq_true hfacts
  exact ⟨s, s', run_of_exec hexec, happrovals, run_of_exec hexec', hbefore, hafter⟩

end Ekip.Core.Incidents.PostmortemRace
