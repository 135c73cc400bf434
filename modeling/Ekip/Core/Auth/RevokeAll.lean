import Ekip.Core.Auth.SessionRace

/-!
# Logout everywhere against requests in flight

`revoke_all_sessions` updates the rows that its statement's snapshot shows. A
refresh that has read its token before the commit of the mass revocation, and
commits after that snapshot, adds a token that nothing revokes. When no refresh
does so, no earlier session survives.
-/
namespace Ekip.Core.Auth.SessionRace

open Ekip.Lib Ekip.Lib.ReadCommitted Ekip.Database Ekip.Core.Tenancy

variable {env : Env} {s s' : St} {t : Rid} {userId organizationId : Uuid}

/-- A session of the user in the organization. -/
def Owned (userId organizationId : Uuid) (row : RefreshToken) : Prop :=
  row.userId = userId ∧ row.organizationId = organizationId

instance (row : RefreshToken) : Decidable (Owned userId organizationId row) :=
  inferInstanceAs (Decidable (_ ∧ _))

/-- The step commits a new session of the user in the organization. -/
def CommitsSession (userId organizationId : Uuid) (s : St) : Label → Prop
  | .advance t _ => ∃ row ∈ (s.phase t).newRow, Owned userId organizationId row
  | _ => False

/-- Request `t` is a refresh that has read a live session of the user in the
organization and has not finished. -/
def InFlight (userId organizationId : Uuid) (s : St) (t : Rid) : Prop :=
  ∃ row ∈ (s.phase t).rotating, Owned userId organizationId row

/-- While the mass revocation runs, no session of the user is committed. -/
def QuietWindow (userId organizationId : Uuid) (s : St) (a : Label) : Prop :=
  ¬ CommitsSession userId organizationId s a

/-- After it, no refresh that was in flight in `atCommit` commits. -/
def NoStraggler (userId organizationId : Uuid) (atCommit s : St) (a : Label) : Prop :=
  InFlight userId organizationId atCommit a.rid → ¬ CommitsSession userId organizationId s a

instance (s : St) (a : Label) : Decidable (CommitsSession userId organizationId s a) := by
  cases a <;> unfold CommitsSession <;> infer_instance

instance (s : St) (a : Label) : Decidable (QuietWindow userId organizationId s a) :=
  inferInstanceAs (Decidable (¬ _))

instance (atCommit s : St) (a : Label) :
    Decidable (NoStraggler userId organizationId atCommit s a) := by
  unfold NoStraggler InFlight
  infer_instance

/-- The family of a session that was committed when the mass revocation was. -/
def Earlier (userId organizationId : Uuid) (atCommit : St) (familyId : Uuid) : Prop :=
  ∃ row ∈ atCommit.store.committed, Owned userId organizationId row ∧ row.familyId = familyId

/-- No refresh of an earlier session of the user in the organization returns. -/
def SessionsEnded (env : Env) (userId organizationId : Uuid) (atCommit s : St) : Prop :=
  ∀ (db : Db) (rawToken : String) (row : RefreshToken), db.refreshTokens = s.store.committed →
    Repository.lookupRefreshToken db (hashToken env rawToken) = some row →
    Owned userId organizationId row → Earlier userId organizationId atCommit row.familyId →
    ∀ now draw tokens db', ¬ (refresh env now draw rawToken).Returns db tokens db'

/-! ## The window of the mass revocation -/

/-- Every live session of the user waits for the sweep or is written by it. -/
def Swept (userId organizationId : Uuid) (r : Rid) (rest : List Uuid) (s : St) : Prop :=
  ∀ c ∈ s.store.committed, Owned userId organizationId c → c.revokedAt = none →
    c.id ∈ rest ∨ ∃ w, (r, w) ∈ s.store.pending ∧ w.id = c.id

/-- The mass revocation is on its way, or it has aborted. -/
def Sweeping (userId organizationId : Uuid) (r : Rid) (s : St) : Prop :=
  s.phase r = .finished ∨ ∃ now rest,
    s.phase r = .sweeping now (.user userId organizationId) false rest ∧
      Swept userId organizationId r rest s

theorem covers_user {row : RefreshToken} :
    (Sweep.user userId organizationId).covers row = true ↔
      Owned userId organizationId row ∧ row.revokedAt = none := by
  simp [Sweep.covers, Repository.activeForUser, Owned, and_assoc]

theorem commitsSession_of_added {a : Label} {row : RefreshToken}
    (h : (∃ draw, a = .advance a.rid draw) ∧ (s.phase a.rid).newRow = some row)
    (howned : Owned userId organizationId row) : CommitsSession userId organizationId s a := by
  obtain ⟨⟨draw, ha⟩, hnew⟩ := h
  rw [ha]
  exact ⟨row, hnew, howned⟩

/-- The snapshot of the statement. -/
theorem sweeping_begin {r : Rid} {now : Instant} {draw : Draw} (hi : Inv s)
    (hphase : s.phase r = .started (.revokeAll now userId organizationId))
    (hstep : step env s (.advance r draw) = some s') : Sweeping userId organizationId r s' := by
  simp only [step, advance, hphase, Option.some.injEq] at hstep
  subst hstep
  refine .inr ⟨now, _, goto_phase_self _, fun c hc howned hlive => .inl ?_⟩
  have hread : c ∈ s.rows r := (hi.read_quiet (by rw [hphase]; rfl)).mpr hc
  exact List.mem_map.mpr ⟨c, List.mem_filter.mpr ⟨hread, covers_user.mpr ⟨howned, hlive⟩⟩, rfl⟩

/-- One row of the sweep. -/
theorem sweeping_row {r : Rid} {now : Instant} {id : Uuid} {rest : List Uuid} {draw : Draw}
    (hi : Inv s)
    (hphase : s.phase r = .sweeping now (.user userId organizationId) false (id :: rest))
    (hswept : Swept userId organizationId r (id :: rest) s)
    (hstep : step env s (.advance r draw) = some s') : Sweeping userId organizationId r s' := by
  simp only [step, advance, hphase] at hstep
  obtain ⟨_, row, hrow, hid, ⟨_, rfl⟩ | ⟨hskip, rfl⟩⟩ := update_cases hstep
  · refine .inr ⟨now, rest, write_phase_self _ _, fun c hc howned hlive => ?_⟩
    rcases hswept c hc howned hlive with hmem | ⟨w, hw, hwid⟩
    · rcases List.mem_cons.mp hmem with hcid | hrest
      · exact .inr ⟨row.revoke now, mem_write_pending.mpr (.inr ⟨rfl, rfl⟩), hid.trans hcid.symm⟩
      · exact .inl hrest
    · exact .inr ⟨w, mem_write_pending.mpr (.inl hw), hwid⟩
  · refine .inr ⟨now, rest, goto_phase_self _, fun c hc howned hlive => ?_⟩
    rcases hswept c hc howned hlive with hmem | hwritten
    · rcases List.mem_cons.mp hmem with hcid | hrest
      · -- skipped: then the row read is not `c`, so it is an image under the id of `c`
        refine .inr ?_
        rcases Store.mem_of_mem_view hrow with hcommitted | himage
        · obtain rfl := hi.idUnique row hcommitted c hc (hid.trans hcid.symm)
          rw [covers_user.mpr ⟨howned, hlive⟩] at hskip
          cases hskip
        · exact ⟨row, Store.mem_images.mp himage, hid.trans hcid.symm⟩
      · exact .inl hrest
    · exact .inr hwritten

/-- What others do in the window: the sessions of the user can only be revoked. -/
theorem sweeping_other {r : Rid} {a : Label} (hi : Inv s) (h : Sweeping userId organizationId r s)
    (hne : r ≠ a.rid) (hok : QuietWindow userId organizationId s a)
    (hstep : step env s a = some s') : Sweeping userId organizationId r s' := by
  rw [Sweeping, step_phase_other hstep hne]
  refine h.imp_right ?_
  rintro ⟨now, rest, hphase, hswept⟩
  refine ⟨now, rest, hphase, fun x hx howned hlive => ?_⟩
  rcases step_origin hi hstep hx with ⟨c, hc, _, hsame⟩ | hadded
  · obtain rfl := hsame hlive
    rcases hswept c hc howned hlive with hrest | ⟨w, hw, hwid⟩
    · exact .inl hrest
    · exact .inr ⟨w, step_keeps_images hstep hne hw, hwid⟩
  · exact absurd (commitsSession_of_added hadded howned) hok

theorem sweeping_step {r : Rid} {a : Label} (hi : Inv s) (h : Sweeping userId organizationId r s)
    (hok : QuietWindow userId organizationId s a) (hstep : step env s a = some s') :
    Sweeping userId organizationId r s' := by
  by_cases hr : r = a.rid
  case neg => exact sweeping_other hi h hr hok hstep
  subst hr
  cases a with
  | start t request =>
    simp only [step] at hstep
    simp only [Label.rid] at h
    rcases h with hphase | ⟨now, rest, hphase, _⟩ <;> simp [hphase] at hstep
  | abort t =>
    simp only [step] at hstep
    split at hstep
    case isTrue => cases hstep
    case isFalse =>
      obtain rfl := Option.some.inj hstep
      exact .inl rollback_phase_self
  | advance t draw =>
    rcases h with hphase | ⟨now, rest, hphase, hswept⟩
    · simp only [Label.rid] at hphase
      simp [step, advance, hphase] at hstep
    · cases rest with
      | nil =>
        simp only [Label.rid] at hphase
        simp only [step, advance, hphase, Option.some.injEq] at hstep
        subst hstep
        exact .inl commit_phase_self
      | cons id rest => exact sweeping_row hi hphase hswept hstep

/-- When the sweep commits, no live session of the user is left. -/
theorem swept_commit {r : Rid} {now : Instant} (hi : Inv s)
    (hphase : s.phase r = .sweeping now (.user userId organizationId) false [])
    (hswept : Swept userId organizationId r [] s) {x : RefreshToken}
    (hx : x ∈ (s.commit r).store.committed) (howned : Owned userId organizationId x) :
    x.revokedAt ≠ none := by
  intro hlive
  rcases hi.commit_origin hx with ⟨c, hc, hident, hsame⟩ | hadded
  · obtain rfl := hsame hlive
    rcases hswept c hc howned hlive with hrest | ⟨w, hw, hwid⟩
    · cases hrest
    · exact hi.commit_written hw hx hwid ⟨c, hc, rfl⟩ hlive
  · rw [hphase] at hadded
    cases hadded

/-! ## After the mass revocation -/

structure Ended (userId organizationId : Uuid) (atCommit s : St) : Prop where
  stored : ∀ family, Earlier userId organizationId atCommit family →
    ∃ c ∈ s.store.committed, c.familyId = family
  dead : ∀ c ∈ s.store.committed, Owned userId organizationId c →
    Earlier userId organizationId atCommit c.familyId → c.revokedAt ≠ none
  flight : ∀ t row, (s.phase t).rotating = some row → Owned userId organizationId row →
    Earlier userId organizationId atCommit row.familyId → InFlight userId organizationId atCommit t

theorem ended_commit {r : Rid} {now : Instant} (hi : Inv s)
    (hphase : s.phase r = .sweeping now (.user userId organizationId) false [])
    (hswept : Swept userId organizationId r [] s) :
    Ended userId organizationId s (s.commit r) where
  stored := by
    rintro family ⟨row, hrow, _, rfl⟩
    obtain ⟨x, hx, hident, _⟩ := hi.commit_keeps hrow r
    exact ⟨x, hx, ident_familyId hident⟩
  dead := fun c hc howned _ => swept_commit hi hphase hswept hc howned
  flight := by
    intro t row hrow howned _
    rcases eq_or_ne t r with rfl | hne
    · rw [commit_phase_self] at hrow
      cases hrow
    · rw [commit_phase_ne hne] at hrow
      exact ⟨row, hrow, howned⟩

/-- A refresh that starts after the commit reads only dead sessions of the user,
and one that was in flight does not commit. -/
theorem ended_step {a : Label} {atCommit : St} (hi : Inv s)
    (h : Ended userId organizationId atCommit s)
    (hok : NoStraggler userId organizationId atCommit s a) (hstep : step env s a = some s') :
    Ended userId organizationId atCommit s' where
  stored := by
    intro family hfamily
    obtain ⟨c, hc, rfl⟩ := h.stored family hfamily
    obtain ⟨x, hx, hident⟩ := step_keeps_rows hi hstep hc
    exact ⟨x, hx, ident_familyId hident⟩
  dead := by
    intro x hx howned hearlier hlive
    rcases step_origin hi hstep hx with ⟨c, hc, _, hsame⟩ | hadded
    · obtain rfl := hsame hlive
      exact h.dead c hc howned hearlier hlive
    · have hcommits := commitsSession_of_added hadded howned
      obtain ⟨_, hnew⟩ := hadded
      cases hphase : s.phase a.rid with
      | inserted row successor =>
        obtain ⟨huser, horg, hfamily⟩ := hi.successor _ row successor hphase
        rw [hphase] at hnew
        obtain rfl : successor = x := Option.some.inj hnew
        have hrow : Owned userId organizationId row :=
          ⟨huser.symm.trans howned.1, horg.symm.trans howned.2⟩
        rw [hfamily] at hearlier
        exact hok (h.flight _ row (by rw [hphase]; rfl) hrow hearlier) hcommits
      | loggedIn row =>
        rw [hphase] at hnew
        obtain rfl : row = x := Option.some.inj hnew
        obtain ⟨c, hc, hfamily⟩ := h.stored row.familyId hearlier
        exact (hi.family _ row hphase).1 c hc hfamily
      | _ =>
        rw [hphase] at hnew
        cases hnew
  flight := by
    intro t row hrow howned hearlier
    rcases eq_or_ne t a.rid with rfl | hne
    case inr =>
      rw [step_phase_other hstep hne] at hrow
      exact h.flight t row hrow howned hearlier
    have hdead : row ∈ s.store.committed → row.revokedAt ≠ none :=
      fun hmem => h.dead row hmem howned hearlier
    cases step_move hstep with
    | goto p _ _ _ _ _ hrotating =>
      rw [goto_phase_self] at hrow
      rcases hrotating row hrow with hold | ⟨hquiet, hread, hlive⟩
      · exact h.flight _ row hold howned hearlier
      · exact absurd hlive (hdead ((hi.read_quiet hquiet).mp hread))
    | revoke p _ _ _ _ _ _ _ _ _ hrotating =>
      rw [write_phase_self] at hrow
      exact h.flight _ row (hrotating row hrow) howned hearlier
    | login =>
      rw [write_phase_self] at hrow
      cases hrow
    | succeed row' successor hphase =>
      rw [write_phase_self] at hrow
      refine h.flight _ row ?_ howned hearlier
      rw [hphase]
      exact hrow
    | commit =>
      rw [commit_phase_self] at hrow
      cases hrow
    | rollback =>
      rw [rollback_phase_self] at hrow
      cases hrow

theorem Ended.sessionsEnded {atCommit : St} (h : Ended userId organizationId atCommit s) :
    SessionsEnded env userId organizationId atCommit s := by
  intro db rawToken row hdb hrow howned hearlier now draw tokens db'
  refine refresh_of_revoked hrow (h.dead row ?_ howned hearlier)
  rw [Repository.lookupRefreshToken_eq] at hrow
  rw [← hdb]
  exact (Table.get?_some hrow).1

/-- `s₁` is where the mass revocation takes its snapshot, `s₂` where it commits.
If no session of the user is committed between the two, and no refresh that was
in flight in `s₂` commits after it, no earlier session survives. -/
theorem revokeAll_ends_sessions {s₁ s₁' s₂ s₂' s₃ : St} {r : Rid} {now now' : Instant}
    {draw₁ draw₂ : Draw} (hbefore : Run (step env) anyStep init s₁)
    (hbegin : s₁.phase r = .started (.revokeAll now userId organizationId))
    (hsnapshot : step env s₁ (.advance r draw₁) = some s₁')
    (hwindow : Run (step env) (QuietWindow userId organizationId) s₁' s₂)
    (hready : s₂.phase r = .sweeping now' (.user userId organizationId) false [])
    (hcommit : step env s₂ (.advance r draw₂) = some s₂')
    (hafter : Run (step env) (NoStraggler userId organizationId s₂) s₂' s₃) :
    SessionsEnded env userId organizationId s₂ s₃ := by
  have hi₁ : Inv s₁ := inv_of_run hbefore inv_init
  have hi₁' : Inv s₁' := inv_step hi₁ hsnapshot
  obtain ⟨hi₂, hsweeping⟩ : Inv s₂ ∧ Sweeping userId organizationId r s₂ :=
    hwindow.invariant (I := fun s => Inv s ∧ Sweeping userId organizationId r s)
      (fun _ _ _ hs hok hstep => ⟨inv_step hs.1 hstep, sweeping_step hs.1 hs.2 hok hstep⟩)
      ⟨hi₁', sweeping_begin hi₁ hbegin hsnapshot⟩
  have hswept : Swept userId organizationId r [] s₂ := by
    rcases hsweeping with hfinished | ⟨_, _, hphase, hswept⟩
    · rw [hready] at hfinished
      cases hfinished
    · rw [hready] at hphase
      cases hphase
      exact hswept
  simp only [step, advance, hready, Option.some.injEq] at hcommit
  subst hcommit
  have hended : Inv s₃ ∧ Ended userId organizationId s₂ s₃ :=
    hafter.invariant (I := fun s => Inv s ∧ Ended userId organizationId s₂ s)
      (fun _ _ _ hs hok hstep => ⟨inv_step hs.1 hstep, ended_step hs.1 hs.2 hok hstep⟩)
      ⟨hi₂.commit r, ended_commit hi₂ hready hswept⟩
  exact hended.2.sessionsEnded

/-! ## A refresh in flight -/

/-- Request 1 has read and checked the token of a login; request 2 is the mass
revocation. -/
def beforeSnapshot : List Label :=
  loginSteps 0 (drawn 10 "first") ++
    [.start 1 (.refresh 0 "first"), .advance 1 (drawn 11 "second"), .advance 1 (drawn 11 "second"),
      .start 2 (.revokeAll 0 1 2)]

def firstSession : RefreshToken := sessionRow plainEnv (drawn 10 "first") 1 2 110
def secondSession : RefreshToken := sessionRow plainEnv (drawn 11 "second") 1 2 110

/-- The refresh waits for the row, then revokes it once more and commits a successor. -/
theorem revokeAll_leaves_session :
    ((exec (step plainEnv) init beforeSnapshot).bind fun s₁ =>
      (step plainEnv s₁ (.advance 2 (drawn 0 ""))).bind fun s₁' =>
      (exec (step plainEnv) s₁' [.advance 2 (drawn 0 "")]).bind fun s₂ =>
      (step plainEnv s₂ (.advance 2 (drawn 0 ""))).bind fun s₂' =>
      (exec (step plainEnv) s₂' (List.replicate 3 (.advance 1 (drawn 11 "second")))).map fun s₃ =>
        ((s₁.phase 2, s₂.phase 2), (s₂.store.committed, s₃.store.committed),
          (s₃.phase 0, s₃.phase 1, s₃.phase 2))) =
      some ((.started (.revokeAll 0 1 2), .sweeping 0 (.user 1 2) false []),
        ([firstSession], [firstSession.revoke 0, secondSession]),
        (.finished, .finished, .finished)) := by
  decide

/-- Requests that no label names stay where they are. -/
theorem exec_phase_other {as : List Label} (h : exec (step env) s as = some s')
    (hne : ∀ a ∈ as, t ≠ a.rid) : s'.phase t = s.phase t := by
  induction as generalizing s with
  | nil =>
    obtain rfl := Option.some.inj h
    rfl
  | cons a as ih =>
    obtain ⟨u, hu, hrest⟩ := Option.bind_eq_some_iff.mp h
    rw [ih hrest fun b hb => hne b (List.mem_cons_of_mem _ hb)]
    exact step_phase_other hu (hne a List.mem_cons_self)

theorem revokeAll_fails :
    ¬ ∀ (env : Env) (userId organizationId : Uuid) (s₁ s₁' s₂ s₂' s₃ : St) (r : Rid)
      (now now' : Instant) (draw₁ draw₂ : Draw), Run (step env) anyStep init s₁ →
      s₁.phase r = .started (.revokeAll now userId organizationId) →
      step env s₁ (.advance r draw₁) = some s₁' → Run (step env) anyStep s₁' s₂ →
      s₂.phase r = .sweeping now' (.user userId organizationId) false [] →
      step env s₂ (.advance r draw₂) = some s₂' → Run (step env) anyStep s₂' s₃ →
      (∀ t, s₂.phase t ≠ .idle → s₃.phase t = .finished) →
      SessionsEnded env userId organizationId s₂ s₃ := by
  intro hall
  obtain ⟨s₁, h₁, hrest⟩ := Option.bind_eq_some_iff.mp revokeAll_leaves_session
  obtain ⟨s₁', h₁', hrest⟩ := Option.bind_eq_some_iff.mp hrest
  obtain ⟨s₂, h₂, hrest⟩ := Option.bind_eq_some_iff.mp hrest
  obtain ⟨s₂', h₂', hrest⟩ := Option.bind_eq_some_iff.mp hrest
  obtain ⟨s₃, h₃, hview⟩ := Option.map_eq_some_iff.mp hrest
  simp only [Prod.mk.injEq] at hview
  obtain ⟨⟨hbegin, hready⟩, ⟨hrows₂, hrows₃⟩, hphase₀, hphase₁, hphase₂⟩ := hview
  have hfinished : ∀ t, s₂.phase t ≠ .idle → s₃.phase t = .finished := by
    intro t hstarted
    by_cases hcases : t = 0 ∨ t = 1 ∨ t = 2
    · rcases hcases with rfl | rfl | rfl
      · exact hphase₀
      · exact hphase₁
      · exact hphase₂
    · simp only [not_or] at hcases
      refine absurd ?_ hstarted
      rw [exec_phase_other h₂ (by simp [Label.rid, hcases]),
        step_phase_other h₁' hcases.2.2,
        exec_phase_other h₁ (by simp [beforeSnapshot, loginSteps, Label.rid, hcases])]
      rfl
  have hended := hall plainEnv 1 2 s₁ s₁' s₂ s₂' s₃ 2 0 0 _ _ (run_of_exec h₁) hbegin h₁'
    (run_of_exec h₂) hready h₂' (run_of_exec h₃) hfinished
  have hearlier : Earlier 1 2 s₂ secondSession.familyId := by
    refine ⟨firstSession, ?_, by decide, rfl⟩
    rw [hrows₂]
    exact List.mem_singleton_self _
  refine hended { refreshTokens := [firstSession.revoke 0, secondSession] } "second" secondSession
    hrows₃.symm (by decide) (by decide) hearlier 0 (drawn 12 "third") _ _
    (refresh_returns.mpr ⟨secondSession, by decide, by decide, by decide, rfl, rfl⟩)

/-- A refresh that commits before the snapshot and one that starts after the
commit: the first session and its successor are both ended. -/
theorem revokeAll_ends_rotated_session :
    ∃ s₂ s₃ : St, s₂.store.committed = [firstSession.revoke 0, secondSession] ∧
      SessionsEnded plainEnv 1 2 s₂ s₃ := by
  have hrun : ((exec (step plainEnv) init (loginSteps 0 (drawn 10 "first") ++
        refreshSteps 1 "first" (drawn 11 "second") ++ [.start 2 (.revokeAll 0 1 2)])).bind fun s₁ =>
      (step plainEnv s₁ (.advance 2 (drawn 0 ""))).bind fun s₁' =>
      (execWithin (step plainEnv) (QuietWindow 1 2) s₁' [.advance 2 (drawn 0 "")]).bind fun s₂ =>
      (step plainEnv s₂ (.advance 2 (drawn 0 ""))).bind fun s₂' =>
      (execWithin (step plainEnv) (NoStraggler 1 2 s₂) s₂'
        (.start 3 (.refresh 0 "second") :: List.replicate 3 (.advance 3 (drawn 12 "third")))).map
          fun s₃ => (s₁.phase 2, s₂.phase 2, s₂.store.committed, s₃.phase 3)) =
      some (.started (.revokeAll 0 1 2), .sweeping 0 (.user 1 2) false [],
        [firstSession.revoke 0, secondSession], .finished) := by
    decide
  obtain ⟨s₁, h₁, hrest⟩ := Option.bind_eq_some_iff.mp hrun
  obtain ⟨s₁', h₁', hrest⟩ := Option.bind_eq_some_iff.mp hrest
  obtain ⟨s₂, h₂, hrest⟩ := Option.bind_eq_some_iff.mp hrest
  obtain ⟨s₂', h₂', hrest⟩ := Option.bind_eq_some_iff.mp hrest
  obtain ⟨s₃, h₃, hview⟩ := Option.map_eq_some_iff.mp hrest
  simp only [Prod.mk.injEq] at hview
  obtain ⟨hbegin, hready, hrows, _⟩ := hview
  exact ⟨s₂, s₃, hrows, revokeAll_ends_sessions (run_of_exec h₁) hbegin h₁'
    (run_of_execWithin h₂) hready h₂' (run_of_execWithin h₃)⟩

end Ekip.Core.Auth.SessionRace
