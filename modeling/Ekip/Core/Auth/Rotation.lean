import Ekip.Core.Auth.SessionRace

/-!
# Rotation is linear when every update is fresh

A refresh decides on the row it read and then updates the row by its primary
key. If no other refresh of that row has committed by the time of the update,
for every refresh of the run, then each token has at most one committed
successor and each family at most one unrevoked token.
-/
namespace Ekip.Core.Auth.SessionRace

open Ekip.Lib Ekip.Database Ekip.Core.Tenancy

variable {env : Env} {s s' : St} {t : Rid}

/-- The ids of the rows that a committed refresh has redeemed. -/
def St.redeemed (s : St) : List Uuid := s.rotations.map Prod.fst

/-- A refresh that is about to set `revoked_at` finds its row not yet redeemed. -/
def FreshUpdate (s : St) (a : Label) : Prop :=
  match s.phase a.rid with
  | .checked _ .refresh row => row.id ∉ s.redeemed
  | _ => True

instance (s : St) (a : Label) : Decidable (FreshUpdate s a) := by
  unfold FreshUpdate
  split <;> infer_instance

/-- Each token is redeemed at most once, and each family has one live end. -/
def RedeemedOnce (s : St) : Prop :=
  s.redeemed.Nodup ∧
    ∀ row ∈ s.store.committed, ∀ row' ∈ s.store.committed, row.familyId = row'.familyId →
      row.revokedAt = none → row'.revokedAt = none → row = row'

structure Linear (s : St) : Prop where
  nodup : s.redeemed.Nodup
  stored : ∀ id ∈ s.redeemed, ∃ c ∈ s.store.committed, c.id = id
  revoked : ∀ c ∈ s.store.committed, c.id ∈ s.redeemed → c.revokedAt ≠ none
  /-- Of each family one committed row at most has no successor. -/
  tip : ∀ c ∈ s.store.committed, ∀ c' ∈ s.store.committed, c.familyId = c'.familyId →
    c.id ∉ s.redeemed → c'.id ∉ s.redeemed → c = c'
  /-- Who holds the lock on a row is the only one to redeem it. -/
  lock : ∀ t id, (s.phase t).locks = some id → id ∉ s.redeemed

theorem linear_init : Linear init where
  nodup := List.nodup_nil
  stored := fun _ h => nomatch h
  revoked := fun _ h => nomatch h
  tip := fun _ h => nomatch h
  lock := fun _ _ h => nomatch h

theorem Linear.redeemedOnce (h : Linear s) : RedeemedOnce s := by
  refine ⟨h.nodup, fun row hrow row' hrow' hfamily hlive hlive' => ?_⟩
  have hopen : row.id ∉ s.redeemed := fun hid => h.revoked row hrow hid hlive
  have hopen' : row'.id ∉ s.redeemed := fun hid => h.revoked row' hrow' hid hlive'
  exact h.tip row hrow row' hrow' hfamily hopen hopen'

/-- A step that neither commits nor takes a lock on a redeemed row. -/
theorem Linear.keep (h : Linear s) (hcommitted : s'.store.committed = s.store.committed)
    (hrotations : s'.rotations = s.rotations)
    (hlock : ∀ t id, (s'.phase t).locks = some id →
      (s.phase t).locks = some id ∨ id ∉ s.redeemed) : Linear s' := by
  have hredeemed : s'.redeemed = s.redeemed := by rw [St.redeemed, hrotations]; rfl
  refine ⟨?_, ?_, ?_, ?_, fun t id hid => ?_⟩
  · rw [hredeemed]
    exact h.nodup
  · rw [hredeemed, hcommitted]
    exact h.stored
  · rw [hredeemed, hcommitted]
    exact h.revoked
  · rw [hredeemed, hcommitted]
    exact h.tip
  · rw [hredeemed]
    rcases hlock t id hid with hold | hfresh
    · exact h.lock t id hold
    · exact hfresh

theorem redeemed_commit_inserted {row successor : RefreshToken}
    (hphase : s.phase t = .inserted row successor) :
    (s.commit t).redeemed = s.redeemed ++ [row.id] := by
  simp [St.redeemed, St.commit, hphase, Phase.rotation]

theorem redeemed_commit_other (hphase : ∀ row successor, s.phase t ≠ .inserted row successor) :
    (s.commit t).redeemed = s.redeemed := by
  have hnone : (s.phase t).rotation = [] := by
    cases hp : s.phase t with
    | inserted row successor => exact absurd hp (hphase row successor)
    | _ => rfl
  simp [St.redeemed, St.commit, hnone]

/-- The commit of a rotation: the redeemed row was the end of its family, and
the successor takes its place. -/
theorem Linear.commit_inserted (h : Linear s) (hi : Inv s) {row successor : RefreshToken}
    (hphase : s.phase t = .inserted row successor) : Linear (s.commit t) := by
  have hnew : (s.phase t).newRow = some successor := by rw [hphase]; rfl
  have hlocks : (s.phase t).locks = some row.id := by rw [hphase]; rfl
  have hopen : row.id ∉ s.redeemed := h.lock t row.id hlocks
  obtain ⟨lock, hlock, hlockid⟩ := hi.locked t row.id hlocks
  obtain ⟨held, hheld, hident⟩ := hi.held t row (by rw [hphase]; rfl)
  have hheldid : held.id = row.id := ident_id hident
  obtain ⟨_, _, hfamily⟩ := hi.successor t row successor hphase
  have hfresh := (hi.added t successor hnew).2.2
  -- where the rows of the new table come from
  have horigin : ∀ x ∈ (s.commit t).store.committed, (∃ c ∈ s.store.committed, c.ident = x.ident ∧
      (x.revokedAt = none → c = x)) ∨ x = successor := by
    intro x hx
    rcases hi.commit_origin hx with hold | hadded
    · exact .inl hold
    · rw [hnew] at hadded
      exact .inr (Option.some.inj hadded).symm
  have hunique : Table.KeyUnique RefreshToken.id (s.commit t).store.committed :=
    (hi.commit t).idUnique
  have hredeemed := redeemed_commit_inserted hphase
  -- a row that was there keeps its id, so it was redeemed before if it is now
  have hend : ∀ c ∈ s.store.committed, c.familyId = row.familyId → c.id ∉ s.redeemed →
      c.id = row.id := by
    intro c hc hcf hcopen
    have hsame : c = held :=
      h.tip c hc held hheld (hcf.trans (ident_familyId hident).symm) hcopen (by rwa [hheldid])
    rw [hsame, hheldid]
  refine ⟨?_, ?_, ?_, ?_, ?_⟩
  · rw [hredeemed]
    exact List.nodup_append.mpr ⟨h.nodup, List.nodup_singleton _, by
      intro a ha b hb
      rw [List.mem_singleton.mp hb]
      rintro rfl
      exact hopen ha⟩
  · intro id hid
    rw [hredeemed, List.mem_append, List.mem_singleton] at hid
    have hbefore : ∃ c ∈ s.store.committed, c.id = id := by
      rcases hid with hold | rfl
      · exact h.stored id hold
      · exact ⟨held, hheld, hheldid⟩
    obtain ⟨c, hc, hcid⟩ := hbefore
    obtain ⟨x, hx, hxident, _⟩ := hi.commit_keeps hc t
    exact ⟨x, hx, (ident_id hxident).trans hcid⟩
  · intro x hx hid hlive
    rw [hredeemed, List.mem_append, List.mem_singleton] at hid
    rcases hid with hold | hid
    · rcases horigin x hx with ⟨c, hc, _, hsame⟩ | rfl
      · obtain rfl := hsame hlive
        exact h.revoked c hc hold hlive
      · obtain ⟨c, hc, hcid⟩ := h.stored x.id hold
        exact hfresh c hc hcid
    · refine hi.commit_written hlock hx (hlockid.trans hid.symm) ⟨held, hheld, ?_⟩ hlive
      rw [hheldid, hid]
  · intro x hx x' hx' hxx hxopen hxopen'
    rw [hredeemed, List.mem_append, List.mem_singleton, not_or] at hxopen hxopen'
    have hold : ∀ y ∈ (s.commit t).store.committed, y.id ∉ s.redeemed → y.id ≠ row.id →
        y.familyId = row.familyId → y = successor := by
      intro y hy hyopen hyne hyfamily
      rcases horigin y hy with ⟨c, hc, hcident, _⟩ | hsuccessor
      · have hcid := hend c hc ((ident_familyId hcident).trans hyfamily)
          (by rwa [ident_id hcident])
        exact absurd ((ident_id hcident).symm.trans hcid) hyne
      · exact hsuccessor
    by_cases hrow : x.familyId = row.familyId
    · rw [hold x hx hxopen.1 hxopen.2 hrow,
        hold x' hx' hxopen'.1 hxopen'.2 (hxx.symm.trans hrow)]
    · rcases horigin x hx with ⟨c, hc, hcident, _⟩ | rfl
      · rcases horigin x' hx' with ⟨c', hc', hcident', _⟩ | rfl
        · have hcc : c = c' := h.tip c hc c' hc'
            ((ident_familyId hcident).trans (hxx.trans (ident_familyId hcident').symm))
            (by rw [ident_id hcident]; exact hxopen.1) (by rw [ident_id hcident']; exact hxopen'.1)
          refine hunique x hx x' hx' ?_
          rw [← ident_id hcident, hcc, ident_id hcident']
        · exact absurd (hxx.trans hfamily) hrow
      · exact absurd hfamily hrow
  · intro t' id hid hmem
    rcases eq_or_ne t' t with rfl | hne
    · rw [commit_phase_self] at hid
      cases hid
    · rw [commit_phase_ne hne] at hid
      rw [hredeemed, List.mem_append, List.mem_singleton] at hmem
      rcases hmem with hold | rfl
      · exact h.lock t' id hid hold
      · -- the two would hold the same lock
        obtain ⟨lock', hlock', hlockid'⟩ := hi.locked t' row.id hid
        exact hne (hi.exclusive _ hlock' _ hlock (hlockid'.trans hlockid.symm))

/-- Any other commit adds no successor: at most the first token of a login. -/
theorem Linear.commit_other (h : Linear s) (hi : Inv s)
    (hphase : ∀ row successor, s.phase t ≠ .inserted row successor)
    (hlogin : ∀ w, (s.phase t).newRow = some w → s.phase t = .loggedIn w) :
    Linear (s.commit t) := by
  have hredeemed := redeemed_commit_other hphase
  have horigin : ∀ x ∈ (s.commit t).store.committed, (∃ c ∈ s.store.committed, c.ident = x.ident ∧
      (x.revokedAt = none → c = x)) ∨ s.phase t = .loggedIn x := by
    intro x hx
    exact (hi.commit_origin hx).imp_right (hlogin x)
  have hunique : Table.KeyUnique RefreshToken.id (s.commit t).store.committed :=
    (hi.commit t).idUnique
  refine ⟨?_, ?_, ?_, ?_, ?_⟩
  · rw [hredeemed]
    exact h.nodup
  · intro id hid
    rw [hredeemed] at hid
    obtain ⟨c, hc, hcid⟩ := h.stored id hid
    obtain ⟨x, hx, hxident, _⟩ := hi.commit_keeps hc t
    exact ⟨x, hx, (ident_id hxident).trans hcid⟩
  · intro x hx hid hlive
    rw [hredeemed] at hid
    rcases horigin x hx with ⟨c, hc, _, hsame⟩ | hloggedIn
    · obtain rfl := hsame hlive
      exact h.revoked c hc hid hlive
    · obtain ⟨c, hc, hcid⟩ := h.stored x.id hid
      exact (hi.added t x (by rw [hloggedIn]; rfl)).2.2 c hc hcid
  · intro x hx x' hx' hxx hxopen hxopen'
    rw [hredeemed] at hxopen hxopen'
    rcases horigin x hx with ⟨c, hc, hcident, _⟩ | hloggedIn
    · rcases horigin x' hx' with ⟨c', hc', hcident', _⟩ | hloggedIn'
      · have hcc : c = c' := h.tip c hc c' hc'
          ((ident_familyId hcident).trans (hxx.trans (ident_familyId hcident').symm))
          (by rwa [ident_id hcident]) (by rwa [ident_id hcident'])
        refine hunique x hx x' hx' ?_
        rw [← ident_id hcident, hcc, ident_id hcident']
      · exact absurd ((ident_familyId hcident).trans hxx) ((hi.family t x' hloggedIn').1 c hc)
    · rcases horigin x' hx' with ⟨c', hc', hcident', _⟩ | hloggedIn'
      · exact absurd ((ident_familyId hcident').trans hxx.symm) ((hi.family t x hloggedIn).1 c' hc')
      · rw [hloggedIn] at hloggedIn'
        exact (Phase.loggedIn.inj hloggedIn')
  · intro t' id hid
    rcases eq_or_ne t' t with rfl | hne
    · rw [commit_phase_self] at hid
      cases hid
    · rw [commit_phase_ne hne] at hid
      rw [hredeemed]
      exact h.lock t' id hid

theorem linear_step {a : Label} (h : Linear s) (hi : Inv s) (hok : FreshUpdate s a)
    (hstep : step env s a = some s') : Linear s' := by
  generalize ht : a.rid = t
  have hmove := step_move hstep
  rw [ht] at hmove
  have hkeep : ∀ {u : St} {p : Phase}, u.store.committed = s.store.committed →
      u.rotations = s.rotations → u.phase = Function.update s.phase t p →
      (∀ id, p.locks = some id → (s.phase t).locks = some id ∨ id ∉ s.redeemed) → Linear u := by
    intro u p hcommitted hrotations hphase hlock
    refine h.keep hcommitted hrotations fun t' id hid => ?_
    rcases eq_or_ne t' t with rfl | hne
    · rw [hphase, Function.update_self] at hid
      exact hlock id hid
    · rw [hphase, Function.update_of_ne hne] at hid
      exact .inl hid
  cases hmove with
  | goto p _ _ hlocks _ _ _ =>
    refine hkeep rfl rfl rfl fun id hid => ?_
    rw [hlocks] at hid
    cases hid
  | revoke p row now _ _ _ _ _ hlocks _ _ =>
    refine hkeep rfl rfl rfl fun id hid => ?_
    obtain ⟨_, now', held, hphase, rfl⟩ := hlocks id hid
    simp only [FreshUpdate, ht, hphase] at hok
    exact .inr hok
  | login row _ _ _ => exact hkeep rfl rfl rfl fun _ hid => nomatch hid
  | succeed row successor hphase _ _ _ =>
    refine hkeep rfl rfl rfl fun id hid => ?_
    rw [hphase]
    exact .inl hid
  | commit hcommits =>
    cases hphase : s.phase t with
    | inserted row successor => exact h.commit_inserted hi hphase
    | loggedIn row =>
      refine h.commit_other hi (fun _ _ hp => ?_) fun w hw => ?_
      · rw [hphase] at hp
        cases hp
      · rw [hphase] at hw ⊢
        rw [Option.some.inj hw]
    | _ =>
      refine h.commit_other hi (fun _ _ hp => ?_) fun w hw => ?_
      · rw [hphase] at hp
        cases hp
      · rw [hphase] at hw
        cases hw
  | rollback => exact hkeep rfl rfl rfl fun _ hid => nomatch hid

/-- In every run whose updates are all fresh, in every state it reaches. -/
theorem redeemed_once (hrun : Run (step env) FreshUpdate init s) : RedeemedOnce s := by
  have hboth : Inv s ∧ Linear s :=
    hrun.invariant (I := fun s => Inv s ∧ Linear s)
      (fun _ _ _ hs hok hstep => ⟨inv_step hs.1 hstep, linear_step hs.2 hs.1 hok hstep⟩)
      ⟨inv_init, linear_init⟩
  exact hboth.2.redeemedOnce

/-! ## Two refreshes of one token -/

/-- A login and two rotations one after the other. -/
def chain : List Label :=
  loginSteps 0 (drawn 10 "first") ++ refreshSteps 1 "first" (drawn 11 "second") ++
    refreshSteps 2 "second" (drawn 12 "third")

theorem redeemed_once_chain : ∃ s, Run (step plainEnv) FreshUpdate init s ∧
    s.rotations = [(10, 11), (11, 12)] ∧ RedeemedOnce s := by
  have hrotations : (execWithin (step plainEnv) FreshUpdate init chain).map St.rotations =
      some [(10, 11), (11, 12)] := by
    decide
  obtain ⟨s, hs, hrot⟩ := Option.map_eq_some_iff.mp hrotations
  have hrun := run_of_execWithin hs
  exact ⟨s, hrun, hrot, redeemed_once hrun⟩

/-- Both requests have read and checked the first token before either updates it. -/
def racingRefreshes : List Label :=
  loginSteps 0 (drawn 10 "first") ++
    [.start 1 (.refresh 0 "first"), .start 2 (.refresh 0 "first"),
      .advance 1 (drawn 11 "second"), .advance 2 (drawn 12 "third"),
      .advance 1 (drawn 11 "second"), .advance 2 (drawn 12 "third"),
      .advance 1 (drawn 11 "second"), .advance 1 (drawn 11 "second"), .advance 1 (drawn 11 "second"),
      .advance 2 (drawn 12 "third"), .advance 2 (drawn 12 "third"), .advance 2 (drawn 12 "third")]

theorem redeemed_once_fails :
    ¬ ∀ (env : Env) (s : St), Run (step env) anyStep init s → RedeemedOnce s := by
  intro hall
  have hrotations : (exec (step plainEnv) init racingRefreshes).map St.rotations =
      some [(10, 11), (10, 12)] := by
    decide
  obtain ⟨s, hs, hrot⟩ := Option.map_eq_some_iff.mp hrotations
  have hnodup := (hall plainEnv s (run_of_exec hs)).1
  rw [St.redeemed, hrot] at hnodup
  exact absurd hnodup (by decide)

end Ekip.Core.Auth.SessionRace
