import Ekip.Lib.Transaction

/-!
# Retrying an operation

Attempts are numbered from 0. What `caught` catches is noted and the operation is
tried again, until no attempt remains; the last exception is raised. Every rule is
about one attempt: what it keeps the retries keep, what it costs they cost at most
once an attempt, and what they return is what some attempt returned.
-/
namespace Ekip.Lib.Service

variable {ε σ α β : Type}

/-- From the attempt of this number on. -/
def retry (caught : ε → Bool) (failed : Nat → σ → σ) (operation : Nat → Service ε σ α)
    (number : Nat) (remaining : Nat) : Service ε σ α := do
  let outcome ← attempt (operation number)
  match outcome with
  | .ok a => pure a
  | .error e =>
    if caught e then do
      write (failed (number + 1))
      match remaining with
      | 0 => raise e
      | remaining + 1 => retry caught failed operation (number + 1) remaining
    else raise e

section Rules

variable {caught : ε → Bool} {failed : Nat → σ → σ} {operation : Nat → Service ε σ α}

theorem retry_of_ok {number remaining : Nat} {s t : σ} {a : α}
    (h : operation number s = (.ok a, t)) :
    retry caught failed operation number remaining s = (.ok a, t) := by
  have hattempt : attempt (operation number) s = (.ok (.ok a), t) := attempt_returns.mpr h
  rw [retry, bind_of_ok hattempt]
  rfl

theorem retry_of_uncaught {number remaining : Nat} {s t : σ} {e : ε}
    (h : operation number s = (.error e, t)) (he : caught e = false) :
    retry caught failed operation number remaining s = (.error e, t) := by
  have hattempt : attempt (operation number) s = (.ok (.error e), t) := attempt_returns.mpr h
  rw [retry, bind_of_ok hattempt]
  simp only [he, Bool.false_eq_true, if_false]
  rfl

theorem retry_of_last {number : Nat} {s t : σ} {e : ε} (failed : Nat → σ → σ)
    (h : operation number s = (.error e, t)) (he : caught e = true) :
    retry caught failed operation number 0 s = (.error e, failed (number + 1) t) := by
  have hattempt : attempt (operation number) s = (.ok (.error e), t) := attempt_returns.mpr h
  rw [retry, bind_of_ok hattempt]
  simp only [he, if_true]
  rfl

theorem retry_of_caught {number remaining : Nat} {s t : σ} {e : ε}
    (h : operation number s = (.error e, t)) (he : caught e = true) :
    retry caught failed operation number (remaining + 1) s =
      retry caught failed operation (number + 1) remaining (failed (number + 1) t) := by
  have hattempt : attempt (operation number) s = (.ok (.error e), t) := attempt_returns.mpr h
  rw [retry, bind_of_ok hattempt]
  simp only [he, if_true]
  rfl

/-- The induction over the attempts that remain, one case for each way an attempt ends. -/
theorem retry_induction {motive : Nat → σ → Except ε α × σ → Prop}
    (hok : ∀ k remaining s a t, operation k s = (.ok a, t) → motive remaining s (.ok a, t))
    (huncaught : ∀ k remaining s e t, operation k s = (.error e, t) → caught e = false →
      motive remaining s (.error e, t))
    (hlast : ∀ k s e t, operation k s = (.error e, t) → motive 0 s (.error e, failed (k + 1) t))
    (hagain : ∀ k remaining s e t out, operation k s = (.error e, t) →
      motive remaining (failed (k + 1) t) out → motive (remaining + 1) s out)
    (number remaining : Nat) (s : σ) :
    motive remaining s (retry caught failed operation number remaining s) := by
  induction remaining generalizing number s with
  | zero =>
    cases hrun : operation number s with
    | mk r t =>
      cases r with
      | ok a =>
        rw [retry_of_ok hrun]
        exact hok number 0 s a t hrun
      | error e =>
        cases he : caught e with
        | true =>
          rw [retry_of_last failed hrun he]
          exact hlast number s e t hrun
        | false =>
          rw [retry_of_uncaught hrun he]
          exact huncaught number 0 s e t hrun he
  | succ remaining ih =>
    cases hrun : operation number s with
    | mk r t =>
      cases r with
      | ok a =>
        rw [retry_of_ok hrun]
        exact hok number (remaining + 1) s a t hrun
      | error e =>
        cases he : caught e with
        | true =>
          rw [retry_of_caught hrun he]
          exact hagain number remaining s e t _ hrun (ih (number + 1) (failed (number + 1) t))
        | false =>
          rw [retry_of_uncaught hrun he]
          exact huncaught number (remaining + 1) s e t hrun he

/-- What the retries return, some attempt returned. -/
theorem retry_returns {number remaining : Nat} {s t : σ} {a : α}
    (h : (retry caught failed operation number remaining).Returns s a t) :
    ∃ k u, (operation k).Returns u a t := by
  have hrun : ∀ a t, retry caught failed operation number remaining s = (.ok a, t) →
      ∃ k u, (operation k).Returns u a t := by
    refine retry_induction (motive := fun _ _ out => ∀ a t, out = (.ok a, t) →
      ∃ k u, (operation k).Returns u a t) ?_ ?_ ?_ ?_ number remaining s
    · intro k _ s a t hok b u heq
      exact ⟨k, s, hok.trans heq⟩
    · intro _ _ _ e _ _ _ b u heq
      cases heq
    · intro _ _ e _ _ b u heq
      cases heq
    · intro _ _ _ _ _ _ _ hrest
      exact hrest
  exact hrun a t h

variable {κ : Type} (caught failed operation)

/-- What no attempt and no note touches, the retries leave alone. -/
theorem retry_keeps (f : σ → κ) (hstep : ∀ k s, f (operation k s).2 = f s) (hnote : ∀ k s, f (failed k s) = f s)
    (number remaining : Nat) (s : σ) :
    f (retry caught failed operation number remaining s).2 = f s := by
  have hkept : ∀ {k s r t}, operation k s = (r, t) → f t = f s := by
    intro k s r t hrun
    rw [← hstep k s, hrun]
  refine retry_induction (motive := fun _ s out => f out.2 = f s) ?_ ?_ ?_ ?_ number remaining s
  · intro k _ s a t hok
    exact hkept hok
  · intro k _ s e t hrun _
    exact hkept hrun
  · intro k s e t hrun
    show f (failed (k + 1) t) = f s
    rw [hnote, hkept hrun]
  · intro k _ s e t out hrun hrest
    rw [hrest, hnote, hkept hrun]

/-- The retries cost at most what that many attempts cost. -/
theorem retry_cost (cost : σ → Nat) (n : Nat)
    (hstep : ∀ k s, cost (operation k s).2 ≤ cost s + n)
    (hnote : ∀ k s, cost (failed k s) = cost s) (number remaining : Nat) (s : σ) :
    cost (retry caught failed operation number remaining s).2 ≤ cost s + (remaining + 1) * n := by
  have hspent : ∀ {k s r t}, operation k s = (r, t) → cost t ≤ cost s + n := by
    intro k s r t hrun
    have h := hstep k s
    rw [hrun] at h
    exact h
  have hone : ∀ remaining : Nat, n ≤ (remaining + 1) * n := by
    intro remaining
    rw [Nat.succ_mul]
    exact Nat.le_add_left _ _
  refine retry_induction (motive := fun remaining s out => cost out.2 ≤ cost s + (remaining + 1) * n)
    ?_ ?_ ?_ ?_ number remaining s
  · intro k remaining s a t hok
    exact Nat.le_trans (hspent hok) (Nat.add_le_add_left (hone remaining) _)
  · intro k remaining s e t hrun _
    exact Nat.le_trans (hspent hrun) (Nat.add_le_add_left (hone remaining) _)
  · intro k s e t hrun
    show cost (failed (k + 1) t) ≤ cost s + (0 + 1) * n
    rw [hnote]
    exact Nat.le_trans (hspent hrun) (Nat.add_le_add_left (hone 0) _)
  · intro k remaining s e t out hrun hrest
    have hfirst := hspent hrun
    rw [hnote] at hrest
    calc cost out.2 ≤ cost t + (remaining + 1) * n := hrest
      _ ≤ cost s + n + (remaining + 1) * n := Nat.add_le_add_right hfirst _
      _ = cost s + (remaining + 1 + 1) * n := by rw [Nat.succ_mul (remaining + 1)]; omega

end Rules

end Ekip.Lib.Service
