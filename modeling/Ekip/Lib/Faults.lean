import Mathlib.Data.Option.Basic
import Ekip.Lib.Transaction

/-!
# Programs under a choice of failing statements

A program `P` takes the choice of the statements that fail, by their number in the
order in which they are issued. `Faulty` says that it runs as it does without a
failure as long as no statement of that run fails, and leaves an aborted transaction
if one does. The rules build it up along the program.
-/
namespace Ekip.Lib

variable {ε σ τ υ α β : Type}

/-- The error of the n-th statement, where it fails. -/
abbrev Faults (ε : Type) := Nat → Option ε

def noFaults : Faults ε := fun _ => none

/-- What the rules look at in a session. -/
structure Status where
  aborted : Bool
  issued : Nat

def Transaction.status (t : Transaction σ) : Status := { aborted := t.aborted, issued := t.issued }

/-- None of the statements that the failure-free run issues fails. -/
def Spared (status : τ → Status) (P : Faults ε → Service ε τ α) (faults : Faults ε) (t : τ) : Prop :=
  ∀ n, (status t).issued ≤ n → n < (status (P noFaults t).2).issued → faults n = none

structure Faulty (status : τ → Status) (P : Faults ε → Service ε τ α) : Prop where
  /-- An aborted transaction stays aborted. -/
  keeps : ∀ faults t, (status t).aborted = true → (status (P faults t).2).aborted = true
  grows : ∀ t, (status t).issued ≤ (status (P noFaults t).2).issued
  spared : ∀ faults t, Spared status P faults t → P faults t = P noFaults t
  failed : ∀ faults t, ¬ Spared status P faults t → (status (P faults t).2).aborted = true

namespace Faulty

variable {status : τ → Status} {P : Faults ε → Service ε τ α}

/-- A part that issues none of the statements in question. -/
theorem fixed {x : Service ε τ α}
    (hkeeps : ∀ t, (status t).aborted = true → (status (x t).2).aborted = true)
    (hissued : ∀ t, (status (x t).2).issued = (status t).issued) :
    Faulty status (fun _ => x) where
  keeps _ t h := hkeeps t h
  grows t := Nat.le_of_eq (hissued t).symm
  spared _ _ _ := rfl
  failed faults t h := by
    refine absurd ?_ h
    intro n hle hlt
    rw [hissued] at hlt
    exact absurd hlt (Nat.not_lt.mpr hle)

/-- A part that does not touch the transaction. -/
theorem quiet {x : Service ε τ α} (h : ∀ t, status (x t).2 = status t) :
    Faulty status (fun _ => x) :=
  fixed (fun t ht => by rw [h t]; exact ht) fun t => by rw [h t]

theorem pure (a : α) : Faulty status (fun _ => (pure a : Service ε τ α)) := quiet fun _ => rfl

theorem raise (e : ε) : Faulty status (fun _ => (Service.raise e : Service ε τ α)) :=
  quiet fun _ => rfl

theorem ofExcept (r : Except ε α) : Faulty status (fun _ => (Service.ofExcept r : Service ε τ α)) :=
  quiet fun _ => rfl

theorem bind {F : α → Faults ε → Service ε τ β} (hP : Faulty status P)
    (hF : ∀ a, Faulty status (F a)) :
    Faulty status (fun faults => P faults >>= fun a => F a faults) := by
  -- what the second part does after the first one aborted the transaction
  have hafter : ∀ faults t, (status (P faults t).2).aborted = true →
      (status ((P faults >>= fun a => F a faults) t).2).aborted = true := by
    intro faults t habort
    cases hx : P faults t with
    | mk r u =>
      rw [hx] at habort
      cases r with
      | error e => rw [Service.bind_of_error hx]; exact habort
      | ok a => rw [Service.bind_of_ok hx]; exact (hF a).keeps faults u habort
  -- the whole issues what the first part issues, and after it what the second does
  have hissued_error : ∀ {t u e}, P noFaults t = (.error e, u) →
      (status ((P noFaults >>= fun a => F a noFaults) t).2).issued = (status u).issued := by
    intro t u e hx
    rw [Service.bind_of_error hx]
  have hissued_ok : ∀ {t u a}, P noFaults t = (.ok a, u) →
      (status ((P noFaults >>= fun a => F a noFaults) t).2).issued =
        (status (F a noFaults u).2).issued := by
    intro t u a hx
    rw [Service.bind_of_ok hx]
  constructor
  · intro faults t habort
    exact hafter faults t (hP.keeps faults t habort)
  · intro t
    show (status t).issued ≤ (status ((P noFaults >>= fun a => F a noFaults) t).2).issued
    have hfirst := hP.grows t
    cases hx : P noFaults t with
    | mk r u =>
      rw [hx] at hfirst
      cases r with
      | error e => rw [hissued_error hx]; exact hfirst
      | ok a => rw [hissued_ok hx]; exact Nat.le_trans hfirst ((hF a).grows u)
  · intro faults t hspared
    show (P faults >>= fun a => F a faults) t = (P noFaults >>= fun a => F a noFaults) t
    cases hx : P noFaults t with
    | mk r u =>
      cases r with
      | error e =>
        have hP' : Spared status P faults t := by
          intro n hle hlt
          refine hspared n hle (Nat.lt_of_lt_of_eq ?_ (hissued_error hx).symm)
          rw [hx] at hlt
          exact hlt
        rw [Service.bind_of_error hx, Service.bind_of_error ((hP.spared faults t hP').trans hx)]
      | ok a =>
        have hgrow := (hF a).grows u
        have hP' : Spared status P faults t := by
          intro n hle hlt
          refine hspared n hle (Nat.lt_of_lt_of_eq ?_ (hissued_ok hx).symm)
          rw [hx] at hlt
          exact Nat.lt_of_lt_of_le hlt hgrow
        have hF' : Spared status (F a) faults u := by
          intro n hle hlt
          refine hspared n ?_ (Nat.lt_of_lt_of_eq hlt (hissued_ok hx).symm)
          have hfirst := hP.grows t
          rw [hx] at hfirst
          exact Nat.le_trans hfirst hle
        rw [Service.bind_of_ok hx, Service.bind_of_ok ((hP.spared faults t hP').trans hx)]
        exact (hF a).spared faults u hF'
  · intro faults t hnot
    show (status ((P faults >>= fun a => F a faults) t).2).aborted = true
    by_cases hP' : Spared status P faults t
    · have hsame := hP.spared faults t hP'
      cases hx : P noFaults t with
      | mk r u =>
        cases r with
        | error e =>
          refine absurd ?_ hnot
          intro n hle hlt
          apply hP' n hle
          rw [hx]
          exact Nat.lt_of_lt_of_eq hlt (hissued_error hx)
        | ok a =>
          have hF' : ¬ Spared status (F a) faults u := by
            intro hF'
            apply hnot
            intro n hle hlt
            have hlast := Nat.lt_of_lt_of_eq hlt (hissued_ok hx)
            by_cases hfirst : n < (status u).issued
            · apply hP' n hle
              rw [hx]
              exact hfirst
            · exact hF' n (Nat.le_of_not_lt hfirst) hlast
          rw [Service.bind_of_ok (hsame.trans hx)]
          exact (hF a).failed faults u hF'
    · exact hafter faults t (hP.failed faults t hP')

theorem ite {c : Prop} [Decidable c] {Q : Faults ε → Service ε τ α} (hP : Faulty status P)
    (hQ : Faulty status Q) : Faulty status (fun faults => if c then P faults else Q faults) := by
  by_cases h : c
  · simp only [if_pos h]
    exact hP
  · simp only [if_neg h]
    exact hQ

/-- A program around `P` that hands its session in and takes its outcome out. -/
theorem through (get : υ → τ) (out : υ → Except ε α × τ → Except ε β × υ) {status' : υ → Status}
    (hP : Faulty status P) (hget : ∀ u, status (get u) = status' u)
    (hout : ∀ u r, status' (out u r).2 = status r.2) :
    Faulty status' (fun faults u => out u (P faults (get u))) where
  keeps faults u h := by
    rw [hout]
    rw [← hget] at h
    exact hP.keeps faults _ h
  grows u := by
    rw [hout, ← hget]
    exact hP.grows _
  spared faults u h := by
    have hP' : Spared status P faults (get u) := by
      intro n hle hlt
      apply h n
      · rw [← hget]
        exact hle
      · rw [hout]
        exact hlt
    rw [hP.spared faults _ hP']
  failed faults u h := by
    rw [hout]
    apply hP.failed faults
    intro hP'
    apply h
    intro n hle hlt
    rw [← hget] at hle
    rw [hout] at hlt
    exact hP' n hle hlt

/-- A program that reads what it will do in its session. -/
theorem pointwise (h : ∀ t, ∃ Q, Faulty status Q ∧ ∀ faults, P faults t = Q faults t) :
    Faulty status P where
  keeps faults t habort := by
    obtain ⟨Q, hQ, heq⟩ := h t
    rw [heq]
    exact hQ.keeps faults t habort
  grows t := by
    obtain ⟨Q, hQ, heq⟩ := h t
    rw [heq]
    exact hQ.grows t
  spared faults t hspared := by
    obtain ⟨Q, hQ, heq⟩ := h t
    unfold Spared at hspared
    rw [heq] at hspared
    rw [heq, heq]
    exact hQ.spared faults t hspared
  failed faults t hnot := by
    obtain ⟨Q, hQ, heq⟩ := h t
    unfold Spared at hnot
    rw [heq] at hnot
    rw [heq]
    exact hQ.failed faults t hnot

theorem attempt (hP : Faulty status P) : Faulty status (fun faults => Service.attempt (P faults)) :=
  hP.through id (fun _ r => (.ok r.1, r.2)) (fun _ => rfl) fun _ _ => rfl

/-- The parts of a larger session that hold the transaction. -/
theorem zoom {get : υ → τ} {set : τ → υ → υ} {status' : υ → Status} (hP : Faulty status P)
    (hget : ∀ u, status (get u) = status' u) (hset : ∀ t u, status' (set t u) = status t) :
    Faulty status' (fun faults => Service.zoom get set (P faults)) :=
  hP.through get (fun u r => (r.1, set r.2 u)) hget fun _ _ => hset _ _

/-- A statement that `faults` is not about. -/
theorem statement (refused : ε) (x : Service ε σ α) :
    Faulty Transaction.status (fun _ => Transaction.statement refused none x) := by
  apply fixed
  · intro t h
    have habort : t.aborted = true := h
    rw [Transaction.statement_of_aborted habort]
    exact h
  · intro t
    exact Transaction.statement_issued

/-- The statement that `faults` is about. -/
theorem fallible (refused : ε) (x : Service ε σ α) :
    Faulty Transaction.status (fun faults => Transaction.fallible refused faults x) := by
  have hissued : ∀ t : Transaction σ, t.aborted = false →
      (Transaction.fallible refused noFaults x t).2.issued = t.issued + 1 := by
    intro t h
    unfold Transaction.fallible
    rw [if_neg (by rw [h]; decide), Transaction.statement_issued]
  constructor
  · intro faults t h
    have habort : t.aborted = true := h
    show (Transaction.fallible refused faults x t).2.aborted = true
    unfold Transaction.fallible
    rw [if_pos habort]
    exact habort
  · intro t
    show t.issued ≤ (Transaction.fallible refused noFaults x t).2.issued
    cases habort : t.aborted with
    | true =>
      have hsame : Transaction.fallible refused noFaults x t = (.error refused, t) := by
        unfold Transaction.fallible
        rw [if_pos habort]
      exact Nat.le_of_eq (congrArg (fun r => r.2.issued) hsame).symm
    | false => exact Nat.le_trans (Nat.le_succ _) (Nat.le_of_eq (hissued t habort).symm)
  · intro faults t hspared
    cases habort : t.aborted with
    | true =>
      unfold Transaction.fallible
      rw [if_pos habort, if_pos habort]
    | false =>
      have hnone : faults t.issued = none := by
        apply hspared t.issued (Nat.le_refl _)
        show t.issued < (Transaction.fallible refused noFaults x t).2.issued
        rw [hissued t habort]
        exact Nat.lt_succ_self _
      unfold Transaction.fallible
      rw [hnone]
      rfl
  · intro faults t hnot
    show (Transaction.fallible refused faults x t).2.aborted = true
    cases habort : t.aborted with
    | true =>
      unfold Transaction.fallible
      rw [if_pos habort]
      exact habort
    | false =>
      have hsome : faults t.issued ≠ none := by
        intro hnone
        apply hnot
        intro n hle hlt
        replace hlt : n < (Transaction.fallible refused noFaults x t).2.issued := hlt
        rw [hissued t habort] at hlt
        obtain rfl : n = t.issued := Nat.le_antisymm (Nat.le_of_lt_succ hlt) hle
        exact hnone
      obtain ⟨e, he⟩ := Option.ne_none_iff_exists'.mp hsome
      unfold Transaction.fallible Transaction.statement
      rw [if_neg (by rw [habort]; decide), he]
      dsimp only
      rw [if_neg (by rw [habort]; decide)]

/-- A program that returns in a healthy transaction only is one that a failing statement
keeps from returning. -/
theorem returns_iff {t : τ} (hP : Faulty status P)
    (hhealthy : ∀ faults a u, (P faults).Returns t a u → (status u).aborted = false)
    (faults : Faults ε) :
    (∃ a u, (P faults).Returns t a u) ↔
      (∃ a u, (P noFaults).Returns t a u) ∧ Spared status P faults t := by
  constructor
  · intro h
    obtain ⟨a, u, hreturns⟩ := h
    have hspared : Spared status P faults t := by
      by_contra hnot
      have habort := hP.failed faults t hnot
      rw [show (P faults t).2 = u from congrArg Prod.snd hreturns, hhealthy faults a u hreturns]
        at habort
      cases habort
    exact ⟨⟨a, u, (hP.spared faults t hspared).symm.trans hreturns⟩, hspared⟩
  · intro h
    obtain ⟨⟨a, u, hreturns⟩, hspared⟩ := h
    exact ⟨a, u, (hP.spared faults t hspared).trans hreturns⟩

end Faulty

end Ekip.Lib
