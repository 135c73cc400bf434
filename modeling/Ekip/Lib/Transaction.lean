import Ekip.Lib.Service

/-!
# A transaction that a failed statement aborts

After a statement of a transaction has failed, every later one fails, until the
transaction ends. A handler that catches the exception of the failed statement
does not change that. `scope` opens a transaction, commits it on return and rolls
it back on a raise; the commit of an aborted transaction is a rollback.
-/
namespace Ekip.Lib

variable {ε σ τ α β : Type}

namespace Service

/-- Run `x` and go on with what it returned or raised: the body of a `try`. -/
def attempt (x : Service ε σ α) : Service ε σ (Except ε α) := fun s => (.ok (x s).1, (x s).2)

@[simp] theorem attempt_returns {x : Service ε σ α} {s t : σ} {r : Except ε α} :
    (attempt x).Returns s r t ↔ x s = (r, t) := by
  unfold Returns attempt
  cases x s with
  | mk r' t' => simp

/-- The rule for a `try` and its handler. -/
theorem Ensures.handle {I : σ → Prop} {E E' : ε → Prop} {x : Service ε σ α}
    {f : Except ε α → Service ε σ β} (hx : Ensures I E x) (hok : ∀ a, Ensures I E' (f (.ok a)))
    (herror : ∀ e, E e → Ensures I E' (f (.error e))) : Ensures I E' (attempt x >>= f) := by
  intro s hs
  obtain ⟨hend, hraise⟩ := hx s hs
  have hattempt : attempt x s = (.ok (x s).1, (x s).2) := rfl
  show I ((attempt x >>= f) s).2 ∧ ∀ e, ((attempt x >>= f) s).1 = .error e → E' e
  rw [bind_of_ok hattempt]
  cases hr : (x s).1 with
  | ok a => exact hok a _ hend
  | error e => exact herror e (hraise e hr) _ hend

end Service

/-- The tables as an open transaction sees them. -/
structure Transaction (σ : Type) where
  tables : σ
  aborted : Bool := false
  /-- How many of the statements that may fail were issued. -/
  issued : Nat := 0

namespace Transaction

/-- One statement. In an aborted transaction it raises `refused`. It fails with
`fault` if one is given, and with what `x` raises; both abort the transaction. -/
def statement (refused : ε) (fault : Option ε) (x : Service ε σ α) :
    Service ε (Transaction σ) α := fun t =>
  if t.aborted then (.error refused, t)
  else match fault with
    | some e => (.error e, { t with aborted := true })
    | none =>
      match x t.tables with
      | (.ok a, tables) => (.ok a, { t with tables })
      | (.error e, _) => (.error e, { t with aborted := true })

/-- A statement that may fail: `faults` says which of those that are issued do. -/
def fallible (refused : ε) (faults : Nat → Option ε) (x : Service ε σ α) :
    Service ε (Transaction σ) α := fun t =>
  if t.aborted then (.error refused, t)
  else statement refused (faults t.issued) x { t with issued := t.issued + 1 }

/-- The session scope around a request. -/
def scope (x : Service ε (Transaction σ) α) : Service ε σ α := fun s =>
  match x { tables := s } with
  | (.ok a, t) => (.ok a, if t.aborted then s else t.tables)
  | (.error e, _) => (.error e, s)

variable {refused : ε} {x : Service ε σ α} {t u : Transaction σ} {a : α}

theorem statement_returns :
    (statement refused none x).Returns t a u ↔
      t.aborted = false ∧ ∃ tables, x.Returns t.tables a tables ∧ u = { t with tables } := by
  unfold Service.Returns statement
  cases habort : t.aborted with
  | true => simp
  | false =>
    cases hx : x t.tables with
    | mk r tables =>
      cases r with
      | error e => simp
      | ok b =>
        constructor
        · intro h
          simp only [Bool.false_eq_true, if_false, Prod.mk.injEq, Except.ok.injEq] at h
          exact ⟨rfl, tables, by rw [h.1], h.2.symm⟩
        · intro h
          obtain ⟨-, tables', hpair, hu⟩ := h
          obtain ⟨rfl, rfl⟩ : b = a ∧ tables = tables' := by simpa using hpair
          simp [hu]

/-- An aborted transaction refuses the statement. -/
theorem statement_of_aborted {fault : Option ε} (h : t.aborted = true) :
    statement refused fault x t = (.error refused, t) := by
  unfold statement
  rw [if_pos h]

theorem statement_issued {fault : Option ε} :
    (statement refused fault x t).2.issued = t.issued := by
  unfold statement
  split
  · rfl
  · split
    · rfl
    · split <;> rfl

theorem scope_of_returns {y : Service ε (Transaction σ) α} {s : σ}
    (hy : y.Returns { tables := s } a t) (habort : t.aborted = false) :
    scope y s = (.ok a, t.tables) := by
  unfold Service.Returns at hy
  unfold scope
  rw [hy]
  simp only [habort, Bool.false_eq_true, if_false]

/-- What does not return leaves nothing. -/
theorem scope_of_raises {y : Service ε (Transaction σ) α} {s : σ}
    (hy : ∀ a t, ¬ y.Returns { tables := s } a t) : (scope y s).2 = s := by
  unfold scope
  cases h : y { tables := s } with
  | mk r t =>
    cases r with
    | error e => rfl
    | ok a => exact absurd h (hy a t)

end Transaction

end Ekip.Lib
