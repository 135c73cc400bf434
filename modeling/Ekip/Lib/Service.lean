import Mathlib.Logic.Basic

/-!
# Operations on a database that may raise

An operation receives the database and returns a value or an error together
with the database as it then stands: raising does not undo what was written
before. `transaction` is the session scope around a request, which commits on
return and rolls everything back when the operation raises.
-/
namespace Ekip.Lib

variable {ε σ τ α β : Type}

def Service (ε σ α : Type) : Type := σ → Except ε α × σ

namespace Service

def raise (e : ε) : Service ε σ α := fun s => (.error e, s)

/-- `if condition: raise e`. -/
def raiseIf (condition : Bool) (e : ε) : Service ε σ Unit := fun s =>
  if condition then (.error e, s) else (.ok (), s)

/-- A query: it reads the database and leaves it alone. -/
def read (f : σ → α) : Service ε σ α := fun s => (.ok (f s), s)

def write (f : σ → σ) : Service ε σ Unit := fun s => (.ok (), f s)

/-- Fail where a lookup finds nothing. -/
def orRaise (o : Option α) (e : ε) : Service ε σ α := fun s =>
  match o with
  | some a => (.ok a, s)
  | none => (.error e, s)

/-- The answer of a call that leaves the database alone. -/
def ofExcept (r : Except ε α) : Service ε σ α := fun s => (r, s)

instance : Monad (Service ε σ) where
  pure a := fun s => (.ok a, s)
  bind x f := fun s =>
    match x s with
    | (.ok a, t) => f a t
    | (.error e, t) => (.error e, t)

/-- An operation on a part of the state. -/
def zoom (get : τ → σ) (set : σ → τ → τ) (x : Service ε σ α) : Service ε τ α := fun t =>
  ((x (get t)).1, set (x (get t)).2 t)

/-- Commit on return, roll back on a raise. -/
def transaction (x : Service ε σ α) : Service ε σ α := fun s =>
  match x s with
  | (.ok a, t) => (.ok a, t)
  | (.error e, _) => (.error e, s)

/-- `x` returns `a` from `s` and leaves `t`. -/
def Returns (x : Service ε σ α) (s : σ) (a : α) (t : σ) : Prop := x s = (.ok a, t)

variable {x : Service ε σ α} {f : α → Service ε σ β} {s t : σ} {a : α} {b : β} {e : ε}

theorem bind_of_ok (h : x s = (.ok a, t)) : (x >>= f) s = f a t := by
  simp only [bind, h]

theorem bind_of_error (h : x s = (.error e, t)) : (x >>= f) s = (.error e, t) := by
  simp only [bind, h]

theorem bind_read {g : σ → α} : (read g >>= f) s = f (g s) s := rfl

theorem orRaise_some : orRaise (some a) e s = (.ok a, s) := rfl

theorem orRaise_none : (orRaise none e : Service ε σ α) s = (.error e, s) := rfl

theorem raiseIf_of_true {c : Bool} (h : c = true) : raiseIf c e s = (.error e, s) := by
  rw [h]
  rfl

theorem raiseIf_of_false {c : Bool} (h : c = false) : raiseIf c e s = (.ok (), s) := by
  rw [h]
  rfl

theorem bind_pure_answer (x : Service ε σ α) (f : α → β) (s : σ) :
    ((x >>= fun a => pure (f a)) s).1 = (x s).1.map f := by
  simp only [bind, pure]
  cases x s with
  | mk r u => cases r <;> rfl

theorem pure_bind (a : α) (f : α → Service ε σ β) : (pure a >>= f) = f a := rfl

theorem bind_assoc {γ : Type} (x : Service ε σ α) (f : α → Service ε σ β) (g : β → Service ε σ γ) :
    (x >>= f) >>= g = x >>= fun a => f a >>= g := by
  funext s
  simp only [bind]
  cases x s with
  | mk r t => cases r <;> rfl

/-- The rule that takes a sequence of statements apart. -/
@[simp] theorem bind_returns :
    (x >>= f).Returns s b t ↔ ∃ a u, x.Returns s a u ∧ (f a).Returns u b t := by
  unfold Returns
  cases h : x s with
  | mk r u =>
    cases r with
    | error e =>
      have hb : (x >>= f) s = (.error e, u) := by
        simp only [bind, h]
      simp [hb]
    | ok a =>
      have hb : (x >>= f) s = f a u := by
        simp only [bind, h]
      rw [hb]
      constructor
      · intro hf
        exact ⟨a, u, rfl, hf⟩
      · rintro ⟨a', u', heq, hf⟩
        obtain ⟨rfl, rfl⟩ : a = a' ∧ u = u' := by simpa using heq
        exact hf

@[simp] theorem pure_returns {a' : α} :
    (pure a' : Service ε σ α).Returns s a t ↔ a' = a ∧ s = t := by
  simp [Returns, pure]

@[simp] theorem raise_returns : ¬ (raise e : Service ε σ α).Returns s a t := by
  simp [Returns, raise]

@[simp] theorem raiseIf_returns {c : Bool} {u : Unit} :
    (raiseIf c e : Service ε σ Unit).Returns s u t ↔ c = false ∧ s = t := by
  cases c <;> simp [Returns, raiseIf]

@[simp] theorem read_returns {g : σ → α} :
    (read g : Service ε σ α).Returns s a t ↔ g s = a ∧ s = t := by
  simp [Returns, read]

@[simp] theorem write_returns {g : σ → σ} {u : Unit} :
    (write g : Service ε σ Unit).Returns s u t ↔ g s = t := by
  simp [Returns, write]

@[simp] theorem orRaise_returns {o : Option α} :
    (orRaise o e : Service ε σ α).Returns s a t ↔ o = some a ∧ s = t := by
  cases o <;> simp [Returns, orRaise]

@[simp] theorem ofExcept_returns {r : Except ε α} :
    (ofExcept r : Service ε σ α).Returns s a t ↔ r = .ok a ∧ s = t := by
  simp [Returns, ofExcept]

@[simp] theorem ite_returns {c : Prop} [Decidable c] {y : Service ε σ α} :
    (if c then x else y).Returns s a t ↔ (c ∧ x.Returns s a t) ∨ (¬ c ∧ y.Returns s a t) := by
  by_cases h : c <;> simp [h]

@[simp] theorem zoom_returns {get : τ → σ} {set : σ → τ → τ} {u v : τ} :
    (zoom get set x).Returns u a v ↔ ∃ t, x.Returns (get u) a t ∧ set t u = v := by
  unfold Returns zoom
  cases x (get u) with
  | mk r t =>
    constructor
    · intro h
      obtain ⟨rfl, rfl⟩ : r = .ok a ∧ set t u = v := by simpa using h
      exact ⟨t, rfl, rfl⟩
    · intro h
      obtain ⟨t', ht, rfl⟩ := h
      obtain ⟨rfl, rfl⟩ : r = .ok a ∧ t = t' := by simpa using ht
      rfl

@[simp] theorem transaction_returns : (transaction x).Returns s a t ↔ x.Returns s a t := by
  unfold Returns transaction
  cases x s with
  | mk r u => cases r <;> simp

/-- `x` raises `e` from `s`. -/
def Raises (x : Service ε σ α) (s : σ) (e : ε) : Prop := (x s).1 = .error e

@[simp] theorem bind_raises :
    (x >>= f).Raises s e ↔ x.Raises s e ∨ ∃ a u, x.Returns s a u ∧ (f a).Raises u e := by
  unfold Returns Raises
  simp only [bind]
  cases x s with
  | mk r u =>
    cases r with
    | error e' => simp
    | ok a =>
      refine ⟨fun h => .inr ⟨a, u, rfl, h⟩, ?_⟩
      rintro (h | ⟨a', u', heq, h⟩)
      · cases h
      · obtain ⟨rfl, rfl⟩ : a = a' ∧ u = u' := by simpa using heq
        exact h

@[simp] theorem pure_raises {a : α} : ¬ (pure a : Service ε σ α).Raises s e := by
  simp [Raises, pure]

@[simp] theorem raise_raises {e' : ε} : (raise e' : Service ε σ α).Raises s e ↔ e' = e := by
  simp [Raises, raise]

@[simp] theorem raiseIf_raises {c : Bool} {e' : ε} :
    (raiseIf c e' : Service ε σ Unit).Raises s e ↔ c = true ∧ e' = e := by
  cases c <;> simp [Raises, raiseIf]

@[simp] theorem read_raises {g : σ → α} : ¬ (read g : Service ε σ α).Raises s e := by
  simp [Raises, read]

@[simp] theorem write_raises {g : σ → σ} : ¬ (write g : Service ε σ Unit).Raises s e := by
  simp [Raises, write]

@[simp] theorem orRaise_raises {o : Option α} {e' : ε} :
    (orRaise o e' : Service ε σ α).Raises s e ↔ o = none ∧ e' = e := by
  cases o <;> simp [Raises, orRaise]

@[simp] theorem ite_raises {c : Prop} [Decidable c] {y : Service ε σ α} :
    (if c then x else y).Raises s e ↔ (c ∧ x.Raises s e) ∨ (¬ c ∧ y.Raises s e) := by
  by_cases h : c <;> simp [h]

@[simp] theorem transaction_raises : (transaction x).Raises s e ↔ x.Raises s e := by
  unfold Raises transaction
  cases x s with
  | mk r u => cases r <;> simp

theorem Returns.unique {b : α} {u : σ} (h : x.Returns s a t) (h' : x.Returns s b u) :
    a = b ∧ t = u := by
  unfold Returns at h h'
  rw [h] at h'
  simpa using h'

/-- From a state in `I` the operation ends in one, and raises only what `E` allows. -/
def Ensures (I : σ → Prop) (E : ε → Prop) (x : Service ε σ α) : Prop :=
  ∀ s, I s → I (x s).2 ∧ ∀ e, x.Raises s e → E e

namespace Ensures

variable {I : σ → Prop} {E : ε → Prop}

theorem weaken {E' : ε → Prop} (hx : Ensures I E x) (h : ∀ e, E e → E' e) : Ensures I E' x :=
  fun s hs => ⟨(hx s hs).1, fun e he => h e ((hx s hs).2 e he)⟩

theorem pure (a : α) : Ensures I E (pure a) :=
  fun _ hs => ⟨hs, fun _ he => absurd he pure_raises⟩

theorem ofExcept {r : Except ε α} (hr : ∀ e, r = .error e → E e) : Ensures I E (ofExcept r) :=
  fun _ hs => ⟨hs, fun e he => hr e he⟩

theorem bind (hx : Ensures I E x) (hf : ∀ a, Ensures I E (f a)) : Ensures I E (x >>= f) := by
  intro s hs
  obtain ⟨hfirst, hraise⟩ := hx s hs
  cases hr : x s with
  | mk r u =>
    rw [hr] at hfirst
    cases r with
    | error e =>
      rw [bind_of_error hr]
      refine ⟨hfirst, ?_⟩
      intro e' he'
      rcases bind_raises.mp he' with h | ⟨a, u', h, -⟩
      · exact hraise e' h
      · cases hr.symm.trans h
    | ok a =>
      obtain ⟨hlast, hraise'⟩ := hf a u hfirst
      rw [bind_of_ok hr]
      refine ⟨hlast, ?_⟩
      intro e' he'
      rcases bind_raises.mp he' with h | ⟨a', u', h, h'⟩
      · exact hraise e' h
      · obtain ⟨rfl, rfl⟩ := Returns.unique hr h
        exact hraise' e' h'

/-- What raises nothing returns. -/
theorem returns (hx : Ensures I (fun _ => False) x) {s : σ} (hs : I s) :
    ∃ a t, x.Returns s a t ∧ I t := by
  obtain ⟨hend, hraise⟩ := hx s hs
  cases hr : x s with
  | mk r u =>
    rw [hr] at hend
    cases r with
    | ok a => exact ⟨a, u, hr, hend⟩
    | error e =>
      refine absurd ?_ (hraise e)
      show (x s).1 = .error e
      rw [hr]

end Ensures

/-- After a transaction the database is the one the operation left if it
returned, and the old one if it raised. -/
theorem transaction_cases (x : Service ε σ α) (s : σ) :
    (∃ a t, x.Returns s a t ∧ transaction x s = (.ok a, t)) ∨
      ∃ e, x.Raises s e ∧ transaction x s = (.error e, s) := by
  unfold Returns Raises transaction
  cases x s with
  | mk r u =>
    cases r with
    | ok a => exact .inl ⟨a, u, rfl, rfl⟩
    | error e => exact .inr ⟨e, rfl, rfl⟩

end Service

end Ekip.Lib

/-!
## What an operation leaves alone

A view of the state that is the same after the operation, whether it returned or raised.
-/
namespace Ekip.Lib.Service

variable {ε σ α β ν : Type} {view : σ → ν}

def Leaves (view : σ → ν) (x : Service ε σ α) : Prop := ∀ s, view (x s).2 = view s

namespace Leaves

variable {x : Service ε σ α} {f : α → Service ε σ β}

theorem pure (a : α) : Leaves view (pure a : Service ε σ α) := fun _ => rfl

theorem read (g : σ → α) : Leaves view (read g : Service ε σ α) := fun _ => rfl

theorem orRaise (o : Option α) (e : ε) : Leaves view (orRaise o e : Service ε σ α) := by
  intro s
  cases o <;> rfl

theorem raiseIf (condition : Bool) (e : ε) : Leaves view (raiseIf condition e : Service ε σ Unit) := by
  intro s
  cases condition <;> rfl

theorem write {g : σ → σ} (h : ∀ s, view (g s) = view s) :
    Leaves view (write g : Service ε σ Unit) := h

theorem bind (hx : Leaves view x) (hf : ∀ a, Leaves view (f a)) : Leaves view (x >>= f) := by
  intro s
  cases hr : x s with
  | mk r t =>
    have hfirst : view t = view s := by
      rw [← hx s, hr]
    cases r with
    | error e =>
      rw [bind_of_error hr]
      exact hfirst
    | ok a =>
      rw [bind_of_ok hr, hf a t]
      exact hfirst

theorem returns {a : α} {s t : σ} (hx : Leaves view x) (h : x.Returns s a t) : view t = view s := by
  rw [← hx s, h]

end Leaves

end Ekip.Lib.Service
