import Mathlib.Data.List.Basic
import Mathlib.Data.List.Sort
import Ekip.Lib.Service

/-!
# Queries that filter, order and limit

A query enumerates rows, keeps some, orders them under a key and returns the
first few. `DependsOn view f` says that `f` learns of a state only what `view`
shows. The order is stable: rows whose keys tie come in the order of the table.
-/
namespace Ekip.Lib.Query

variable {σ ν α β κ ε : Type}

/-! ## What an answer depends on -/

/-- Two states that look the same through `view` have the same answer. -/
def DependsOn (view : σ → ν) (f : σ → α) : Prop := ∀ s t, view s = view t → f s = f t

namespace DependsOn

variable {view : σ → ν} {f : σ → α}

theorem const (a : α) : DependsOn view fun _ => a := by
  intro s t _
  rfl

theorem map (hf : DependsOn view f) (g : α → β) : DependsOn view fun s => g (f s) := by
  intro s t h
  show g (f s) = g (f t)
  rw [hf s t h]

/-- One statement after the other, where either may fail. -/
theorem bind {f : σ → Except ε α} {g : α → σ → Except ε β} (hf : DependsOn view f)
    (hg : ∀ a, DependsOn view (g a)) : DependsOn view fun s => f s >>= fun a => g a s := by
  intro s t h
  show (f s >>= fun a => g a s) = (f t >>= fun a => g a t)
  rw [hf s t h]
  cases f t with
  | error e => rfl
  | ok a => exact hg a s t h

theorem mapM {f : β → σ → Except ε α} (hf : ∀ b, DependsOn view (f b)) (bs : List β) :
    DependsOn view fun s => bs.mapM fun b => f b s := by
  intro s t h
  have hfun : (fun b => f b s) = fun b => f b t := by
    funext b
    exact hf b s t h
  show bs.mapM (fun b => f b s) = bs.mapM fun b => f b t
  rw [hfun]

end DependsOn

/-! ## What the answer of an operation depends on -/

/-- What `x` answers depends on the view alone, whatever it writes. -/
def Answers (view : σ → ν) (x : Service ε σ α) : Prop := DependsOn view fun s => (x s).1

/-- `x` also leaves the state alone. -/
structure Observes (view : σ → ν) (x : Service ε σ α) : Prop where
  answers : Answers view x
  keeps : ∀ s, (x s).2 = s

section Operations

variable {view : σ → ν} {x : Service ε σ α} {g : α → Service ε σ β}

theorem Observes.pure (a : α) : Observes view (Pure.pure a : Service ε σ α) where
  answers := DependsOn.const _
  keeps _ := rfl

theorem Observes.read {f : σ → α} (hf : DependsOn view f) :
    Observes view (Service.read f : Service ε σ α) where
  answers := hf.map Except.ok
  keeps _ := rfl

theorem Observes.ofExcept (r : Except ε α) : Observes view (Service.ofExcept r) where
  answers := DependsOn.const _
  keeps _ := rfl

theorem Observes.orRaise (o : Option α) (e : ε) : Observes view (Service.orRaise o e) := by
  cases o with
  | none | some a => exact ⟨DependsOn.const _, fun _ => rfl⟩

theorem Observes.raiseIf (condition : Bool) (e : ε) :
    Observes view (Service.raiseIf condition e) := by
  cases condition with
  | false | true => exact ⟨DependsOn.const _, fun _ => rfl⟩

/-- An operation that observes, and then whatever follows. -/
theorem Answers.bind (hx : Observes view x) (hg : ∀ a, Answers view (g a)) :
    Answers view (x >>= g) := by
  intro s t h
  show ((x >>= g) s).1 = ((x >>= g) t).1
  have hanswer : (x s).1 = (x t).1 := hx.answers s t h
  cases hs : x s with
  | mk r s' =>
    cases ht : x t with
    | mk r' t' =>
      have hs' : s' = s := by
        have hkeeps := hx.keeps s
        rwa [hs] at hkeeps
      have ht' : t' = t := by
        have hkeeps := hx.keeps t
        rwa [ht] at hkeeps
      rw [hs, ht] at hanswer
      obtain rfl : r = r' := hanswer
      cases r with
      | error e => rw [Service.bind_of_error hs, Service.bind_of_error ht]
      | ok a =>
        rw [Service.bind_of_ok hs, Service.bind_of_ok ht, hs', ht']
        exact hg a s t h

theorem Observes.bind (hx : Observes view x) (hg : ∀ a, Observes view (g a)) :
    Observes view (x >>= g) where
  answers := Answers.bind hx fun a => (hg a).answers
  keeps s := by
    have hkeeps := hx.keeps s
    cases hs : x s with
    | mk r s' =>
      rw [hs] at hkeeps
      obtain rfl : s' = s := hkeeps
      cases r with
      | error e => rw [Service.bind_of_error hs]
      | ok a =>
        rw [Service.bind_of_ok hs]
        exact (hg a).keeps s'

/-- An operation that always succeeds, with one and the same answer. -/
theorem Answers.of_ok {a : α} (h : ∀ s, ∃ t, x.Returns s a t) : Answers view x := by
  intro s t _
  show (x s).1 = (x t).1
  obtain ⟨s', hs⟩ := h s
  obtain ⟨t', ht⟩ := h t
  rw [hs, ht]

end Operations

/-! ## Statements that may fail -/

theorem bind_ok {x : Except ε α} {f : α → Except ε β} {b : β} :
    (x >>= f) = .ok b ↔ ∃ a, x = .ok a ∧ f a = .ok b := by
  cases x with
  | error e =>
    constructor
    · intro h
      cases h
    · intro h
      obtain ⟨a, ha, -⟩ := h
      cases ha
  | ok a =>
    constructor
    · intro h
      exact ⟨a, rfl, h⟩
    · intro h
      obtain ⟨a', ha, hb⟩ := h
      cases ha
      exact hb

theorem map_ok {x : Except ε α} {f : α → β} {b : β} :
    x.map f = .ok b ↔ ∃ a, x = .ok a ∧ f a = b := by
  cases x <;> simp [Except.map]

/-- What a loop collects was returned by one of its rounds. -/
theorem mem_of_mapM_ok {f : β → Except ε α} {bs : List β} {as : List α}
    (h : bs.mapM f = .ok as) {a : α} (ha : a ∈ as) : ∃ b ∈ bs, f b = .ok a := by
  induction bs generalizing as with
  | nil =>
    rw [List.mapM_nil] at h
    cases h
    cases ha
  | cons b bs ih =>
    rw [List.mapM_cons] at h
    obtain ⟨a', hb, h⟩ := bind_ok.mp h
    obtain ⟨as', hbs, h⟩ := bind_ok.mp h
    cases h
    rcases List.mem_cons.mp ha with rfl | hmem
    · exact ⟨b, List.mem_cons_self, hb⟩
    · obtain ⟨b', hb', hf⟩ := ih hbs hmem
      exact ⟨b', List.mem_cons_of_mem _ hb', hf⟩

/-- A loop whose rounds return where those of another loop do. -/
theorem mapM_ok_of {α' : Type} {f : β → Except ε α} {g : β → Except ε α'}
    (hg : ∀ b a, f b = .ok a → ∃ a', g b = .ok a') {bs : List β} {as : List α}
    (h : bs.mapM f = .ok as) : ∃ as', bs.mapM g = .ok as' := by
  induction bs generalizing as with
  | nil => exact ⟨[], List.mapM_nil⟩
  | cons b bs ih =>
    rw [List.mapM_cons] at h
    obtain ⟨a, hb, h⟩ := bind_ok.mp h
    obtain ⟨rest, hbs, -⟩ := bind_ok.mp h
    obtain ⟨a', ha'⟩ := hg b a hb
    obtain ⟨as', has'⟩ := ih hbs
    rw [List.mapM_cons, ha', has']
    exact ⟨a' :: as', rfl⟩

/-! ## Filters -/

/-- A join enumerates only the rows that find a partner. -/
theorem flatMap_filter {p : α → Bool} {f : α → List β} (h : ∀ a, p a = false → f a = [])
    (rows : List α) : (rows.filter p).flatMap f = rows.flatMap f := by
  induction rows with
  | nil => rfl
  | cons a rows ih =>
    by_cases hp : p a = true
    · rw [List.filter_cons_of_pos hp, List.flatMap_cons, List.flatMap_cons, ih]
    · have hfalse : p a = false := by simpa using hp
      rw [List.filter_cons_of_neg hp, List.flatMap_cons, h a hfalse, ih, List.nil_append]

/-! ## Order and limit -/

/-- `ORDER BY key`. -/
def orderBy (le : κ → κ → Bool) (key : α → κ) (rows : List α) : List α :=
  rows.mergeSort fun a b => le (key a) (key b)

@[simp] theorem mem_orderBy {le : κ → κ → Bool} {key : α → κ} {rows : List α} {a : α} :
    a ∈ orderBy le key rows ↔ a ∈ rows := by
  simp [orderBy]

@[simp] theorem orderBy_singleton (le : κ → κ → Bool) (key : α → κ) (a : α) :
    orderBy le key [a] = [a] := by
  simp [orderBy]

/-- `LIMIT n`, which is refused where `n` is negative. -/
def limit (refusal : ε) (n : Int) (rows : List α) : Except ε (List α) :=
  if n < 0 then .error refusal else .ok (rows.take n.toNat)

/-- `OFFSET n`, likewise. -/
def offset (refusal : ε) (n : Int) (rows : List α) : Except ε (List α) :=
  if n < 0 then .error refusal else .ok (rows.drop n.toNat)

theorem mem_of_limit {refusal : ε} {n : Int} {rows page : List α} (h : limit refusal n rows = .ok page)
    {a : α} (ha : a ∈ page) : a ∈ rows := by
  unfold limit at h
  split at h
  · cases h
  · cases h
    exact List.mem_of_mem_take ha

theorem mem_of_offset {refusal : ε} {n : Int} {rows page : List α}
    (h : offset refusal n rows = .ok page) {a : α} (ha : a ∈ page) : a ∈ rows := by
  unfold offset at h
  split at h
  · cases h
  · cases h
    exact List.mem_of_mem_drop ha

/-- The slice `rows[:n]`: a negative `n` counts from the end. -/
def sliceTo (n : Int) (rows : List α) : List α :=
  if n < 0 then rows.take (rows.length - n.natAbs) else rows.take n.toNat

theorem mem_of_mem_sliceTo {n : Int} {rows : List α} {a : α} (h : a ∈ sliceTo n rows) :
    a ∈ rows := by
  unfold sliceTo at h
  split at h
  · exact List.mem_of_mem_take h
  · exact List.mem_of_mem_take h

end Ekip.Lib.Query
