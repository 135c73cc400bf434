import Mathlib.Data.Option.Basic
import Mathlib.Logic.Function.Basic

/-!
# Runs of a labelled partial step function

A system is a function `step : σ → α → Option σ`: the label names who moves and
what the environment answers, and `none` says that the move is not enabled. A
run may be restricted by a condition `ok` on the label and the state before the
step. Nothing here mentions a particular program.
-/
namespace Ekip.Lib

variable {σ α : Type} {step : σ → α → Option σ} {ok ok' : σ → α → Prop}

/-- `Run step ok s t`: some finite sequence of enabled steps leads from `s` to
`t`, and each of them satisfies `ok` where it is taken. -/
inductive Run (step : σ → α → Option σ) (ok : σ → α → Prop) : σ → σ → Prop
  | refl (s : σ) : Run step ok s s
  | tail {s t u : σ} {a : α} : Run step ok s t → ok t a → step t a = some u → Run step ok s u

/-- No condition on the steps. -/
def anyStep : σ → α → Prop := fun _ _ => True

/-- Replay a list of labels. -/
def exec (step : σ → α → Option σ) : σ → List α → Option σ
  | s, [] => some s
  | s, a :: as => (step s a).bind fun t => exec step t as

/-- Replay a list of labels as long as each step satisfies `ok`. -/
def execWithin (step : σ → α → Option σ) (ok : σ → α → Prop) [∀ s a, Decidable (ok s a)] :
    σ → List α → Option σ
  | s, [] => some s
  | s, a :: as => if ok s a then (step s a).bind fun t => execWithin step ok t as else none

namespace Run

theorem single {s t : σ} {a : α} (hok : ok s a) (h : step s a = some t) : Run step ok s t :=
  .tail (.refl s) hok h

theorem trans {s t u : σ} (hst : Run step ok s t) (htu : Run step ok t u) : Run step ok s u := by
  induction htu with
  | refl => exact hst
  | tail _ hok h ih => exact .tail ih hok h

theorem weaken (himp : ∀ s a, ok s a → ok' s a) {s t : σ} (h : Run step ok s t) :
    Run step ok' s t := by
  induction h with
  | refl => exact .refl _
  | tail _ hok hs ih => exact .tail ih (himp _ _ hok) hs

/-- The induction every safety argument uses: a property of the first state
that each admitted step keeps holds of the last state. -/
theorem invariant {I : σ → Prop}
    (hstep : ∀ s a t, I s → ok s a → step s a = some t → I t)
    {s t : σ} (h : Run step ok s t) (hs : I s) : I t := by
  induction h with
  | refl => exact hs
  | tail _ hok hstep' ih => exact hstep _ _ _ ih hok hstep'

/-- The same for a reflexive and transitive relation between the first and the
last state, under an invariant that is known along the whole run. -/
theorem relation {I : σ → Prop} {R : σ → σ → Prop}
    (hI : ∀ s a t, I s → ok s a → step s a = some t → I t)
    (hrefl : ∀ s, R s s) (htrans : ∀ s t u, R s t → R t u → R s u)
    (hstep : ∀ s a t, I s → ok s a → step s a = some t → R s t)
    {s t : σ} (h : Run step ok s t) (hs : I s) : R s t := by
  induction h with
  | refl => exact hrefl _
  | tail hrun hok hst ih =>
    exact htrans _ _ _ ih (hstep _ _ _ (hrun.invariant hI hs) hok hst)

end Run

/-- A replayed list of labels that are admitted in every state is a run. -/
theorem run_of_exec_admitted {s t : σ} {as : List α} (hok : ∀ a ∈ as, ∀ s, ok s a)
    (h : exec step s as = some t) : Run step ok s t := by
  induction as generalizing s with
  | nil =>
    obtain rfl := Option.some.inj h
    exact .refl _
  | cons a as ih =>
    obtain ⟨u, hu, ht⟩ := Option.bind_eq_some_iff.mp h
    have hrest : ∀ b ∈ as, ∀ s, ok s b := fun b hb => hok b (List.mem_cons_of_mem _ hb)
    exact (Run.single (hok a List.mem_cons_self s) hu).trans (ih hrest ht)

theorem run_of_exec {s t : σ} {as : List α} (h : exec step s as = some t) :
    Run step anyStep s t :=
  run_of_exec_admitted (fun _ _ _ => trivial) h

theorem run_of_execWithin [∀ s a, Decidable (ok s a)] {s t : σ} {as : List α}
    (h : execWithin step ok s as = some t) : Run step ok s t := by
  induction as generalizing s with
  | nil =>
    obtain rfl := Option.some.inj h
    exact .refl _
  | cons a as ih =>
    unfold execWithin at h
    split at h
    case isFalse => cases h
    case isTrue hok =>
      obtain ⟨u, hu, ht⟩ := Option.bind_eq_some_iff.mp h
      exact (Run.single hok hu).trans (ih ht)

/-- What can be computed of a replay, as a fact about the state it leads to. -/
theorem exists_of_exec {s : σ} {as : List α} {p : σ → Prop} [DecidablePred p]
    (h : (exec step s as).any (fun t => decide (p t)) = true) :
    ∃ t, exec step s as = some t ∧ p t := by
  obtain ⟨t, ht, hp⟩ := (Option.any_eq_true _ _).mp h
  exact ⟨t, ht, of_decide_eq_true hp⟩

/-- The same for two replays that are compared. -/
theorem exists_of_exec_pair {s : σ} {as bs : List α} {p : σ → σ → Prop} [∀ t u, Decidable (p t u)]
    (h : ((exec step s as).any fun t => (exec step s bs).any fun u => decide (p t u)) = true) :
    ∃ t u, exec step s as = some t ∧ exec step s bs = some u ∧ p t u := by
  obtain ⟨t, ht, hu⟩ := (Option.any_eq_true _ _).mp h
  obtain ⟨u, hu, hp⟩ := (Option.any_eq_true _ _).mp hu
  exact ⟨t, u, ht, hu, of_decide_eq_true hp⟩

theorem exists_of_execWithin [∀ s a, Decidable (ok s a)] {s : σ} {as : List α} {p : σ → Prop}
    [DecidablePred p] (h : (execWithin step ok s as).any (fun t => decide (p t)) = true) :
    ∃ t, Run step ok s t ∧ p t := by
  obtain ⟨t, ht, hp⟩ := (Option.any_eq_true _ _).mp h
  exact ⟨t, run_of_execWithin ht, of_decide_eq_true hp⟩

/-- What holds of a party's entry after one entry was replaced held before, or
holds of the new one. -/
theorem of_update {ι β : Type} [DecidableEq ι] {f : ι → β} {i j : ι} {b : β} {P : β → Prop}
    (h : P (Function.update f i b j)) : (j = i ∧ P b) ∨ (j ≠ i ∧ P (f j)) := by
  by_cases hj : j = i
  · subst hj
    rw [Function.update_self] at h
    exact .inl ⟨rfl, h⟩
  · rw [Function.update_of_ne hj] at h
    exact .inr ⟨hj, h⟩

theorem forall_update {ι β : Type} [DecidableEq ι] {f : ι → β} {i : ι} {b : β} {P : β → Prop}
    (hb : P b) (hf : ∀ j, P (f j)) (j : ι) : P (Function.update f i b j) := by
  by_cases hj : j = i
  · subst hj
    rwa [Function.update_self]
  · rw [Function.update_of_ne hj]
    exact hf j

end Ekip.Lib
