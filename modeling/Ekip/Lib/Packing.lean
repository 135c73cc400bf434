import Mathlib.Data.List.Chain
import Mathlib.Algebra.Order.BigOperators.Group.List
import Mathlib.Algebra.Order.Group.Nat
import Mathlib.Algebra.GroupWithZero.Nat

/-!
# Greedy packing

Items are taken in order into groups. An item joins the group before it as long as
the group, with a gap between any two items, does not outgrow a limit.
-/
namespace Ekip.Lib.Packing

variable {α β : Type} (size : α → Nat) (gap limit : Nat)

/-- The size of a group, with the gaps. -/
def total : List α → Nat
  | [] => 0
  | a :: as => size a + (as.map fun b => gap + size b).sum

def packFrom : List α → List α → List (List α)
  | group, [] => [group]
  | group, a :: as =>
    if limit < total size gap group + gap + size a then group :: packFrom [a] as
    else packFrom (group ++ [a]) as

def pack : List α → List (List α)
  | [] => []
  | a :: as => packFrom size gap limit [a] as

variable {size gap limit} {group as : List α} {a : α}

theorem total_append (h : group ≠ []) (a : α) :
    total size gap (group ++ [a]) = total size gap group + gap + size a := by
  cases group with
  | nil => exact absurd rfl h
  | cons b bs =>
    simp only [total, List.cons_append, List.map_append, List.sum_append, List.map_cons,
      List.map_nil, List.sum_cons, List.sum_nil]
    omega

theorem le_total (h : a ∈ group) : size a ≤ total size gap group := by
  cases group with
  | nil => cases h
  | cons b bs =>
    rcases List.mem_cons.mp h with rfl | h
    · exact Nat.le_add_right _ _
    · have hmem : gap + size a ∈ bs.map fun b => gap + size b := List.mem_map_of_mem h
      have hle := List.single_le_sum (fun _ _ => Nat.zero_le _) _ hmem
      show size a ≤ size b + (bs.map fun b => gap + size b).sum
      omega

/-- Nothing is lost, doubled or moved. -/
theorem flatten_packFrom : (packFrom size gap limit group as).flatten = group ++ as := by
  induction as generalizing group with
  | nil => simp [packFrom]
  | cons a as ih =>
    unfold packFrom
    split
    · rw [List.flatten_cons, ih]
      rfl
    · rw [ih, List.append_assoc]
      rfl

theorem flatten_pack : (pack size gap limit as).flatten = as := by
  cases as with
  | nil => rfl
  | cons a as => exact flatten_packFrom

theorem packFrom_ne_nil (h : group ≠ []) : ∀ g ∈ packFrom size gap limit group as, g ≠ [] := by
  induction as generalizing group with
  | nil =>
    intro g hg
    obtain rfl := List.mem_singleton.mp hg
    exact h
  | cons a as ih =>
    intro g hg
    unfold packFrom at hg
    split at hg
    · rcases List.mem_cons.mp hg with rfl | hg
      · exact h
      · exact ih (by simp) g hg
    · exact ih (by simp) g hg

theorem pack_ne_nil : ∀ g ∈ pack size gap limit as, g ≠ [] := by
  cases as with
  | nil =>
    intro g hg
    cases hg
  | cons a as => exact packFrom_ne_nil (by simp)

/-- A group that outgrows the limit is a single item. -/
theorem packFrom_fits (h : total size gap group ≤ limit ∨ ∃ a, group = [a]) :
    ∀ g ∈ packFrom size gap limit group as, total size gap g ≤ limit ∨ ∃ a, g = [a] := by
  induction as generalizing group with
  | nil =>
    intro g hg
    obtain rfl := List.mem_singleton.mp hg
    exact h
  | cons a as ih =>
    intro g hg
    unfold packFrom at hg
    split at hg
    · rcases List.mem_cons.mp hg with rfl | hg
      · exact h
      · exact ih (.inr ⟨a, rfl⟩) g hg
    · rename_i hfits
      refine ih ?_ g hg
      by_cases hnil : group = []
      · exact .inr ⟨a, by rw [hnil, List.nil_append]⟩
      · rw [total_append hnil]
        exact .inl (by omega)

theorem pack_fits : ∀ g ∈ pack size gap limit as, total size gap g ≤ limit ∨ ∃ a, g = [a] := by
  cases as with
  | nil =>
    intro g hg
    cases hg
  | cons a as => exact packFrom_fits (.inr ⟨a, rfl⟩)

/-- What begins a group had no room in the group before. -/
def Full (size : α → Nat) (gap limit : Nat) (group next : List α) : Prop :=
  ∀ a ∈ next.head?, limit < total size gap group + gap + size a

theorem packFrom_head (h : group ≠ []) :
    ∀ first ∈ (packFrom size gap limit group as).head?, first.head? = group.head? := by
  induction as generalizing group with
  | nil =>
    intro first hfirst
    obtain rfl := Option.some.inj hfirst
    rfl
  | cons a as ih =>
    intro first hfirst
    unfold packFrom at hfirst
    split at hfirst
    · obtain rfl := Option.some.inj hfirst
      rfl
    · rw [ih (by simp) first hfirst, List.head?_append_of_ne_nil _ h]

theorem packFrom_full (h : group ≠ []) :
    (packFrom size gap limit group as).IsChain (Full size gap limit) := by
  induction as generalizing group with
  | nil => exact .singleton _
  | cons a as ih =>
    unfold packFrom
    split
    · rename_i hfull
      apply List.IsChain.cons (ih (by simp))
      intro next hnext b hb
      rw [packFrom_head (by simp) next hnext] at hb
      obtain rfl := Option.some.inj hb
      exact hfull
    · exact ih (by simp)

theorem pack_full : (pack size gap limit as).IsChain (Full size gap limit) := by
  cases as with
  | nil => exact .nil
  | cons a as => exact packFrom_full (by simp)

/-- Packing looks at the sizes only. -/
theorem packFrom_map (f : β → α) (group bs : List β) :
    packFrom size gap limit (group.map f) (bs.map f) =
      (packFrom (size ∘ f) gap limit group bs).map (List.map f) := by
  have htotal : ∀ group : List β, total size gap (group.map f) = total (size ∘ f) gap group := by
    intro group
    cases group with
    | nil => rfl
    | cons b bs => simp [total, Function.comp_def]
  induction bs generalizing group with
  | nil => rfl
  | cons b bs ih =>
    rw [List.map_cons, packFrom, packFrom, htotal]
    have hsame : size (f b) = (size ∘ f) b := rfl
    rw [hsame]
    split
    · have hrest := ih [b]
      rw [List.map_cons, List.map_nil] at hrest
      rw [hrest]
      rfl
    · have hrest := ih (group ++ [b])
      rw [List.map_append, List.map_cons, List.map_nil] at hrest
      exact hrest

theorem pack_map (f : β → α) (bs : List β) :
    pack size gap limit (bs.map f) = (pack (size ∘ f) gap limit bs).map (List.map f) := by
  cases bs with
  | nil => rfl
  | cons b bs => exact packFrom_map f [b] bs

/-! ## A single group that skips what does not fit -/

/-- `used` is the size of what was taken before. -/
def fitting (size : α → Nat) (limit : Nat) : List α → Nat → List α
  | [], _ => []
  | a :: as, used =>
    if limit < used + size a then fitting size limit as used
    else a :: fitting size limit as (used + size a)

theorem fitting_sublist (size : α → Nat) (limit : Nat) (as : List α) (used : Nat) : (fitting size limit as used).Sublist as := by
  induction as generalizing used with
  | nil => exact List.Sublist.refl _
  | cons a as ih =>
    unfold fitting
    split
    · exact (ih used).cons a
    · exact (ih _).cons_cons a

/-- All of it is taken where all of it fits. -/
theorem fitting_eq_self_iff {used : Nat} (hused : used ≤ limit) :
    fitting size limit as used = as ↔ used + (as.map size).sum ≤ limit := by
  induction as generalizing used with
  | nil => simpa [fitting] using hused
  | cons a as ih =>
    unfold fitting
    rw [List.map_cons, List.sum_cons]
    split
    · rename_i hlarge
      constructor
      · intro h
        have hlength := congrArg List.length h
        have hle := (fitting_sublist size limit as used).length_le
        rw [List.length_cons] at hlength
        omega
      · intro h
        omega
    · rename_i hfits
      have hused' : used + size a ≤ limit := by omega
      rw [List.cons.injEq, ih hused']
      constructor
      · intro h
        omega
      · intro h
        exact ⟨rfl, by omega⟩

end Ekip.Lib.Packing
