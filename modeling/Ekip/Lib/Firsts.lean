import Mathlib.Data.List.Basic
import Mathlib.Data.List.Induction

/-!
# First occurrences

Of a list, the elements whose key stands neither before them nor among the keys that
were seen already.
-/
namespace Ekip.Lib

variable {α κ : Type} [DecidableEq κ] {key : α → κ} {seen seen' : List κ} {l : List α}

def firsts (key : α → κ) (seen : List κ) : List α → List α
  | [] => []
  | a :: l => if key a ∈ seen then firsts key seen l else a :: firsts key (key a :: seen) l

namespace Firsts

theorem cons_seen {a : α} (h : key a ∈ seen) (l : List α) :
    firsts key seen (a :: l) = firsts key seen l := if_pos h

theorem cons_new {a : α} (h : key a ∉ seen) (l : List α) :
    firsts key seen (a :: l) = a :: firsts key (key a :: seen) l := if_neg h

/-- Only which keys were seen matters. -/
theorem congr (h : ∀ k, k ∈ seen ↔ k ∈ seen') (l : List α) :
    firsts key seen l = firsts key seen' l := by
  induction l generalizing seen seen' with
  | nil => rfl
  | cons a l ih =>
    by_cases ha : key a ∈ seen
    · rw [cons_seen ha, cons_seen ((h _).mp ha), ih h]
    · rw [cons_new ha, cons_new fun ha' => ha ((h _).mpr ha')]
      congr 1
      refine ih ?_
      intro k
      rw [List.mem_cons, List.mem_cons, h]

theorem sublist (seen : List κ) (l : List α) : (firsts key seen l).Sublist l := by
  induction l generalizing seen with
  | nil => exact List.Sublist.slnil
  | cons a l ih =>
    by_cases ha : key a ∈ seen
    · rw [cons_seen ha]
      exact (ih seen).cons a
    · rw [cons_new ha]
      exact (ih _).cons_cons a

theorem mem_keys {k : κ} :
    k ∈ (firsts key seen l).map key ↔ k ∈ l.map key ∧ k ∉ seen := by
  induction l generalizing seen with
  | nil => simp [firsts]
  | cons a l ih =>
    by_cases ha : key a ∈ seen
    · rw [cons_seen ha, ih, List.map_cons, List.mem_cons]
      constructor
      · exact fun h => ⟨.inr h.1, h.2⟩
      · rintro ⟨rfl | h, hk⟩
        · exact absurd ha hk
        · exact ⟨h, hk⟩
    · rw [cons_new ha, List.map_cons, List.mem_cons, ih, List.map_cons, List.mem_cons,
        List.mem_cons]
      by_cases hk : k = key a
      · rw [hk]
        simp [ha]
      · simp [hk]

theorem nodup (seen : List κ) (l : List α) : ((firsts key seen l).map key).Nodup := by
  induction l generalizing seen with
  | nil => exact List.nodup_nil
  | cons a l ih =>
    by_cases ha : key a ∈ seen
    · rw [cons_seen ha]
      exact ih seen
    · rw [cons_new ha, List.map_cons, List.nodup_cons]
      refine ⟨?_, ih _⟩
      intro hmem
      exact (mem_keys.mp hmem).2 List.mem_cons_self

theorem append (seen : List κ) (l l' : List α) : firsts key seen (l ++ l') =
    firsts key seen l ++ firsts key (l.map key ++ seen) l' := by
  induction l generalizing seen with
  | nil => rfl
  | cons a l ih =>
    rw [List.cons_append]
    by_cases ha : key a ∈ seen
    · rw [cons_seen ha, cons_seen ha, ih]
      congr 1
      refine congr ?_ l'
      intro k
      rw [List.map_cons, List.mem_append, List.mem_append, List.mem_cons]
      constructor
      · rintro (h | h)
        · exact .inl (.inr h)
        · exact .inr h
      · rintro ((rfl | h) | h)
        · exact .inr ha
        · exact .inl h
        · exact .inr h
    · rw [cons_new ha, cons_new ha, ih, List.cons_append]
      congr 2
      refine congr ?_ l'
      intro k
      simp only [List.map_cons, List.mem_append, List.mem_cons]
      constructor
      · rintro (h | h | h)
        · exact .inl (.inr h)
        · exact .inl (.inl h)
        · exact .inr h
      · rintro ((h | h) | h)
        · exact .inr (.inl h)
        · exact .inl h
        · exact .inr (.inr h)

theorem concat (l : List α) (a : α) : firsts key [] (l ++ [a]) =
    if key a ∈ l.map key then firsts key [] l else firsts key [] l ++ [a] := by
  rw [append, List.append_nil]
  by_cases ha : key a ∈ l.map key
  · rw [cons_seen ha, if_pos ha]
    exact List.append_nil _
  · rw [cons_new ha, if_neg ha]
    rfl

/-! ## Groups -/

/-- `groups.setdefault(key(a), []).append(a)`. -/
def addTo (key : α → κ) : List (κ × List α) → α → List (κ × List α)
  | [], a => [(key a, [a])]
  | (k, group) :: groups, a =>
    if k = key a then (k, group ++ [a]) :: groups else (k, group) :: addTo key groups a

def groupsOf (key : α → κ) (l : List α) : List (κ × List α) := l.foldl (addTo key) []

theorem addTo_map {keys : List κ} (hkeys : keys.Nodup) (group : κ → List α) (a : α) :
    addTo key (keys.map fun k => (k, group k)) a =
      (keys.map fun k => (k, if k = key a then group k ++ [a] else group k)) ++
        if key a ∈ keys then [] else [(key a, [a])] := by
  induction keys with
  | nil => rfl
  | cons k keys ih =>
    obtain ⟨hk, hrest⟩ := List.nodup_cons.mp hkeys
    rw [List.map_cons, List.map_cons]
    unfold addTo
    by_cases hkey : k = key a
    · have hother : (keys.map fun k' => (k', if k' = key a then group k' ++ [a] else group k')) =
          keys.map fun k' => (k', group k') := by
        refine List.map_congr_left fun k' hk' => ?_
        have hne : k' ≠ key a := by
          rintro rfl
          exact hk (hkey ▸ hk')
        rw [if_neg hne]
      rw [if_pos hkey, if_pos hkey, if_pos (by simp [hkey]), hother, List.append_nil]
    · have hmem : key a ∈ k :: keys ↔ key a ∈ keys := by
        simp [Ne.symm hkey]
      rw [if_neg hkey, if_neg hkey, ih hrest, List.cons_append]
      simp only [hmem]

/-- Every key, in the order of its first occurrence, with what has it. -/
theorem groupsOf_eq (l : List α) : groupsOf key l =
    (firsts id [] (l.map key)).map fun k => (k, l.filter fun a => key a = k) := by
  induction l using List.reverseRecOn with
  | nil => rfl
  | append_singleton l a ih =>
    have hnodup : ((firsts id [] (l.map key)).map id).Nodup := nodup [] _
    have hmem : key a ∈ (firsts id [] (l.map key)).map id ↔
        key a ∈ (l.map key).map id ∧ key a ∉ [] := mem_keys
    rw [List.map_id] at hnodup
    simp only [List.map_id, List.not_mem_nil, not_false_iff, and_true] at hmem
    have hgroup (k : κ) : (l ++ [a]).filter (fun b => key b = k) =
        if k = key a then l.filter (fun b => key b = k) ++ [a]
        else l.filter fun b => key b = k := by
      by_cases hk : k = key a
      · rw [if_pos hk]
        simp [List.filter_append, hk]
      · rw [if_neg hk]
        simp [List.filter_append, Ne.symm hk]
    unfold groupsOf at ih ⊢
    rw [List.foldl_append, List.foldl_cons, List.foldl_nil, ih, addTo_map hnodup,
      List.map_append, List.map_singleton, concat]
    simp only [hgroup, List.map_id_fun, id_eq, hmem]
    by_cases ha : key a ∈ l.map key
    · rw [if_pos ha, if_pos ha, List.append_nil]
    · have hnone : l.filter (fun b => key b = key a) = [] := by
        refine List.filter_eq_nil_iff.mpr fun b hb heq => ha ?_
        rw [← of_decide_eq_true heq]
        exact List.mem_map_of_mem hb
      rw [if_neg ha, if_neg ha, List.map_append, List.map_singleton, if_pos rfl, hnone]
      rfl

theorem groupsOf_mem {l : List α} {a : α} (h : a ∈ l) :
    (key a, l.filter fun b => key b = key a) ∈ groupsOf key l := by
  have hkey : key a ∈ (firsts id [] (l.map key)).map id := by
    refine mem_keys.mpr ⟨?_, List.not_mem_nil⟩
    simpa using List.mem_map_of_mem h
  rw [List.map_id] at hkey
  rw [groupsOf_eq]
  exact List.mem_map.mpr ⟨key a, hkey, rfl⟩

theorem mem_groupsOf {l : List α} {k : κ} {group : List α} (h : (k, group) ∈ groupsOf key l) :
    group ≠ [] ∧ group = l.filter fun a => key a = k := by
  rw [groupsOf_eq] at h
  obtain ⟨k', hk', heq⟩ := List.mem_map.mp h
  obtain ⟨rfl, rfl⟩ := Prod.mk.inj heq
  have hmem : k' ∈ l.map key := by
    have hfirst : k' ∈ (firsts id [] (l.map key)).map id := by simpa using hk'
    simpa using (mem_keys.mp hfirst).1
  obtain ⟨a, ha, rfl⟩ := List.mem_map.mp hmem
  refine ⟨List.ne_nil_of_mem (a := a) ?_, rfl⟩
  exact List.mem_filter.mpr ⟨ha, by simp⟩

end Firsts

end Ekip.Lib
