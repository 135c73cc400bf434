import Mathlib.Data.List.Infix

/-!
# Substituting patterns

A list is read from left to right; where it goes on with the pattern of a rule, the other
side of the rule is written in its place and reading goes on behind the pattern. One rule
is `str.replace`.
-/
namespace Ekip.Lib

variable {α : Type} [DecidableEq α]

structure Rule (α : Type) where
  old : List α
  new : List α
  old_ne_nil : old ≠ []

namespace Rule

/-- The rule that applies here. -/
def at? (rules : List (Rule α)) (l : List α) : Option (Rule α) :=
  rules.find? fun rule => rule.old.isPrefixOf l

/-- `skip` elements of a pattern are still to be passed over. -/
def substituteFrom (rules : List (Rule α)) : Nat → List α → List α
  | _, [] => []
  | skip + 1, _ :: rest => substituteFrom rules skip rest
  | 0, a :: rest =>
    match at? rules (a :: rest) with
    | some rule => rule.new ++ substituteFrom rules (rule.old.length - 1) rest
    | none => a :: substituteFrom rules 0 rest

def substitute (rules : List (Rule α)) (l : List α) : List α := substituteFrom rules 0 l

variable {rules : List (Rule α)} {rule first second : Rule α} {pattern l rest : List α} {a : α}

/-! ## One pattern at a time -/

theorem at?_eq_none : at? rules l = none ↔ ∀ rule ∈ rules, ¬ rule.old <+: l := by
  unfold at?
  rw [List.find?_eq_none]
  refine forall₂_congr fun rule _ => ?_
  rw [List.isPrefixOf_iff_prefix]

theorem mem_of_at? (h : at? rules l = some rule) : rule ∈ rules := List.mem_of_find?_eq_some h

theorem prefix_of_at? (h : at? rules l = some rule) : rule.old <+: l := by
  have hbegins := @List.find?_some _ (fun rule : Rule α => rule.old.isPrefixOf l) _ _ h
  exact List.isPrefixOf_iff_prefix.mp hbegins

theorem at?_cons_pos (h : first.old <+: l) : at? (first :: rules) l = some first := by
  have hbegins : first.old.isPrefixOf l = true := List.isPrefixOf_iff_prefix.mpr h
  simp only [at?, List.find?_cons, hbegins]

theorem at?_cons_neg (h : ¬ first.old <+: l) : at? (first :: rules) l = at? rules l := by
  unfold at?
  rw [List.find?_cons_of_neg]
  rw [List.isPrefixOf_iff_prefix]
  exact h

theorem substituteFrom_eq (skip : Nat) (l : List α) :
    substituteFrom rules skip l = substitute rules (l.drop skip) := by
  induction skip generalizing l with
  | zero => rfl
  | succ skip ih =>
    cases l with
    | nil => rfl
    | cons a rest => exact ih rest

theorem substitute_cons (h : at? rules (a :: rest) = none) :
    substitute rules (a :: rest) = a :: substitute rules rest := by
  show substituteFrom rules 0 (a :: rest) = _
  rw [substituteFrom, h]
  rfl

theorem substitute_append (h : at? rules (rule.old ++ rest) = some rule) :
    substitute rules (rule.old ++ rest) = rule.new ++ substitute rules rest := by
  have hne := rule.old_ne_nil
  cases hold : rule.old with
  | nil => exact absurd hold hne
  | cons a old =>
    rw [hold] at h
    show substituteFrom rules 0 (a :: (old ++ rest)) = _
    rw [List.cons_append] at h
    rw [substituteFrom, h]
    show rule.new ++ substituteFrom rules (rule.old.length - 1) (old ++ rest) = _
    rw [substituteFrom_eq, hold]
    congr 2
    exact List.drop_left' (by simp)

/-- Pattern by pattern. -/
theorem substitute_induction (rules : List (Rule α)) {motive : List α → Prop} (nil : motive [])
    (cons : ∀ a rest, at? rules (a :: rest) = none → motive rest → motive (a :: rest))
    (append : ∀ rule rest, at? rules (rule.old ++ rest) = some rule → motive rest →
      motive (rule.old ++ rest)) (l : List α) : motive l := by
  induction hn : l.length using Nat.strong_induction_on generalizing l with
  | _ n ih =>
    cases l with
    | nil => exact nil
    | cons a rest =>
      cases hat : at? rules (a :: rest) with
      | none =>
        have hshort : rest.length < n := by
          rw [← hn, List.length_cons]
          omega
        exact cons a rest hat (ih _ hshort rest rfl)
      | some rule =>
        obtain ⟨behind, hbehind⟩ := prefix_of_at? hat
        have hpos := List.length_pos_iff.mpr rule.old_ne_nil
        have hshort : behind.length < n := by
          rw [← hn, ← hbehind, List.length_append]
          omega
        rw [← hbehind] at hat ⊢
        exact append rule behind hat (ih _ hshort behind rfl)

theorem substitute_eq_self (h : ∀ rule ∈ rules, ¬ rule.old <:+: l) : substitute rules l = l := by
  induction l with
  | nil => rfl
  | cons a rest ih =>
    have hnone : at? rules (a :: rest) = none :=
      at?_eq_none.mpr fun rule hrule hprefix => h rule hrule hprefix.isInfix
    rw [substitute_cons hnone, ih fun rule hrule hinfix => h rule hrule (List.infix_cons hinfix)]

/-! ## What is written is no part of a pattern -/

/-- No pattern begins in what the rule writes, and none reaches into it. -/
structure Clear (rule : Rule α) (pattern : List α) : Prop where
  begins : ∀ a ∈ pattern.head?, a ∉ rule.new
  reaches : ∃ a ∈ rule.new.head?, a ∉ pattern

/-- A pattern at the head of what is written is at the head of what was read. -/
theorem prefix_of_substitute (hreach : ∀ rule ∈ rules, ∃ a ∈ rule.new.head?, a ∉ pattern)
    (h : pattern <+: substitute rules l) : pattern <+: l := by
  induction l using substitute_induction rules generalizing pattern with
  | nil => exact h
  | cons a rest hat ih =>
    rw [substitute_cons hat] at h
    cases pattern with
    | nil => exact List.nil_prefix
    | cons b pattern =>
      obtain ⟨rfl, hrest⟩ := List.cons_prefix_cons.mp h
      refine List.cons_prefix_cons.mpr ⟨rfl, ih ?_ hrest⟩
      intro rule hrule
      obtain ⟨c, hc, hnot⟩ := hreach rule hrule
      exact ⟨c, hc, fun hmem => hnot (List.mem_cons_of_mem _ hmem)⟩
  | append rule rest hat ih =>
    rw [substitute_append hat] at h
    obtain ⟨c, hc, hnot⟩ := hreach rule (mem_of_at? hat)
    cases pattern with
    | nil => exact List.nil_prefix
    | cons b pattern =>
      obtain ⟨new, hnew⟩ := List.head?_eq_some_iff.mp hc
      rw [hnew, List.cons_append] at h
      obtain ⟨rfl, -⟩ := List.cons_prefix_cons.mp h
      exact absurd List.mem_cons_self hnot

omit [DecidableEq α] in
/-- Behind elements at which the pattern cannot begin. -/
theorem infix_append_left (hhead : ∀ a ∈ pattern.head?, a ∉ l) (hne : pattern ≠ [])
    (h : pattern <:+: l ++ rest) : pattern <:+: rest := by
  induction l with
  | nil => exact h
  | cons a l ih =>
    rw [List.cons_append] at h
    rcases List.infix_cons_iff.mp h with hprefix | hinfix
    · cases pattern with
      | nil => exact absurd rfl hne
      | cons b pattern =>
        obtain ⟨rfl, -⟩ := List.cons_prefix_cons.mp hprefix
        exact absurd List.mem_cons_self (hhead _ rfl)
    · exact ih (fun b hb hmem => hhead b hb (List.mem_cons_of_mem _ hmem)) hinfix

/-- No pattern of a rule is left. -/
theorem not_infix_substitute (hclear : ∀ rule ∈ rules, rule.Clear pattern) (hne : pattern ≠ [])
    (hrule : ∃ rule ∈ rules, rule.old = pattern) (l : List α) :
    ¬ pattern <:+: substitute rules l := by
  intro h
  obtain ⟨rule, hmem, rfl⟩ := hrule
  induction l using substitute_induction rules with
  | nil => exact hne (List.infix_nil.mp h)
  | cons a rest hat ih =>
    rw [substitute_cons hat] at h
    rcases List.infix_cons_iff.mp h with hprefix | hinfix
    · rw [← substitute_cons hat] at hprefix
      have hread := prefix_of_substitute (fun rule hrule => (hclear rule hrule).reaches) hprefix
      exact at?_eq_none.mp hat rule hmem hread
    · exact ih hinfix
  | append other rest hat ih =>
    rw [substitute_append hat] at h
    exact ih (infix_append_left (hclear other (mem_of_at? hat)).begins hne h)

/-! ## One rule after the other -/

/-- Behind elements at which no pattern begins. -/
theorem substitute_append_left {kept : List α} (hhead : ∀ rule ∈ rules, ∀ a ∈ rule.old.head?, a ∉ kept)
    (rest : List α) : substitute rules (kept ++ rest) = kept ++ substitute rules rest := by
  induction kept with
  | nil => rfl
  | cons a kept ih =>
    have hnone : at? rules (a :: (kept ++ rest)) = none := by
      refine at?_eq_none.mpr ?_
      intro rule hrule hprefix
      cases hold : rule.old with
      | nil => exact rule.old_ne_nil hold
      | cons b old =>
        rw [hold] at hprefix
        obtain ⟨rfl, -⟩ := List.cons_prefix_cons.mp hprefix
        exact hhead rule hrule b (by rw [hold]; rfl) List.mem_cons_self
    rw [List.cons_append, substitute_cons hnone, ih]
    · rfl
    · intro rule hrule b hb hmem
      exact hhead rule hrule b hb (List.mem_cons_of_mem _ hmem)

/-- Where the second pattern neither overlaps the first nor what is written for it, applying
one rule after the other is applying them together. -/
theorem substitute_substitute (hclear : first.Clear second.old)
    (hapart : ∀ a ∈ first.old.head?, a ∉ second.old.tail) (l : List α) :
    substitute [second] (substitute [first] l) = substitute [first, second] l := by
  induction l using substitute_induction [first, second] with
  | nil => rfl
  | cons a rest hat ih =>
    have hnone := at?_eq_none.mp hat
    have hfirst : at? [first] (a :: rest) = none :=
      at?_eq_none.mpr fun rule hrule => hnone rule (by simp_all)
    have hsecond : at? [second] (a :: substitute [first] rest) = none := by
      refine at?_eq_none.mpr ?_
      intro rule hrule hprefix
      obtain rfl := List.mem_singleton.mp hrule
      rw [← substitute_cons hfirst] at hprefix
      refine hnone rule (by simp) (prefix_of_substitute ?_ hprefix)
      intro other hother
      obtain rfl := List.mem_singleton.mp hother
      exact hclear.reaches
    rw [substitute_cons hat, substitute_cons hfirst, substitute_cons hsecond, ih]
  | append rule rest hat ih =>
    rw [substitute_append hat]
    by_cases hbegins : first.old <+: rule.old ++ rest
    · obtain rfl := Option.some.inj ((at?_cons_pos hbegins).symm.trans hat)
      rw [substitute_append (at?_cons_pos hbegins), substitute_append_left, ih]
      intro other hother
      obtain rfl := List.mem_singleton.mp hother
      exact hclear.begins
    · have hrule : rule = second := by
        rw [at?_cons_neg hbegins] at hat
        exact List.mem_singleton.mp (mem_of_at? hat)
      subst hrule
      have hkept : substitute [first] (rule.old ++ rest) = rule.old ++ substitute [first] rest := by
        cases hold : rule.old with
        | nil => exact absurd hold rule.old_ne_nil
        | cons a old =>
          rw [hold] at hbegins hapart
          have hnone : at? [first] (a :: (old ++ rest)) = none := by
            refine at?_eq_none.mpr ?_
            intro other hother
            obtain rfl := List.mem_singleton.mp hother
            exact hbegins
          rw [List.cons_append, substitute_cons hnone, substitute_append_left]
          · rfl
          · intro other hother
            obtain rfl := List.mem_singleton.mp hother
            exact hapart
      rw [hkept, substitute_append (at?_cons_pos (List.prefix_append _ _)), ih]

end Rule

end Ekip.Lib
