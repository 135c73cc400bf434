import Mathlib.Data.List.Basic
import Mathlib.Data.String.Basic

/-!
# Texts joined by a separator

A joined text is taken apart at the last separator where the second part has none, and at
the first one where the first part has none. It holds all texts that were joined, in order.
-/
namespace Ekip.Lib.Joined

variable {α : Type} {c d : α} {a b x y : List α}

theorem append_cons_inj_last (hx : c ∉ x) (hy : c ∉ y) :
    a ++ c :: x = b ++ c :: y ↔ a = b ∧ x = y := by
  constructor
  · intro h
    rcases List.append_eq_append_iff.mp h with ⟨l, rfl, hl⟩ | ⟨l, rfl, hl⟩
    · cases l with
      | nil => exact ⟨by simp, (List.cons.inj hl).2⟩
      | cons e l =>
        obtain ⟨rfl, rfl⟩ := List.cons.inj hl
        exact absurd (by simp) hx
    · cases l with
      | nil => exact ⟨by simp, (List.cons.inj hl).2.symm⟩
      | cons e l =>
        obtain ⟨rfl, rfl⟩ := List.cons.inj hl
        exact absurd (by simp) hy
  · rintro ⟨rfl, rfl⟩
    rfl

theorem append_cons_inj_first (ha : d ∉ a) (hb : c ∉ b) :
    a ++ c :: x = b ++ d :: y ↔ a = b ∧ c = d ∧ x = y := by
  constructor
  · intro h
    rcases List.append_eq_append_iff.mp h with ⟨l, rfl, hl⟩ | ⟨l, rfl, hl⟩
    · cases l with
      | nil =>
        obtain ⟨hcd, hxy⟩ := List.cons.inj hl
        exact ⟨by simp, hcd, hxy⟩
      | cons e l =>
        obtain ⟨rfl, rfl⟩ := List.cons.inj hl
        exact absurd (by simp) hb
    · cases l with
      | nil =>
        obtain ⟨hcd, hxy⟩ := List.cons.inj hl
        exact ⟨by simp, hcd.symm, hxy.symm⟩
      | cons e l =>
        obtain ⟨rfl, rfl⟩ := List.cons.inj hl
        exact absurd (by simp) ha
  · rintro ⟨rfl, rfl, rfl⟩
    rfl

/-- What has no separator ends before the separator. -/
theorem prefix_of_stop (hx : c ∉ x) (h : x <+: a ++ c :: b) : x <+: a := by
  rcases List.prefix_or_prefix_of_prefix h (List.prefix_append a _) with hshort | ⟨rest, hrest⟩
  · exact hshort
  · rw [← hrest, List.prefix_append_right_inj] at h
    cases rest with
    | nil => exact ⟨[], by rw [← hrest]; simp⟩
    | cons d rest =>
      obtain ⟨rfl, -⟩ := List.cons_prefix_cons.mp h
      exact absurd (hrest ▸ List.mem_append_right a List.mem_cons_self) hx

/-- A text without a colon. -/
def Plain (text : String) : Prop := ':' ∉ text.toList

instance instDecidablePlain (text : String) : Decidable (Plain text) :=
  inferInstanceAs (Decidable (':' ∉ text.toList))

theorem colon_inj {a b x y : String} (hx : Plain x) (hy : Plain y) :
    a ++ ":" ++ x = b ++ ":" ++ y ↔ a = b ∧ x = y := by
  have hlast := append_cons_inj_last (a := a.toList) (b := b.toList) hx hy
  rw [String.toList_inj, String.toList_inj] at hlast
  rw [← hlast, ← String.toList_inj]
  simp

theorem plain_toString (n : Nat) : Plain (toString n) := by
  intro hmem
  rw [show toString n = n.repr from rfl, Nat.toList_repr] at hmem
  have hdigit := Nat.isDigit_of_mem_toDigits (by decide) (by decide) hmem
  exact absurd hdigit (by decide)

/-- A number is read back from its digits. -/
theorem toString_inj {m n : Nat} : toString m = toString n ↔ m = n := by
  constructor
  · intro h
    have hdigits : Nat.toDigits 10 m = Nat.toDigits 10 n := by
      rw [← Nat.toList_repr, ← Nat.toList_repr]
      exact congrArg String.toList h
    have hread := congrArg (fun digits => Nat.ofDigitChars 10 digits 0) hdigits
    simpa using hread
  · rintro rfl
    rfl

/-! ## Texts joined one after the other -/

theorem append_ne_empty {a : String} (h : a ≠ "") (b : String) : a ++ b ≠ "" := by
  rw [ne_eq, String.append_eq_empty_iff]
  exact fun hboth => h hboth.1

theorem intercalate_ne_empty {separator : String} {texts : List String} (h : texts ≠ [])
    (hne : ∀ text ∈ texts, text ≠ "") : separator.intercalate texts ≠ "" := by
  cases texts with
  | nil => exact absurd rfl h
  | cons text texts =>
    have htext := hne text List.mem_cons_self
    by_cases hlast : texts = []
    · rw [hlast, String.intercalate_singleton]
      exact htext
    · rw [String.intercalate_cons_of_ne_nil hlast, String.append_assoc]
      exact append_ne_empty htext _

/-- One text behind the other, with whatever between them. -/
def InOrder : List (List α) → List α → Prop
  | [], _ => True
  | text :: texts, content => ∃ before rest, content = before ++ text ++ rest ∧ InOrder texts rest

theorem InOrder.behind {texts : List (List α)} {content : List α} (h : InOrder texts content)
    (before : List α) : InOrder texts (before ++ content) := by
  cases texts with
  | nil => trivial
  | cons text texts =>
    obtain ⟨front, rest, rfl, hrest⟩ := h
    refine ⟨before ++ front, rest, ?_, hrest⟩
    rw [List.append_assoc, List.append_assoc, List.append_assoc]

theorem inOrder_intercalate (separator : String) (texts : List String) :
    InOrder (texts.map String.toList) (separator.intercalate texts).toList := by
  induction texts with
  | nil => trivial
  | cons text texts ih =>
    by_cases hlast : texts = []
    · subst hlast
      rw [String.intercalate_singleton]
      exact ⟨[], [], by simp, trivial⟩
    · rw [String.intercalate_cons_of_ne_nil hlast]
      refine ⟨[], separator.toList ++ (separator.intercalate texts).toList, ?_, ih.behind _⟩
      simp

/-- The first of the texts join to as much as all of them only where they are all. -/
theorem intercalate_take_iff {separator : String} (hseparator : separator ≠ "") {n : Nat} (hn : 0 < n)
    (texts : List String) :
    separator.intercalate (texts.take n) = separator.intercalate texts ↔ texts.length ≤ n := by
  constructor
  · intro h
    by_contra hlong
    have hfirst : texts.take n ≠ [] := by
      intro hnone
      have hlength := congrArg List.length hnone
      rw [List.length_take, List.length_nil] at hlength
      omega
    have hrest : texts.drop n ≠ [] := by
      intro hnone
      have hlength := congrArg List.length hnone
      rw [List.length_drop, List.length_nil] at hlength
      omega
    have hall := String.intercalate_append_of_ne_nil (s := separator) hfirst hrest
    rw [List.take_append_drop, ← h] at hall
    have hlengths := congrArg String.length hall
    rw [String.length_append, String.length_append] at hlengths
    have hpos : separator.length ≠ 0 := fun hzero => hseparator (String.length_eq_zero_iff.mp hzero)
    omega
  · intro hshort
    rw [List.take_of_length_le hshort]

end Ekip.Lib.Joined
