import Mathlib.Algebra.Order.Ring.Nat
import Mathlib.Data.List.DropRight

/-!
# Unicode text

A text is a list of characters. The white space and the decimal digits are those of
Unicode 15, and a text is taken apart and put together as Python's `str` does it.
-/
namespace Ekip.Lib

abbrev Text := List Char

namespace Text

/-! ## Characters -/

/-- `str.isspace`, which is also `\s`. -/
def spaces : List Nat :=
  [0x09, 0x0A, 0x0B, 0x0C, 0x0D, 0x1C, 0x1D, 0x1E, 0x1F, 0x20, 0x85, 0xA0, 0x1680, 0x2000, 0x2001,
   0x2002, 0x2003, 0x2004, 0x2005, 0x2006, 0x2007, 0x2008, 0x2009, 0x200A, 0x2028, 0x2029, 0x202F,
   0x205F, 0x3000]

def isSpace (c : Char) : Bool := spaces.contains c.toNat

/-- Where the line ends, for `str.splitlines`. -/
def lineBreaks : List Nat :=
  [0x0A, 0x0B, 0x0C, 0x0D, 0x1C, 0x1D, 0x1E, 0x85, 0x2028, 0x2029]

def isLineBreak (c : Char) : Bool := lineBreaks.contains c.toNat

/-- The zeros of the scripts; the other nine digits follow each of them. -/
def decimalZeros : List Nat :=
  [0x0030, 0x0660, 0x06F0, 0x07C0, 0x0966, 0x09E6, 0x0A66, 0x0AE6, 0x0B66, 0x0BE6, 0x0C66, 0x0CE6,
   0x0D66, 0x0DE6, 0x0E50, 0x0ED0, 0x0F20, 0x1040, 0x1090, 0x17E0, 0x1810, 0x1946, 0x19D0, 0x1A80,
   0x1A90, 0x1B50, 0x1BB0, 0x1C40, 0x1C50, 0xA620, 0xA8D0, 0xA900, 0xA9D0, 0xA9F0, 0xAA50, 0xABF0,
   0xFF10, 0x104A0, 0x10D30, 0x11066, 0x110F0, 0x11136, 0x111D0, 0x112F0, 0x11450, 0x114D0, 0x11650,
   0x116C0, 0x11730, 0x118E0, 0x11950, 0x11C50, 0x11D50, 0x11DA0, 0x11F50, 0x16A60, 0x16AC0, 0x16B50,
   0x1D7CE, 0x1D7D8, 0x1D7E2, 0x1D7EC, 0x1D7F6, 0x1E140, 0x1E2F0, 0x1E4F0, 0x1E950, 0x1FBF0]

/-- The value of a decimal digit of any script. -/
def decimal? (c : Char) : Option Nat :=
  (decimalZeros.find? fun first => decide (first ≤ c.toNat ∧ c.toNat < first + 10)).map fun first =>
    c.toNat - first

/-- `\d`. -/
def isDecimal (c : Char) : Bool := (decimal? c).isSome

/-- The number that decimal digits spell. -/
def natOf (digits : Text) : Nat := digits.foldl (fun n c => 10 * n + (decimal? c).getD 0) 0

/-! ## Taking apart and putting together -/

def strip (text : Text) : Text := (text.dropWhile isSpace).rdropWhile isSpace

/-- Of the ASCII letters. Of the other characters only the Kelvin sign becomes an ASCII letter. -/
def lower (text : Text) : Text := text.map Char.toLower

/-- A carriage return before a line feed leaves an empty line here. -/
def splitLines (text : Text) : List Text := text.splitOnP isLineBreak

/-- `str.split()`. -/
def words (text : Text) : List Text := (text.splitOnP isSpace).filter fun word => word ≠ []

/-- `" ".join`. -/
def spaced : List Text → Text
  | [] => []
  | [text] => text
  | text :: next :: texts => text ++ ' ' :: spaced (next :: texts)

/-- `re.sub(r"\s+", " ", text).strip()`: the words, with one space between them. -/
def squeeze (text : Text) : Text := spaced (words text)

/-! ### Numerals -/

theorem decimal?_of_isDigit {c : Char} (h : c.isDigit = true) : decimal? c = some (c.toNat - 48) := by
  have hrange : 48 ≤ c.toNat ∧ c.toNat < 48 + 10 := by
    simp only [Char.isDigit, Bool.and_eq_true, decide_eq_true_eq] at h
    have hlow : (48 : Nat) ≤ c.toNat := h.1
    have hhigh : c.toNat ≤ (57 : Nat) := h.2
    omega
  have hfirst : decimalZeros.find? (fun first => decide (first ≤ c.toNat ∧ c.toNat < first + 10)) =
      some 48 := by
    unfold decimalZeros
    rw [List.find?_cons_of_pos (by simpa using hrange)]
  unfold decimal?
  rw [hfirst]
  rfl

/-- Decimal digits of a number spell it. -/
theorem natOf_toDigits (n : Nat) : natOf (Nat.toDigits 10 n) = n := by
  have hstep : ∀ (sofar : Nat), ∀ c ∈ Nat.toDigits 10 n,
      10 * sofar + (decimal? c).getD 0 = 10 * sofar + (c.toNat - '0'.toNat) := by
    intro sofar c hc
    rw [decimal?_of_isDigit (Nat.isDigit_of_mem_toDigits (by decide) (by decide) hc)]
    rfl
  calc natOf (Nat.toDigits 10 n) = Nat.ofDigitChars 10 (Nat.toDigits 10 n) 0 :=
        List.foldl_ext _ _ _ hstep
    _ = n := Nat.ofDigitChars_ten_toDigits

theorem isSpace_space : isSpace ' ' = true := by decide

theorem isDecimal_of_isSpace {c : Char} (h : isSpace c = true) : isDecimal c = false := by
  have hnone : ∀ n ∈ spaces,
      decimalZeros.find? (fun first => decide (first ≤ n ∧ n < first + 10)) = none := by decide
  unfold isDecimal decimal?
  rw [hnone c.toNat (List.contains_iff_mem.mp h)]
  rfl

theorem isDecimal_space : isDecimal ' ' = false := isDecimal_of_isSpace isSpace_space

section Stop

variable {p : Char → Bool} {c : Char}

theorem takeWhile_stop (h : p c = false) (a b : Text) :
    (a ++ c :: b).takeWhile p = a.takeWhile p := by
  induction a with
  | nil => simp [h]
  | cons d a ih =>
    cases hd : p d with
    | true => simp [hd, ih]
    | false => simp [hd]

theorem dropWhile_stop (h : p c = false) (a b : Text) :
    (a ++ c :: b).dropWhile p = a.dropWhile p ++ c :: b := by
  induction a with
  | nil => simp [h]
  | cons d a ih =>
    cases hd : p d with
    | true => simp [hd, ih]
    | false => simp [hd]

end Stop

theorem words_append {c : Char} (a b : Text) (h : isSpace c = true) :
    words (a ++ c :: b) = words a ++ words b := by
  unfold words
  rw [List.splitOnP_append_cons a b h, List.filter_append]

theorem spaced_cons {text : Text} {texts : List Text} (h : texts ≠ []) :
    spaced (text :: texts) = text ++ ' ' :: spaced texts := by
  cases texts with
  | nil => exact absurd rfl h
  | cons next texts => rfl

theorem spaced_append {texts more : List Text} (h : texts ≠ []) (h' : more ≠ []) :
    spaced (texts ++ more) = spaced texts ++ ' ' :: spaced more := by
  induction texts with
  | nil => exact absurd rfl h
  | cons text texts ih =>
    by_cases hlast : texts = []
    · rw [hlast]
      exact spaced_cons h'
    · have hnext : texts ++ more ≠ [] := by
        intro hnil
        exact hlast (List.append_eq_nil_iff.mp hnil).1
      rw [List.cons_append, spaced_cons hnext, ih hlast, spaced_cons hlast, List.append_assoc]
      rfl

theorem spaced_ne_nil {texts : List Text} (h : texts ≠ []) (hne : ∀ text ∈ texts, text ≠ []) :
    spaced texts ≠ [] := by
  cases texts with
  | nil => exact absurd rfl h
  | cons text texts =>
    have htext := hne text List.mem_cons_self
    by_cases hlast : texts = []
    · subst hlast
      exact htext
    · rw [spaced_cons hlast]
      intro hnil
      exact htext (List.append_eq_nil_iff.mp hnil).1

/-- What a join begins with is its first texts and the beginning of one more. -/
theorem prefix_spaced {texts : List Text} {part : Text} (hne : texts ≠ []) (h : part <+: spaced texts) :
    ∃ between last rest p, texts = between ++ last :: rest ∧ p <+: last ∧ part = spaced (between ++ [p]) := by
  induction texts generalizing part with
  | nil => exact absurd rfl hne
  | cons text texts ih =>
    by_cases hlast : texts = []
    · subst hlast
      exact ⟨[], text, [], part, rfl, h, rfl⟩
    · rw [spaced_cons hlast] at h
      rcases List.prefix_or_prefix_of_prefix h (List.prefix_append text _) with hfirst | ⟨more, rfl⟩
      · exact ⟨[], text, texts, part, rfl, hfirst, rfl⟩
      · rw [List.prefix_append_right_inj] at h
        rcases List.prefix_cons_iff.mp h with rfl | ⟨later, rfl, hlater⟩
        · exact ⟨[], text, texts, text, rfl, List.prefix_rfl, List.append_nil _⟩
        · obtain ⟨between, last, rest, p, rfl, hp, rfl⟩ := ih hlast hlater
          exact ⟨text :: between, last, rest, p, rfl, hp, (spaced_cons (by simp)).symm⟩

/-- A part of a join is in one text, or is the end of one, whole texts and the beginning of
another. -/
theorem infix_spaced {texts : List Text} {part : Text} (hne : part ≠ []) (h : part <:+: spaced texts) :
    (∃ text ∈ texts, part <:+: text) ∨ ∃ before first between last rest s p,
      texts = before ++ first :: (between ++ last :: rest) ∧ s <:+ first ∧ p <+: last ∧
        part = spaced (s :: (between ++ [p])) := by
  induction texts with
  | nil => exact absurd (List.infix_nil.mp h) hne
  | cons text texts ih =>
    by_cases hlast : texts = []
    · subst hlast
      exact .inl ⟨text, List.mem_cons_self, h⟩
    · have hjoined : ∀ s later, s <:+ text → later <+: spaced texts → part = s ++ ' ' :: later →
          ∃ before first between last rest s p, text :: texts = before ++ first :: (between ++ last :: rest) ∧
            s <:+ first ∧ p <+: last ∧ part = spaced (s :: (between ++ [p])) := by
        intro s later hs hlater hpart
        obtain ⟨between, last, rest, p, rfl, hp, rfl⟩ := prefix_spaced hlast hlater
        exact ⟨[], text, between, last, rest, s, p, rfl, hs, hp, hpart.trans (spaced_cons (by simp)).symm⟩
      rw [spaced_cons hlast] at h
      rcases List.infix_append_iff.mp h with hfirst | hbehind | ⟨s, later, hpart, hs, hlater⟩
      · exact .inl ⟨text, List.mem_cons_self, hfirst⟩
      · rcases List.infix_cons_iff.mp hbehind with hhead | hbehind
        · obtain ⟨later, hpart, hlater⟩ := (List.prefix_cons_iff.mp hhead).resolve_left hne
          exact .inr (hjoined [] later List.nil_suffix hlater hpart)
        · rcases ih hbehind with ⟨other, hother, hinfix⟩ | ⟨before, first, between, last, rest, s, p, rfl, hparts⟩
          · exact .inl ⟨other, List.mem_cons_of_mem _ hother, hinfix⟩
          · exact .inr ⟨text :: before, first, between, last, rest, s, p, rfl, hparts⟩
      · rcases List.prefix_cons_iff.mp hlater with rfl | ⟨later, rfl, htail⟩
        · rw [List.append_nil] at hpart
          exact .inl ⟨text, List.mem_cons_self, hpart ▸ hs.isInfix⟩
        · exact .inr (hjoined s later hs htail hpart)

theorem infix_spaced_of_mem {texts : List Text} {text : Text} (h : text ∈ texts) : text <:+: spaced texts := by
  induction texts with
  | nil => cases h
  | cons first texts ih =>
    by_cases hlast : texts = []
    · subst hlast
      exact List.mem_singleton.mp h ▸ List.infix_rfl
    · rw [spaced_cons hlast]
      rcases List.mem_cons.mp h with rfl | hlater
      · exact (List.prefix_append _ _).isInfix
      · exact List.infix_append_of_infix_right (List.infix_cons (ih hlater))

/-- The end of a text, whole texts and the beginning of another are together in their join. -/
theorem spaced_infix {first last s p : Text} (between rest : List Text) (hs : s <:+ first) (hp : p <+: last) :
    spaced (s :: (between ++ [p])) <:+: spaced (first :: (between ++ last :: rest)) := by
  have hbegins : spaced (between ++ [p]) <+: spaced (between ++ last :: rest) := by
    induction between with
    | nil =>
      by_cases hlast : rest = []
      · subst hlast
        exact hp
      · rw [List.nil_append, List.nil_append, spaced_cons hlast]
        exact hp.trans (List.prefix_append _ _)
    | cons text between ih =>
      rw [List.cons_append, List.cons_append, spaced_cons (by simp), spaced_cons (by simp),
        List.prefix_append_right_inj, List.cons_prefix_cons]
      exact ⟨rfl, ih⟩
  obtain ⟨front, rfl⟩ := hs
  obtain ⟨back, hback⟩ := hbegins
  rw [spaced_cons (by simp), spaced_cons (by simp), ← hback]
  exact ⟨front, back, by simp⟩

theorem words_ne_nil {text : Text} (h : squeeze text ≠ []) : words text ≠ [] := by
  intro hnil
  apply h
  unfold squeeze
  rw [hnil]
  rfl

theorem words_eq_nil {text : Text} (h : squeeze text = []) : words text = [] := by
  by_contra hwords
  refine spaced_ne_nil hwords ?_ h
  intro word hword
  exact of_decide_eq_true (List.mem_filter.mp hword).2

theorem squeeze_blank_append {a : Text} (h : squeeze a = []) (b : Text) :
    squeeze (a ++ ' ' :: b) = squeeze b := by
  unfold squeeze
  rw [words_append a b isSpace_space, words_eq_nil h, List.nil_append]

theorem squeeze_append_blank (a : Text) {b : Text} (h : squeeze b = []) :
    squeeze (a ++ ' ' :: b) = squeeze a := by
  unfold squeeze
  rw [words_append a b isSpace_space, words_eq_nil h, List.append_nil]

/-- Squeezing goes through a join, where every text keeps a word. -/
theorem squeeze_append {a b : Text} (ha : squeeze a ≠ []) (hb : squeeze b ≠ []) :
    squeeze (a ++ ' ' :: b) = squeeze a ++ ' ' :: squeeze b := by
  show spaced (words (a ++ ' ' :: b)) = _
  rw [words_append a b isSpace_space]
  exact spaced_append (words_ne_nil ha) (words_ne_nil hb)

end Text

end Ekip.Lib
