import Ekip.Lib.Text
import Ekip.Retrieval.Store

/-!
# Inline citation markers

`agents/answer/markers.py` and `agents/answer/citations.py`: finding the markers of a
text, removing them, and turning them into citations.
-/
namespace Ekip.Agents.Answer

open Ekip.Lib Ekip.Shared Ekip.Core

variable {ω : Type}

/-! ## Scanning with `MARKER_PATTERN` -/

inductive Piece
  | char (c : Char)
  | marker (digits : Text)

/-- The digits of a marker that stands at the head of the text. -/
def markerAt : Text → Option Text
  | '[' :: rest =>
    let digits := rest.takeWhile Text.isDecimal
    if digits ≠ [] ∧ (rest.dropWhile Text.isDecimal).head? = some ']' then some digits else none
  | _ => none

/-- From left to right and without overlaps; `skip` characters of a marker are still
to be passed over. -/
def piecesFrom : Nat → Text → List Piece
  | _, [] => []
  | skip + 1, _ :: rest => piecesFrom skip rest
  | 0, c :: rest =>
    match markerAt (c :: rest) with
    | some digits => .marker digits :: piecesFrom (digits.length + 1) rest
    | none => .char c :: piecesFrom 0 rest

def pieces (text : Text) : List Piece := piecesFrom 0 text

def Piece.char? : Piece → Option Char
  | .char c => some c
  | .marker _ => none

def Piece.digits? : Piece → Option Text
  | .char _ => none
  | .marker digits => some digits

/-- `MARKER_PATTERN.finditer`. -/
def markers (text : Text) : List Text := (pieces text).filterMap Piece.digits?

/-- `MARKER_PATTERN.sub("", text)`. -/
def withoutMarkers (text : Text) : Text := (pieces text).filterMap Piece.char?

def stripMarkers (text : Text) : Text := Text.squeeze (withoutMarkers text)

/-! ## Citations -/

/-- The longest number that `int` reads. -/
def maxStrDigits : Nat := 4300

def parseInt (digits : Text) : Except Exn Nat :=
  if maxStrDigits < digits.length then
    .error (.valueError "Exceeds the limit (4300 digits) for integer string conversion")
  else .ok (Text.natOf digits)

def collectMarkers (seen : List Nat) : List Text → Except Exn (List Nat)
  | [] => .ok seen
  | digits :: rest => do
    let number ← parseInt digits
    collectMarkers (if number ∈ seen then seen else seen ++ [number]) rest

def extractCitationMarkers (text : Text) : Except Exn (List Nat) := collectMarkers [] (markers text)

def excerptMaxChars : Nat := 300

def toCitation (chunk : Retrieval.ScoredChunk ω) : Citation :=
  { documentId := chunk.documentId
    chunkId := chunk.chunkId
    sourceUrl := chunk.sourceUrl
    excerpt := String.ofList (chunk.content.toList.take excerptMaxChars) ++
      if excerptMaxChars < chunk.content.length then "..." else "" }

/-- The item of the context that is numbered so, if there is one. -/
def cited (chunks : List (Retrieval.ScoredChunk ω)) (number : Nat) :
    Option (Retrieval.ScoredChunk ω) :=
  if number = 0 then none else chunks[number - 1]?

def buildCitations (text : Text) (chunks : List (Retrieval.ScoredChunk ω)) :
    Except Exn (List Citation) := do
  let numbers ← extractCitationMarkers text
  pure ((numbers.filterMap (cited chunks)).map toCitation)

/-! ## Texts that are joined -/

section Joined

variable {c : Char}

theorem markerAt_bracket (rest : Text) :
    markerAt ('[' :: rest) =
      if rest.takeWhile Text.isDecimal ≠ [] ∧
          (rest.dropWhile Text.isDecimal).head? = some ']' then
        some (rest.takeWhile Text.isDecimal)
      else none := by
  simp only [markerAt]

theorem markerAt_of_ne (rest : Text) (h : c ≠ '[') : markerAt (c :: rest) = none := by
  unfold markerAt
  split
  · rename_i heq
    exact absurd (List.cons.inj heq).1 h
  · rfl

/-- A marker does not reach over a space. -/
theorem markerAt_append (a b : Text) :
    markerAt (c :: a ++ ' ' :: b) = markerAt (c :: a) := by
  by_cases hc : c = '['
  · subst hc
    rw [List.cons_append, markerAt_bracket, markerAt_bracket, Text.takeWhile_stop Text.isDecimal_space,
      Text.dropWhile_stop Text.isDecimal_space]
    have hhead : ((a.dropWhile Text.isDecimal ++ ' ' :: b).head? = some ']') ↔
        (a.dropWhile Text.isDecimal).head? = some ']' := by
      cases a.dropWhile Text.isDecimal with
      | nil | cons d rest => simp
    simp only [hhead]
  · rw [List.cons_append, markerAt_of_ne _ hc, markerAt_of_ne _ hc]

/-- What a marker is made of. -/
theorem markerAt_some {a digits : Text} (h : markerAt (c :: a) = some digits) :
    c = '[' ∧ digits ≠ [] ∧ (∀ d ∈ digits, Text.isDecimal d = true) ∧
      ∃ after, a = digits ++ ']' :: after := by
  by_cases hc : c = '['
  · subst hc
    rw [markerAt_bracket] at h
    split at h
    · rename_i hmarker
      obtain rfl := Option.some.inj h
      refine ⟨rfl, hmarker.1, fun d hd => List.mem_takeWhile_imp hd, ?_⟩
      cases hdrop : a.dropWhile Text.isDecimal with
      | nil => simp [hdrop] at hmarker
      | cons d after =>
        obtain rfl : d = ']' := by simpa [hdrop] using hmarker.2
        refine ⟨after, ?_⟩
        rw [← hdrop]
        exact (List.takeWhile_append_dropWhile).symm
    · cases h
  · rw [markerAt_of_ne _ hc] at h
    cases h

/-- A marker at the head takes its digits and the bracket. -/
theorem markerAt_length {a digits : Text} (h : markerAt (c :: a) = some digits) :
    digits.length + 1 ≤ a.length := by
  obtain ⟨-, -, -, after, rfl⟩ := markerAt_some h
  rw [List.length_append, List.length_cons]
  omega

theorem piecesFrom_append {skip : Nat} (a b : Text) (h : skip ≤ a.length) :
    piecesFrom skip (a ++ ' ' :: b) = piecesFrom skip a ++ .char ' ' :: pieces b := by
  induction a generalizing skip with
  | nil =>
    obtain rfl := Nat.le_zero.mp h
    rfl
  | cons c a ih =>
    cases skip with
    | succ skip => exact ih (Nat.le_of_succ_le_succ h)
    | zero =>
      have hat := markerAt_append (c := c) a b
      rw [List.cons_append] at hat
      rw [List.cons_append, piecesFrom, piecesFrom, hat]
      cases hmarker : markerAt (c :: a) with
      | none =>
        dsimp only
        rw [ih (Nat.zero_le _), List.cons_append]
      | some digits =>
        dsimp only
        rw [ih (markerAt_length hmarker), List.cons_append]

theorem markers_append (a b : Text) : markers (a ++ ' ' :: b) = markers a ++ markers b := by
  unfold markers
  rw [pieces, piecesFrom_append a b (Nat.zero_le _), List.filterMap_append]
  rfl

theorem withoutMarkers_append (a b : Text) :
    withoutMarkers (a ++ ' ' :: b) = withoutMarkers a ++ ' ' :: withoutMarkers b := by
  unfold withoutMarkers
  rw [pieces, piecesFrom_append a b (Nat.zero_le _), List.filterMap_append]
  rfl

theorem markers_spaced (texts : List Text) : markers (Text.spaced texts) = texts.flatMap markers := by
  induction texts with
  | nil => rfl
  | cons text texts ih =>
    by_cases hlast : texts = []
    · subst hlast
      simp [Text.spaced]
    · rw [Text.spaced_cons hlast, markers_append, ih, List.flatMap_cons]

/-- Removing the markers of a join removes them text by text. -/
theorem stripMarkers_spaced {texts : List Text} (h : ∀ text ∈ texts, stripMarkers text ≠ []) :
    stripMarkers (Text.spaced texts) = Text.spaced (texts.map stripMarkers) := by
  induction texts with
  | nil => rfl
  | cons text texts ih =>
    have htexts : ∀ other ∈ texts, stripMarkers other ≠ [] :=
      fun other hother => h other (List.mem_cons_of_mem _ hother)
    have hrest := ih htexts
    by_cases hlast : texts = []
    · subst hlast
      rfl
    · have hmap : texts.map stripMarkers ≠ [] := by
        intro hnil
        exact hlast (List.map_eq_nil_iff.mp hnil)
      have hjoined : stripMarkers (Text.spaced texts) ≠ [] := by
        rw [hrest]
        apply Text.spaced_ne_nil hmap
        intro stripped hstripped
        obtain ⟨other, hother, rfl⟩ := List.mem_map.mp hstripped
        exact htexts other hother
      rw [Text.spaced_cons hlast, List.map_cons, Text.spaced_cons hmap, ← hrest]
      unfold stripMarkers
      rw [withoutMarkers_append]
      exact Text.squeeze_append (h text List.mem_cons_self) hjoined

end Joined

/-! ## Texts with a marker in them -/

/-- Decimal digits, at least one. -/
def Number (digits : Text) : Prop := digits ≠ [] ∧ ∀ d ∈ digits, Text.isDecimal d = true

/-- `[digits]` is a part of the text. -/
def Mentions (text digits : Text) : Prop := Number digits ∧ '[' :: (digits ++ [']']) <:+: text

def HasMarker (text : Text) : Prop := ∃ digits, Mentions text digits

/-- A text that is read from the left: what stands outside its markers, and their digits. -/
inductive Scanned : Text → Text → List Text → Prop
  | nil : Scanned [] [] []
  | char {c : Char} {rest kept : Text} {found : List Text}
      (h : ∀ digits, Number digits → ¬ '[' :: (digits ++ [']']) <+: c :: rest) (hrest : Scanned rest kept found) :
      Scanned (c :: rest) (c :: kept) found
  | marker {digits rest kept : Text} {found : List Text} (h : Number digits) (hrest : Scanned rest kept found) :
      Scanned ('[' :: (digits ++ ']' :: rest)) kept (digits :: found)

/-- Digits with whole markers before, between and behind them. -/
inductive Riddled : Text → Text → Prop
  | nil : Riddled [] []
  | digit {d : Char} {rest digits : Text} (h : Text.isDecimal d = true) (hrest : Riddled rest digits) :
      Riddled (d :: rest) (d :: digits)
  | marker {inner rest digits : Text} (h : Number inner) (hrest : Riddled rest digits) :
      Riddled ('[' :: (inner ++ ']' :: rest)) digits

/-- Somewhere brackets enclose digits among which a marker stands. -/
def NestsMarker (text : Text) : Prop :=
  ∃ inside digits, Riddled inside digits ∧ digits ≠ [] ∧ inside ≠ digits ∧ '[' :: (inside ++ [']']) <:+: text

section HasMarker

variable {c : Char} {rest digits kept text : Text} {found : List Text}

theorem Number.not_mem (h : Number digits) (hc : Text.isDecimal c = false) : c ∉ digits := by
  intro hmem
  rw [h.2 c hmem] at hc
  cases hc

theorem markerAt_of_number (h : Number digits) (after : Text) :
    markerAt ('[' :: (digits ++ ']' :: after)) = some digits := by
  have hbracket : Text.isDecimal ']' = false := by decide
  have htake : digits.takeWhile Text.isDecimal = digits := List.takeWhile_eq_self_iff.mpr h.2
  have hdrop : digits.dropWhile Text.isDecimal = [] := List.dropWhile_eq_nil_iff.mpr h.2
  rw [markerAt_bracket, Text.takeWhile_stop hbracket, Text.dropWhile_stop hbracket, htake, hdrop]
  exact if_pos ⟨h.1, rfl⟩

theorem markerAt_eq_none : markerAt (c :: rest) = none ↔
    ∀ digits, Number digits → ¬ '[' :: (digits ++ [']']) <+: c :: rest := by
  constructor
  · rintro hnone digits hdigits ⟨after, hafter⟩
    rw [← hafter, List.cons_append, List.append_assoc, List.singleton_append,
      markerAt_of_number hdigits] at hnone
    cases hnone
  · intro h
    by_contra hsome
    obtain ⟨digits, hat⟩ := Option.ne_none_iff_exists'.mp hsome
    obtain ⟨rfl, hne, hdigits, after, rfl⟩ := markerAt_some hat
    exact h digits ⟨hne, hdigits⟩ ⟨after, by simp⟩

theorem read_char (h : markerAt (c :: rest) = none) :
    withoutMarkers (c :: rest) = c :: withoutMarkers rest ∧ markers (c :: rest) = markers rest := by
  unfold withoutMarkers markers pieces
  rw [piecesFrom, h]
  exact ⟨rfl, rfl⟩

theorem piecesFrom_skip (a b : Text) : piecesFrom a.length (a ++ b) = pieces b := by
  induction a with
  | nil => rfl
  | cons d a ih => exact ih

theorem read_marker (h : Number digits) (after : Text) :
    withoutMarkers ('[' :: (digits ++ ']' :: after)) = withoutMarkers after ∧
      markers ('[' :: (digits ++ ']' :: after)) = digits :: markers after := by
  have hpieces : pieces ('[' :: (digits ++ ']' :: after)) = .marker digits :: pieces after := by
    rw [← piecesFrom_skip (digits ++ [']']) after, List.length_append, List.append_assoc, pieces, piecesFrom,
      markerAt_of_number h]
    rfl
  unfold withoutMarkers markers
  rw [hpieces]
  exact ⟨rfl, rfl⟩

/-- The two functions are one reading of the text. -/
theorem scanned_iff : Scanned text kept found ↔ withoutMarkers text = kept ∧ markers text = found := by
  constructor
  · intro h
    induction h with
    | nil => exact ⟨rfl, rfl⟩
    | char h _ ih =>
      obtain ⟨rfl, rfl⟩ := ih
      exact read_char (markerAt_eq_none.mpr h)
    | marker h _ ih =>
      obtain ⟨rfl, rfl⟩ := ih
      exact read_marker h _
  · rintro ⟨rfl, rfl⟩
    induction hn : text.length using Nat.strong_induction_on generalizing text with
    | _ n ih =>
      subst hn
      cases text with
      | nil => exact .nil
      | cons c rest =>
        cases hat : markerAt (c :: rest) with
        | none =>
          rw [(read_char hat).1, (read_char hat).2]
          exact .char (markerAt_eq_none.mp hat) (ih rest.length (Nat.lt_succ_self _) rfl)
        | some digits =>
          obtain ⟨rfl, hne, hdigits, after, rfl⟩ := markerAt_some hat
          rw [(read_marker ⟨hne, hdigits⟩ after).1, (read_marker ⟨hne, hdigits⟩ after).2]
          exact .marker ⟨hne, hdigits⟩ (ih after.length (by simp; omega) rfl)

theorem scanned (text : Text) : Scanned text (withoutMarkers text) (markers text) :=
  scanned_iff.mpr ⟨rfl, rfl⟩

/-- A part that begins with a bracket does not begin in what has none. -/
theorem infix_behind {before tail : Text} (h : '[' ∉ before) :
    '[' :: tail <:+: before ++ rest ↔ '[' :: tail <:+: rest := by
  induction before with
  | nil => rfl
  | cons d before ih =>
    obtain ⟨hd, hbefore⟩ := not_or.mp (List.mem_cons.not.mp h)
    rw [List.cons_append, List.infix_cons_iff, List.cons_prefix_cons, ih hbefore]
    exact or_iff_right fun hhead => hd hhead.1

/-- A marker at the head is passed over. -/
theorem infix_marker {tail : Text} (h : Number digits) : '[' :: tail <:+: '[' :: (digits ++ ']' :: rest) ↔
    tail <+: digits ++ ']' :: rest ∨ '[' :: tail <:+: rest := by
  have hbefore : '[' ∉ digits ++ [']'] := by
    rw [List.mem_append]
    exact not_or.mpr ⟨h.not_mem (by decide), by decide⟩
  have hbehind : '[' :: tail <:+: digits ++ [']'] ++ rest ↔ '[' :: tail <:+: rest := infix_behind hbefore
  rw [List.append_assoc, List.singleton_append] at hbehind
  rw [List.infix_cons_iff, List.cons_prefix_cons, hbehind]
  exact or_congr_left (and_iff_right rfl)

/-- Digits up to a bracket are determined by the text. -/
theorem number_heads {digits' : Text} (h : Number digits) (h' : Number digits') :
    digits' ++ [']'] <+: digits ++ ']' :: rest ↔ digits' = digits := by
  constructor
  · rintro ⟨after, hafter⟩
    have hat := markerAt_of_number h' after
    rw [List.append_assoc, List.singleton_append] at hafter
    rw [hafter, markerAt_of_number h] at hat
    exact (Option.some.inj hat).symm
  · rintro rfl
    exact ⟨rest, by simp⟩

/-- Scanning finds the markers of a text wherever they stand. -/
theorem mem_markers_iff : digits ∈ markers text ↔ Mentions text digits := by
  have hscan := scanned text
  generalize withoutMarkers text = kept, markers text = found at hscan ⊢
  induction hscan with
  | nil => simp [Mentions]
  | char h _ ih =>
    refine ih.trans ?_
    unfold Mentions
    rw [List.infix_cons_iff]
    exact and_congr_right fun hdigits => (or_iff_right (h digits hdigits)).symm
  | marker h _ ih =>
    refine List.mem_cons.trans ((or_congr_right ih).trans ?_)
    unfold Mentions
    rw [infix_marker h]
    constructor
    · rintro (rfl | ⟨hdigits, hrest⟩)
      · exact ⟨h, .inl ((number_heads h h).mpr rfl)⟩
      · exact ⟨hdigits, .inr hrest⟩
    · rintro ⟨hdigits, hhead | hrest⟩
      · exact .inl ((number_heads h hdigits).mp hhead)
      · exact .inr ⟨hdigits, hrest⟩

theorem hasMarker_iff (text : Text) : HasMarker text ↔ markers text ≠ [] := by
  simp only [HasMarker, ← mem_markers_iff, ne_eq, List.eq_nil_iff_forall_not_mem, not_forall, not_not]

theorem hasMarker_spaced (texts : List Text) :
    HasMarker (Text.spaced texts) ↔ ∃ text ∈ texts, HasMarker text := by
  rw [hasMarker_iff, markers_spaced]
  simp only [ne_eq, List.flatMap_eq_nil_iff, not_forall, hasMarker_iff, exists_prop]

/-- A marker has no white space in it. -/
theorem hasMarker_space {s : Char} (hs : Text.isSpace s = true) (a b : Text) :
    HasMarker (a ++ s :: b) ↔ HasMarker a ∨ HasMarker b := by
  have hno : ∀ digits, Number digits → s ∉ '[' :: (digits ++ [']']) := by
    intro digits hdigits hmem
    have hlast : s ∈ digits ∨ s = '[' ∨ s = ']' := by simpa [or_left_comm] using hmem
    rcases hlast with hdigit | rfl | rfl
    · exact hdigits.not_mem (Text.isDecimal_of_isSpace hs) hdigit
    · exact absurd hs (by decide)
    · exact absurd hs (by decide)
  constructor
  · rintro ⟨digits, hdigits, hinfix⟩
    rcases List.infix_append_iff.mp hinfix with hleft | hright | ⟨l, l', hmarker, hleft, hright⟩
    · exact .inl ⟨digits, hdigits, hleft⟩
    · rcases List.infix_cons_iff.mp hright with hhead | hbehind
      · obtain ⟨_, hmarker, -⟩ := (List.prefix_cons_iff.mp hhead).resolve_left (List.cons_ne_nil _ _)
        exact absurd (by rw [hmarker]; exact List.mem_cons_self) (hno digits hdigits)
      · exact .inr ⟨digits, hdigits, hbehind⟩
    · rcases List.prefix_cons_iff.mp hright with rfl | ⟨t, rfl, -⟩
      · rw [List.append_nil] at hmarker
        exact .inl ⟨digits, hdigits, hmarker ▸ hleft.isInfix⟩
      · exact absurd (by simp [hmarker]) (hno digits hdigits)
  · rintro (⟨digits, hdigits, hinfix⟩ | ⟨digits, hdigits, hinfix⟩)
    · exact ⟨digits, hdigits, List.infix_append_of_infix_left hinfix⟩
    · exact ⟨digits, hdigits, List.infix_append_of_infix_right (List.infix_cons hinfix)⟩

theorem hasMarker_squeeze (text : Text) : HasMarker (Text.squeeze text) ↔ HasMarker text := by
  unfold Text.squeeze
  rw [hasMarker_spaced]
  induction hn : text.length using Nat.strong_induction_on generalizing text with
  | _ n ih =>
    subst hn
    by_cases hspace : ∃ s ∈ text, Text.isSpace s = true
    · obtain ⟨s, hmem, hs⟩ := hspace
      obtain ⟨a, b, rfl⟩ := List.append_of_mem hmem
      rw [Text.words_append a b hs, hasMarker_space hs, ← ih a.length (by simp) a rfl,
        ← ih b.length (by simp; omega) b rfl]
      simp only [List.mem_append, or_and_right, exists_or]
    · have hwords : Text.words text = [text].filter fun word => word ≠ [] := by
        unfold Text.words
        rw [List.splitOnP_eq_singleton (by simpa using hspace)]
      rw [hwords]
      cases text with
      | nil => simp [HasMarker, Mentions]
      | cons c text => simp

/-! ### What a removal puts together -/

theorem Riddled.withoutMarkers_append {inside : Text} (h : Riddled inside digits) (after : Text) :
    withoutMarkers (inside ++ ']' :: after) = digits ++ ']' :: withoutMarkers after := by
  induction h with
  | nil => exact (read_char (markerAt_of_ne _ (by decide))).1
  | digit hd _ ih =>
    rw [List.cons_append, (read_char (markerAt_of_ne _ ?_)).1, ih, List.cons_append]
    rintro rfl
    exact absurd hd (by decide)
  | marker hinner _ ih =>
    rw [List.cons_append, List.append_assoc, List.cons_append, (read_marker hinner _).1, ih]

/-- What is left as digits up to a bracket had only markers among them. -/
theorem Scanned.riddled (h : Scanned text kept found) {after : Text} (hkept : kept = digits ++ ']' :: after)
    (hdigits : ∀ d ∈ digits, Text.isDecimal d = true) :
    ∃ inside, Riddled inside digits ∧ inside ++ [']'] <+: text := by
  induction h generalizing digits with
  | nil => simp at hkept
  | @char c rest kept found _ _ ih =>
    cases digits with
    | nil =>
      obtain rfl := (List.cons.inj hkept).1
      exact ⟨[], .nil, by simp⟩
    | cons d digits =>
      obtain ⟨rfl, hrest⟩ := List.cons.inj hkept
      obtain ⟨inside, hinside, hheads⟩ := ih hrest fun e he => hdigits e (List.mem_cons_of_mem _ he)
      exact ⟨c :: inside, .digit (hdigits c List.mem_cons_self) hinside, List.cons_prefix_cons.mpr ⟨rfl, hheads⟩⟩
  | @marker inner rest kept found hinner _ ih =>
    obtain ⟨inside, hinside, hheads⟩ := ih hkept hdigits
    refine ⟨'[' :: (inner ++ ']' :: inside), .marker hinner hinside, ?_⟩
    simpa using hheads

theorem Riddled.decimal {inside : Text} (h : Riddled inside digits) : ∀ d ∈ digits, Text.isDecimal d = true := by
  induction h with
  | nil => nofun
  | digit hd _ ih => exact List.forall_mem_cons.mpr ⟨hd, ih⟩
  | marker _ _ ih => exact ih

/-- Before the first bracket that closes there are only digits. -/
theorem Riddled.eq_of_prefix {inside plain : Text} (h : Riddled inside digits)
    (hplain : ∀ d ∈ plain, Text.isDecimal d = true) (hheads : inside ++ [']'] <+: plain ++ ']' :: rest) :
    inside = digits := by
  induction h generalizing plain with
  | nil => rfl
  | @digit d _ _ hd _ ih =>
    cases plain with
    | nil =>
      obtain rfl := (List.cons_prefix_cons.mp hheads).1
      exact absurd hd (by decide)
    | cons p plain =>
      exact congrArg _ (ih (fun e he => hplain e (List.mem_cons_of_mem _ he)) (List.cons_prefix_cons.mp hheads).2)
  | marker _ _ _ =>
    cases plain with
    | nil => exact absurd (List.cons_prefix_cons.mp hheads).1 (by decide)
    | cons p plain =>
      obtain rfl := (List.cons_prefix_cons.mp hheads).1
      exact absurd (hplain _ List.mem_cons_self) (by decide)

/-- What is left has a marker where one stood among digits in brackets. -/
theorem Scanned.hasMarker_iff (h : Scanned text kept found) : HasMarker kept ↔ NestsMarker text := by
  induction h with
  | nil => simp [HasMarker, Mentions, NestsMarker]
  | @char c rest kept found hhead hrest ih =>
    constructor
    · rintro ⟨digits, hdigits, hinfix⟩
      rcases List.infix_cons_iff.mp hinfix with hheads | hbehind
      · obtain ⟨rfl, after, rfl⟩ := List.cons_prefix_cons.mp hheads
        obtain ⟨inside, hinside, hheads⟩ := hrest.riddled (List.append_assoc _ _ _) hdigits.2
        have hopened : '[' :: (inside ++ [']']) <+: '[' :: rest := List.cons_prefix_cons.mpr ⟨rfl, hheads⟩
        refine ⟨inside, digits, hinside, hdigits.1, ?_, hopened.isInfix⟩
        rintro rfl
        exact hhead inside hdigits hopened
      · obtain ⟨inside, digits, hinside, hne, hriddled, hinfix⟩ := ih.mp ⟨digits, hdigits, hbehind⟩
        exact ⟨inside, digits, hinside, hne, hriddled, List.infix_cons hinfix⟩
    · rintro ⟨inside, digits, hinside, hne, hriddled, hinfix⟩
      rcases List.infix_cons_iff.mp hinfix with hheads | hbehind
      · obtain ⟨rfl, after, rfl⟩ := List.cons_prefix_cons.mp hheads
        have hkept := (scanned_iff.mp hrest).1
        rw [List.append_assoc, List.singleton_append, hinside.withoutMarkers_append] at hkept
        refine ⟨digits, ⟨hne, hinside.decimal⟩, (List.cons_prefix_cons.mpr ⟨rfl, ?_⟩).isInfix⟩
        exact ⟨withoutMarkers after, by simp [← hkept]⟩
      · obtain ⟨digits, hdigits, hinfix⟩ := ih.mpr ⟨inside, digits, hinside, hne, hriddled, hbehind⟩
        exact ⟨digits, hdigits, List.infix_cons hinfix⟩
  | marker hplain _ ih =>
    rw [ih]
    unfold NestsMarker
    simp only [infix_marker hplain]
    constructor
    · rintro ⟨inside, digits, hinside, hne, hriddled, hinfix⟩
      exact ⟨inside, digits, hinside, hne, hriddled, .inr hinfix⟩
    · rintro ⟨inside, digits, hinside, hne, hriddled, hheads | hinfix⟩
      · exact absurd (hinside.eq_of_prefix hplain.2 hheads) hriddled
      · exact ⟨inside, digits, hinside, hne, hriddled, hinfix⟩

theorem hasMarker_stripMarkers (text : Text) : HasMarker (stripMarkers text) ↔ NestsMarker text :=
  (hasMarker_squeeze _).trans (scanned text).hasMarker_iff

end HasMarker

/-! ## The numbers of the markers -/

/-- The distinct numbers, each where it is first mentioned. -/
theorem collectMarkers_ok (seen : List Nat) {texts : List Text}
    (h : ∀ digits ∈ texts, digits.length ≤ maxStrDigits) :
    collectMarkers seen texts =
      .ok (seen ++ ((texts.map Text.natOf).filter fun n => n ∉ seen).eraseDups) := by
  induction texts generalizing seen with
  | nil => simp [collectMarkers]
  | cons digits texts ih =>
    have hint : parseInt digits = .ok (Text.natOf digits) :=
      if_neg (Nat.not_lt.mpr (h digits List.mem_cons_self))
    have hrest : ∀ other ∈ texts, other.length ≤ maxStrDigits :=
      fun other hother => h other (List.mem_cons_of_mem _ hother)
    show (parseInt digits >>= fun number =>
      collectMarkers (if number ∈ seen then seen else seen ++ [number]) texts) = _
    rw [hint]
    show collectMarkers (if Text.natOf digits ∈ seen then seen else seen ++ [Text.natOf digits]) texts = _
    by_cases hseen : Text.natOf digits ∈ seen
    · rw [if_pos hseen, ih seen hrest, List.map_cons, List.filter_cons_of_neg (by simp [hseen])]
    · have hfilter : ((texts.map Text.natOf).filter fun n => n ∉ seen ++ [Text.natOf digits]) =
          ((texts.map Text.natOf).filter fun n => n ∉ seen).filter fun n =>
            !(n == Text.natOf digits) := by
        rw [List.filter_filter]
        apply List.filter_congr
        intro n _
        by_cases hn : n = Text.natOf digits <;> simp [hn, hseen]
      rw [if_neg hseen, ih _ hrest, hfilter, List.map_cons,
        List.filter_cons_of_pos (by simp [hseen]), List.eraseDups_cons, List.append_assoc]
      rfl

theorem collectMarkers_error (seen : List Nat) {texts : List Text}
    (h : ∃ digits ∈ texts, maxStrDigits < digits.length) :
    ∃ e, collectMarkers seen texts = .error e := by
  induction texts generalizing seen with
  | nil =>
    obtain ⟨digits, hdigits, -⟩ := h
    cases hdigits
  | cons digits texts ih =>
    show ∃ e, (parseInt digits >>= fun number =>
      collectMarkers (if number ∈ seen then seen else seen ++ [number]) texts) = .error e
    by_cases hlong : maxStrDigits < digits.length
    · have hint : ∃ e, parseInt digits = .error e := ⟨_, if_pos hlong⟩
      obtain ⟨e, hint⟩ := hint
      rw [hint]
      exact ⟨e, rfl⟩
    · have hint : parseInt digits = .ok (Text.natOf digits) := if_neg hlong
      obtain ⟨other, hother, hlong'⟩ := h
      rw [hint]
      apply ih
      rcases List.mem_cons.mp hother with rfl | hother
      · exact absurd hlong' hlong
      · exact ⟨other, hother, hlong'⟩

end Ekip.Agents.Answer
