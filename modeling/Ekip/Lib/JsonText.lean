import Mathlib.Data.List.TakeDrop
import Ekip.Lib.Text

/-!
# Reading JSON

`json.loads` of a text, by recursive descent. A string is read into its code points, of
which an escape may leave a lone surrogate; a number is kept as it is spelled.

Brackets outside of strings nest: `Level` says that a text leaves the depth of brackets
where it was and never falls below it. A text that is read is level, and the text of an
object is deeper than that until its last character, so that no beginning of it can be read.
-/
namespace Ekip.Lib.JsonText

open Text

inductive Value
  | null
  | bool (value : Bool)
  | number (literal : Text)
  | string (content : List Nat)
  | array (items : List Value)
  | object (entries : List (List Nat × Value))

/-! ## Scalars -/

/-- The white space of JSON. -/
def isBlank (c : Char) : Bool := c ∈ [' ', '\t', '\n', '\r']

def skipBlanks (text : Text) : Text := text.dropWhile isBlank

def hexDigit? (c : Char) : Option Nat :=
  if '0' ≤ c ∧ c ≤ '9' then some (c.toNat - 48)
  else if 'a' ≤ c ∧ c ≤ 'f' then some (c.toNat - 87)
  else if 'A' ≤ c ∧ c ≤ 'F' then some (c.toNat - 55)
  else none

def hex4? (a b c d : Char) : Option Nat := do
  let a ← hexDigit? a
  let b ← hexDigit? b
  let c ← hexDigit? c
  let d ← hexDigit? d
  pure (((a * 16 + b) * 16 + c) * 16 + d)

def escapes : List (Char × Char) :=
  [('"', '"'), ('\\', '\\'), ('/', '/'), ('b', '\x08'), ('f', '\x0c'), ('n', '\n'), ('r', '\r'),
   ('t', '\t')]

/-- What follows the opening quote: the units up to the closing one, and the rest. -/
def units : Text → Option (List Nat × Text)
  | [] => none
  | '"' :: rest => some ([], rest)
  | '\\' :: 'u' :: a :: b :: c :: d :: rest => do
    let unit ← hex4? a b c d
    (units rest).map fun read => (unit :: read.1, read.2)
  | '\\' :: c :: rest => do
    let escaped ← escapes.lookup c
    (units rest).map fun read => (escaped.toNat :: read.1, read.2)
  | c :: rest =>
    if c.toNat < 32 ∨ c = '\\' then none
    else (units rest).map fun read => (c.toNat :: read.1, read.2)

/-- A high surrogate and the low one behind it are one character. -/
def paired : List Nat → List Nat
  | high :: low :: rest =>
    if 0xD800 ≤ high ∧ high < 0xDC00 ∧ 0xDC00 ≤ low ∧ low < 0xE000 then
      (0x10000 + (high - 0xD800) * 0x400 + (low - 0xDC00)) :: paired rest
    else high :: paired (low :: rest)
  | rest => rest

def digits (text : Text) : Text × Text := text.span Char.isDigit

def integer : Text → Option (Text × Text)
  | '0' :: rest => some (['0'], rest)
  | text => if (digits text).1 = [] then none else some (digits text)

def fraction : Text → Text × Text
  | '.' :: rest =>
    if (digits rest).1 = [] then ([], '.' :: rest) else ('.' :: (digits rest).1, (digits rest).2)
  | text => ([], text)

def sign : Text → Text × Text
  | '+' :: rest => (['+'], rest)
  | '-' :: rest => (['-'], rest)
  | text => ([], text)

def exponent : Text → Text × Text
  | c :: rest =>
    if (c = 'e' ∨ c = 'E') ∧ (digits (sign rest).2).1 ≠ [] then
      (c :: (sign rest).1 ++ (digits (sign rest).2).1, (digits (sign rest).2).2)
    else ([], c :: rest)
  | [] => ([], [])

def unsigned (text : Text) : Option (Text × Text) :=
  (integer text).map fun read =>
    (read.1 ++ (fraction read.2).1 ++ (exponent (fraction read.2).2).1,
      (exponent (fraction read.2).2).2)

def number : Text → Option (Text × Text)
  | '-' :: rest => (unsigned rest).map fun read => ('-' :: read.1, read.2)
  | text => unsigned text

def words : List (Text × Value) :=
  [("null".toList, .null), ("true".toList, .bool true), ("false".toList, .bool false),
   ("NaN".toList, .number "NaN".toList), ("Infinity".toList, .number "Infinity".toList),
   ("-Infinity".toList, .number "-Infinity".toList)]

def word? (text : Text) : Option (Value × Text) :=
  words.findSome? fun entry =>
    if entry.1.isPrefixOf text then some (entry.2, text.drop entry.1.length) else none

def scalar (text : Text) : Option (Value × Text) :=
  (word? text).or ((number text).map fun read => (.number read.1, read.2))

def quoted (text : Text) : Option (List Nat × Text) :=
  (units text).map fun read => (paired read.1, read.2)

/-! ## Values -/

mutual

/-- The value that a text begins with, and the rest of the text. -/
def value : Nat → Text → Option (Value × Text)
  | 0, _ => none
  | fuel + 1, text =>
    match text with
    | '"' :: rest => (quoted rest).map fun read => (.string read.1, read.2)
    | '\x7b' :: rest =>
      match skipBlanks rest with
      | '\x7d' :: rest => some (.object [], rest)
      | rest => (entries fuel rest).map fun read => (.object read.1, read.2)
    | '[' :: rest =>
      match skipBlanks rest with
      | ']' :: rest => some (.array [], rest)
      | rest => (items fuel rest).map fun read => (.array read.1, read.2)
    | text => scalar text

/-- The entries up to the closing brace. -/
def entries : Nat → Text → Option (List (List Nat × Value) × Text)
  | 0, _ => none
  | fuel + 1, text =>
    match text with
    | '"' :: rest => do
      let (key, rest) ← quoted rest
      match skipBlanks rest with
      | ':' :: rest => do
        let (read, rest) ← value fuel (skipBlanks rest)
        match skipBlanks rest with
        | '\x7d' :: rest => some ([(key, read)], rest)
        | ',' :: rest => do
          let (more, rest) ← entries fuel (skipBlanks rest)
          pure ((key, read) :: more, rest)
        | _ => none
      | _ => none
    | _ => none

/-- The items up to the closing bracket. -/
def items : Nat → Text → Option (List Value × Text)
  | 0, _ => none
  | fuel + 1, text => do
    let (read, rest) ← value fuel text
    match skipBlanks rest with
    | ']' :: rest => some ([read], rest)
    | ',' :: rest => do
      let (more, rest) ← items fuel (skipBlanks rest)
      pure (read :: more, rest)
    | _ => none

end

/-- A list costs two calls a character at most. -/
def enough (text : Text) : Nat := 2 * text.length + 2

def loads (text : Text) : Option Value := do
  let (read, rest) ← value (enough text) (skipBlanks text)
  if skipBlanks rest = [] then some read else none

/-! ## Depth -/

inductive Mode
  | outside
  | inside
  | escaped

/-- The depth of brackets, and the place in a string, after one more character. -/
def scan : Nat × Mode → Char → Nat × Mode
  | (depth, .outside), c =>
    if c = '"' then (depth, .inside)
    else if c = '\x7b' ∨ c = '[' then (depth + 1, .outside)
    else if c = '\x7d' ∨ c = ']' then (depth - 1, .outside)
    else (depth, .outside)
  | (depth, .inside), c =>
    if c = '"' then (depth, .outside)
    else if c = '\\' then (depth, .escaped)
    else (depth, .inside)
  | (depth, .escaped), _ => (depth, .inside)

def depthAfter (text : Text) (start : Nat × Mode) : Nat := (text.foldl scan start).1

/-- The text ends where it began, and no deeper bracket is closed on the way. -/
structure Keeps (mode : Mode) (text : Text) : Prop where
  stays : ∀ depth, text.foldl scan (depth, mode) = (depth, mode)
  above : ∀ depth front back, text = front ++ back → depth ≤ depthAfter front (depth, mode)

/-- What is outside of strings. -/
abbrev Level (text : Text) : Prop := Keeps .outside text

namespace Keeps

variable {mode : Mode} {a b text : Text}

theorem nil (mode : Mode) : Keeps mode [] where
  stays _ := rfl
  above depth front back h := by
    obtain ⟨rfl, -⟩ := List.append_eq_nil_iff.mp h.symm
    exact le_rfl

theorem append (ha : Keeps mode a) (hb : Keeps mode b) : Keeps mode (a ++ b) where
  stays depth := by rw [List.foldl_append, ha.stays, hb.stays]
  above depth front back h := by
    rcases List.append_eq_append_iff.mp h with ⟨more, rfl, hmore⟩ | ⟨more, hmore, -⟩
    · unfold depthAfter
      rw [List.foldl_append, ha.stays]
      exact hb.above depth more back hmore
    · exact ha.above depth front more hmore

theorem singleton {c : Char} (h : ∀ depth, scan (depth, mode) c = (depth, mode)) :
    Keeps mode [c] where
  stays := h
  above depth front back hsplit := by
    rcases List.singleton_eq_append_iff.mp hsplit with ⟨rfl, -⟩ | ⟨rfl, -⟩
    · exact le_rfl
    · show depth ≤ (scan (depth, mode) c).1
      rw [h]

theorem of_forall (h : ∀ c ∈ text, ∀ depth, scan (depth, mode) c = (depth, mode)) :
    Keeps mode text := by
  induction text with
  | nil => exact nil mode
  | cons c text ih =>
    have hhead := singleton (h c List.mem_cons_self)
    exact hhead.append (ih fun d hd => h d (List.mem_cons_of_mem _ hd))

/-- A character that is neither a quote nor a bracket. -/
theorem plain {c : Char} (h : c ∉ ['"', '\x7b', '\x7d', '[', ']']) (depth : Nat) :
    scan (depth, .outside) c = (depth, .outside) := by
  simp only [List.mem_cons, List.not_mem_nil, or_false, not_or] at h
  obtain ⟨hquote, hopen, hclose, hopen', hclose'⟩ := h
  simp [scan, hquote, hopen, hclose, hopen', hclose']

theorem escape (c : Char) : Keeps .inside ['\\', c] where
  stays depth := rfl
  above depth front back h := by
    rcases List.cons_eq_append_iff.mp h with ⟨rfl, -⟩ | ⟨tail, rfl, htail⟩
    · exact le_rfl
    · rcases List.singleton_eq_append_iff.mp htail with ⟨rfl, -⟩ | ⟨rfl, -⟩
      · exact le_rfl
      · exact le_rfl

/-- A string is passed over. -/
theorem quotes (h : Keeps .inside text) : Level ('"' :: (text ++ ['"'])) where
  stays depth := by
    rw [List.foldl_cons, List.foldl_append]
    show ['"'].foldl scan (text.foldl scan (depth, .inside)) = _
    rw [h.stays]
    rfl
  above depth front back hsplit := by
    rcases List.cons_eq_append_iff.mp hsplit with ⟨rfl, -⟩ | ⟨tail, rfl, htail⟩
    · exact le_rfl
    · rcases List.append_eq_append_iff.mp htail with ⟨more, rfl, hmore⟩ | ⟨more, hmore, -⟩
      · show depth ≤ ((text ++ more).foldl scan (depth, .inside)).1
        rw [List.foldl_append, h.stays]
        rcases List.singleton_eq_append_iff.mp hmore with ⟨rfl, -⟩ | ⟨rfl, -⟩
        · exact le_rfl
        · exact le_rfl
      · exact h.above depth tail more hmore

/-- Up to the closing bracket, the depth of a bracketed text is more than what it began with. -/
theorem deeper {opening : Char} (hopening : opening = '\x7b' ∨ opening = '[') (h : Level text)
    (depth : Nat) {front back : Text} (hsplit : opening :: text = front ++ back)
    (hfront : front ≠ []) : depth + 1 ≤ depthAfter front (depth, .outside) := by
  rcases List.cons_eq_append_iff.mp hsplit with ⟨rfl, -⟩ | ⟨tail, rfl, htail⟩
  · exact absurd rfl hfront
  · have hopen : scan (depth, .outside) opening = (depth + 1, .outside) := by
      rcases hopening with rfl | rfl <;> rfl
    unfold depthAfter
    rw [List.foldl_cons, hopen]
    exact h.above (depth + 1) tail back htail

theorem brackets {opening closing : Char} (hopening : opening = '\x7b' ∨ opening = '[')
    (hclosing : closing = '\x7d' ∨ closing = ']') (h : Level text) :
    Level (opening :: (text ++ [closing])) where
  stays depth := by
    have hopen : scan (depth, .outside) opening = (depth + 1, .outside) := by
      rcases hopening with rfl | rfl <;> rfl
    have hclose : scan (depth + 1, .outside) closing = (depth, .outside) := by
      rcases hclosing with rfl | rfl <;> rfl
    rw [List.foldl_cons, hopen, List.foldl_append, h.stays]
    exact hclose
  above depth front back hsplit := by
    by_cases hfront : front = []
    · rw [hfront]
      exact le_rfl
    · rw [← List.cons_append] at hsplit
      rcases List.append_eq_append_iff.mp hsplit with ⟨more, rfl, hmore⟩ | ⟨more, hmore, -⟩
      · have hopen : scan (depth, .outside) opening = (depth + 1, .outside) := by
          rcases hopening with rfl | rfl <;> rfl
        have hclose : scan (depth + 1, .outside) closing = (depth, .outside) := by
          rcases hclosing with rfl | rfl <;> rfl
        unfold depthAfter
        rw [List.foldl_append, List.foldl_cons, hopen, h.stays]
        rcases List.singleton_eq_append_iff.mp hmore with ⟨rfl, -⟩ | ⟨rfl, -⟩
        · exact Nat.le_succ depth
        · show depth ≤ (scan (depth + 1, .outside) closing).1
          rw [hclose]
      · have hdeep := deeper hopening h depth hmore hfront
        omega

end Keeps

/-! ## What is read is level -/

theorem blank_plain {c : Char} (h : isBlank c = true) (depth : Nat) :
    scan (depth, .outside) c = (depth, .outside) := by
  have hmem : c ∈ [' ', '\t', '\n', '\r'] := by simpa [isBlank] using h
  refine Keeps.plain ?_ depth
  simp only [List.mem_cons, List.not_mem_nil, or_false] at hmem
  rcases hmem with rfl | rfl | rfl | rfl <;> decide

theorem level_blanks {text : Text} (h : ∀ c ∈ text, isBlank c = true) : Level text :=
  .of_forall fun c hc depth => blank_plain (h c hc) depth

theorem skipBlanks_split (text : Text) :
    ∃ blanks, (∀ c ∈ blanks, isBlank c = true) ∧ text = blanks ++ skipBlanks text :=
  ⟨text.takeWhile isBlank, fun _ hc => List.mem_takeWhile_imp hc,
    List.takeWhile_append_dropWhile.symm⟩

theorem hexDigit_not_special {c : Char} {n : Nat} (h : hexDigit? c = some n) :
    c ≠ '"' ∧ c ≠ '\\' := by
  refine ⟨?_, ?_⟩
  · rintro rfl
    have hnone : hexDigit? '"' = none := by decide
    rw [hnone] at h
    cases h
  · rintro rfl
    have hnone : hexDigit? '\\' = none := by decide
    rw [hnone] at h
    cases h

theorem inside_singleton {c : Char} (hquote : c ≠ '"') (hescape : c ≠ '\\') :
    Keeps .inside [c] :=
  .singleton fun depth => by simp [scan, hquote, hescape]

theorem hex4_inside {a b c d : Char} {n : Nat} (h : hex4? a b c d = some n) :
    Keeps .inside [a, b, c, d] := by
  obtain ⟨_, ha, h⟩ := Option.bind_eq_some_iff.mp h
  obtain ⟨_, hb, h⟩ := Option.bind_eq_some_iff.mp h
  obtain ⟨_, hc, h⟩ := Option.bind_eq_some_iff.mp h
  obtain ⟨_, hd, -⟩ := Option.bind_eq_some_iff.mp h
  have digit {x : Char} {m : Nat} (hx : hexDigit? x = some m) : Keeps .inside [x] :=
    inside_singleton (hexDigit_not_special hx).1 (hexDigit_not_special hx).2
  exact (digit ha).append ((digit hb).append ((digit hc).append (digit hd)))

theorem units_inside {text rest : Text} {content : List Nat}
    (h : units text = some (content, rest)) :
    ∃ front, text = front ++ '"' :: rest ∧ Keeps .inside front := by
  induction text using units.induct generalizing content with
  | case1 => cases h
  | case2 rest' =>
    rw [units] at h
    cases h
    exact ⟨[], rfl, .nil _⟩
  | case3 a b c d rest' ih =>
    rw [units] at h
    obtain ⟨unit, hunit, hread⟩ := Option.bind_eq_some_iff.mp h
    obtain ⟨⟨more, rest''⟩, hmore, hpure⟩ := Option.map_eq_some_iff.mp hread
    cases hpure
    obtain ⟨front, rfl, hfront⟩ := ih hmore
    exact ⟨'\\' :: 'u' :: a :: b :: c :: d :: front, rfl,
      (Keeps.escape 'u').append ((hex4_inside hunit).append hfront)⟩
  | case4 c rest' hnot ih =>
    rw [units] at h
    · obtain ⟨escaped, -, hread⟩ := Option.bind_eq_some_iff.mp h
      obtain ⟨⟨more, rest''⟩, hmore, hpure⟩ := Option.map_eq_some_iff.mp hread
      cases hpure
      obtain ⟨front, rfl, hfront⟩ := ih hmore
      exact ⟨'\\' :: c :: front, rfl, (Keeps.escape c).append hfront⟩
    · exact hnot
  | case5 c rest' hquote hunicode hescape hspecial =>
    rw [units] at h
    · rw [if_pos hspecial] at h
      cases h
    all_goals assumption
  | case6 c rest' hquote hunicode hescape hspecial ih =>
    rw [units] at h
    · rw [if_neg hspecial] at h
      obtain ⟨⟨more, rest''⟩, hmore, hpure⟩ := Option.map_eq_some_iff.mp h
      cases hpure
      obtain ⟨front, rfl, hfront⟩ := ih hmore
      exact ⟨c :: front, rfl,
        (inside_singleton hquote fun heq => hspecial (.inr heq)).append hfront⟩
    all_goals assumption

theorem quoted_level {text rest : Text} {content : List Nat}
    (h : quoted text = some (content, rest)) :
    ∃ front, '"' :: text = front ++ rest ∧ Level front := by
  obtain ⟨⟨read, rest'⟩, hread, hpure⟩ := Option.map_eq_some_iff.mp h
  cases hpure
  obtain ⟨front, rfl, hfront⟩ := units_inside hread
  exact ⟨'"' :: (front ++ ['"']), by simp, hfront.quotes⟩

/-- The characters that numbers and words are spelled with. -/
def isBare (c : Char) : Bool := c ∉ ['"', '\x7b', '\x7d', '[', ']']

theorem level_bare {text : Text} (h : ∀ c ∈ text, isBare c = true) : Level text :=
  .of_forall fun c hc depth => Keeps.plain (by simpa [isBare] using h c hc) depth

theorem bare_of_isDigit {c : Char} (h : c.isDigit = true) : isBare c = true := by
  have hne {d : Char} (hd : d.isDigit = false) : c ≠ d := by
    rintro rfl
    rw [hd] at h
    cases h
  simp [isBare, hne (d := '"') rfl, hne (d := '\x7b') rfl, hne (d := '\x7d') rfl,
    hne (d := '[') rfl, hne (d := ']') rfl]

theorem digits_split (text : Text) :
    text = (digits text).1 ++ (digits text).2 ∧ ∀ c ∈ (digits text).1, isBare c = true := by
  unfold digits
  rw [List.span_eq_takeWhile_dropWhile]
  exact ⟨List.takeWhile_append_dropWhile.symm,
    fun c hc => bare_of_isDigit (List.mem_takeWhile_imp hc)⟩

theorem integer_split {text : Text} {read : Text × Text} (h : integer text = some read) :
    text = read.1 ++ read.2 ∧ ∀ c ∈ read.1, isBare c = true := by
  unfold integer at h
  split at h
  · cases h
    exact ⟨rfl, by simp [isBare]⟩
  · split at h
    · cases h
    · cases h
      exact digits_split text

theorem fraction_split (text : Text) :
    text = (fraction text).1 ++ (fraction text).2 ∧ ∀ c ∈ (fraction text).1, isBare c = true := by
  unfold fraction
  split
  · split
    · simp
    · rename_i rest _
      obtain ⟨hsplit, hbare⟩ := digits_split rest
      refine ⟨congrArg _ hsplit, ?_⟩
      intro c hc
      rcases List.mem_cons.mp hc with rfl | hc
      · rfl
      · exact hbare c hc
  · simp

theorem sign_split (text : Text) :
    text = (sign text).1 ++ (sign text).2 ∧ ∀ c ∈ (sign text).1, isBare c = true := by
  unfold sign
  split <;> simp [isBare]

theorem exponent_split (text : Text) :
    text = (exponent text).1 ++ (exponent text).2 ∧ ∀ c ∈ (exponent text).1, isBare c = true := by
  cases text with
  | nil => simp [exponent]
  | cons c rest =>
    rw [exponent]
    split
    case isTrue hexponent =>
      obtain ⟨hsign, hsignBare⟩ := sign_split rest
      obtain ⟨hdigits, hdigitsBare⟩ := digits_split (sign rest).2
      refine ⟨?_, ?_⟩
      · show c :: rest = c :: ((sign rest).1 ++ (digits (sign rest).2).1 ++
          (digits (sign rest).2).2)
        rw [List.append_assoc, ← hdigits, ← hsign]
      · intro x hx
        rcases List.mem_cons.mp hx with rfl | hx
        · rcases hexponent.1 with rfl | rfl <;> rfl
        · rcases List.mem_append.mp hx with hx | hx
          · exact hsignBare x hx
          · exact hdigitsBare x hx
    case isFalse => simp

theorem unsigned_split {text : Text} {read : Text × Text} (h : unsigned text = some read) :
    text = read.1 ++ read.2 ∧ ∀ c ∈ read.1, isBare c = true := by
  obtain ⟨whole, hwhole, rfl⟩ := Option.map_eq_some_iff.mp h
  obtain ⟨hinteger, hintegerBare⟩ := integer_split hwhole
  obtain ⟨hfraction, hfractionBare⟩ := fraction_split whole.2
  obtain ⟨hexponent, hexponentBare⟩ := exponent_split (fraction whole.2).2
  refine ⟨?_, ?_⟩
  · dsimp only
    rw [List.append_assoc, List.append_assoc, ← hexponent, ← hfraction, ← hinteger]
  · intro c hc
    rcases List.mem_append.mp hc with hc | hc
    · rcases List.mem_append.mp hc with hc | hc
      · exact hintegerBare c hc
      · exact hfractionBare c hc
    · exact hexponentBare c hc

theorem number_split {text : Text} {read : Text × Text} (h : number text = some read) :
    text = read.1 ++ read.2 ∧ ∀ c ∈ read.1, isBare c = true := by
  unfold number at h
  split at h
  · obtain ⟨whole, hwhole, rfl⟩ := Option.map_eq_some_iff.mp h
    obtain ⟨hsplit, hbare⟩ := unsigned_split hwhole
    refine ⟨congrArg _ hsplit, ?_⟩
    intro c hc
    rcases List.mem_cons.mp hc with rfl | hc
    · rfl
    · exact hbare c hc
  · exact unsigned_split h

theorem words_bare : ∀ entry ∈ words, ∀ c ∈ entry.1, isBare c = true := by
  unfold words
  simp [isBare]

def isObject : Value → Bool
  | .object _ => true
  | _ => false

theorem scalar_level {text rest : Text} {read : Value} (h : scalar text = some (read, rest)) :
    (∃ front, text = front ++ rest ∧ Level front) ∧ isObject read = false := by
  unfold scalar at h
  rcases Option.or_eq_some_iff.mp h with hword | ⟨-, hnumber⟩
  · obtain ⟨entry, hentry, hread⟩ := List.exists_of_findSome?_eq_some hword
    split at hread
    case isTrue hfront =>
      cases hread
      obtain ⟨back, rfl⟩ := List.isPrefixOf_iff_prefix.mp hfront
      refine ⟨⟨entry.1, by simp, level_bare (words_bare entry hentry)⟩, ?_⟩
      have hall : ∀ entry ∈ words, isObject entry.2 = false := by
        unfold words
        simp [isObject]
      exact hall entry hentry
    case isFalse => cases hread
  · obtain ⟨literal, hliteral, hread⟩ := Option.map_eq_some_iff.mp hnumber
    cases hread
    obtain ⟨hsplit, hbare⟩ := number_split hliteral
    exact ⟨⟨literal.1, hsplit, level_bare hbare⟩, rfl⟩

/-! ### Values -/

/-- What the three functions of one fuel read. -/
structure Reads (fuel : Nat) : Prop where
  value : ∀ {text rest read}, value fuel text = some (read, rest) →
    ∃ front, text = front ++ rest ∧ Level front ∧ (isObject read = true →
      ∃ inner, front = '\x7b' :: (inner ++ ['\x7d']) ∧ Level inner)
  entries : ∀ {text rest read}, entries fuel text = some (read, rest) →
    ∃ front, text = front ++ '\x7d' :: rest ∧ Level front
  items : ∀ {text rest read}, items fuel text = some (read, rest) →
    ∃ front, text = front ++ ']' :: rest ∧ Level front

theorem level_skipped {text front rest : Text} (h : skipBlanks text = front ++ rest)
    (hfront : Level front) : ∃ whole, text = whole ++ rest ∧ Level whole := by
  obtain ⟨blanks, hblanks, hsplit⟩ := skipBlanks_split text
  refine ⟨blanks ++ front, ?_, (level_blanks hblanks).append hfront⟩
  rw [List.append_assoc, ← h]
  exact hsplit

theorem level_skipped_bare {text rest : Text} {c : Char} (h : skipBlanks text = c :: rest)
    (hc : isBare c = true) : ∃ whole, text = whole ++ rest ∧ Level whole := by
  refine level_skipped (h.trans List.singleton_append.symm) (level_bare fun d hd => ?_)
  rw [List.mem_singleton.mp hd, hc]

theorem level_skipped_nil {text rest : Text} (h : skipBlanks text = rest) :
    ∃ whole, text = whole ++ rest ∧ Level whole :=
  level_skipped (h.trans (List.nil_append rest).symm) (.nil _)

theorem reads_entries {fuel : Nat} (ih : Reads fuel) {text rest : Text}
    {read : List (List Nat × Value)} (h : entries (fuel + 1) text = some (read, rest)) :
    ∃ front, text = front ++ '\x7d' :: rest ∧ Level front := by
  unfold JsonText.entries at h
  split at h
  case h_2 => cases h
  case h_1 rest' =>
    obtain ⟨⟨key, afterKey⟩, hkey, hafterKey⟩ := Option.bind_eq_some_iff.mp h
    obtain ⟨front, hfront, hlevel⟩ := quoted_level hkey
    dsimp only at hafterKey
    split at hafterKey
    case h_2 => cases hafterKey
    case h_1 afterColon hcolon =>
      obtain ⟨⟨entry, afterEntry⟩, hentry, hread⟩ := Option.bind_eq_some_iff.mp hafterKey
      obtain ⟨between, hbetween, hbetweenLevel⟩ :=
        level_skipped_bare hcolon (by simp [isBare])
      obtain ⟨content, hcontent, hcontentLevel, -⟩ := ih.value hentry
      obtain ⟨valued, hvalued, hvaluedLevel⟩ := level_skipped hcontent hcontentLevel
      have hupto : '"' :: rest' = (front ++ (between ++ valued)) ++ afterEntry := by
        rw [hfront, hbetween, hvalued]
        simp
      have huptoLevel : Level (front ++ (between ++ valued)) :=
        hlevel.append (hbetweenLevel.append hvaluedLevel)
      dsimp only at hread
      split at hread
      case h_1 afterBrace hbrace =>
        cases hread
        obtain ⟨blanks, hblanks, hsplit⟩ := skipBlanks_split afterEntry
        rw [hbrace] at hsplit
        exact ⟨front ++ (between ++ valued) ++ blanks, by rw [hupto, hsplit]; simp,
          huptoLevel.append (level_blanks hblanks)⟩
      case h_2 afterComma hcomma =>
        obtain ⟨⟨more, afterMore⟩, hmore, hpure⟩ := Option.bind_eq_some_iff.mp hread
        cases hpure
        obtain ⟨comma, hcomma', hcommaLevel⟩ :=
          level_skipped_bare hcomma (by simp [isBare])
        obtain ⟨others, hothers, hothersLevel⟩ := ih.entries hmore
        obtain ⟨others', hothers', hothersLevel'⟩ := level_skipped hothers hothersLevel
        exact ⟨front ++ (between ++ valued) ++ (comma ++ others'),
          by rw [hupto, hcomma', hothers']; simp,
          huptoLevel.append (hcommaLevel.append hothersLevel')⟩
      case h_3 => cases hread

theorem reads_items {fuel : Nat} (ih : Reads fuel) {text rest : Text} {read : List Value}
    (h : items (fuel + 1) text = some (read, rest)) :
    ∃ front, text = front ++ ']' :: rest ∧ Level front := by
  rw [JsonText.items] at h
  obtain ⟨⟨item, afterItem⟩, hitem, hread⟩ := Option.bind_eq_some_iff.mp h
  obtain ⟨front, rfl, hlevel, -⟩ := ih.value hitem
  dsimp only at hread
  split at hread
  case h_1 afterBracket hbracket =>
    cases hread
    obtain ⟨blanks, hblanks, hsplit⟩ := skipBlanks_split afterItem
    rw [hbracket] at hsplit
    exact ⟨front ++ blanks, by rw [hsplit]; simp, hlevel.append (level_blanks hblanks)⟩
  case h_2 afterComma hcomma =>
    obtain ⟨⟨more, afterMore⟩, hmore, hpure⟩ := Option.bind_eq_some_iff.mp hread
    cases hpure
    obtain ⟨comma, hcomma', hcommaLevel⟩ :=
      level_skipped_bare hcomma (by simp [isBare])
    obtain ⟨others, hothers, hothersLevel⟩ := ih.items hmore
    obtain ⟨others', hothers', hothersLevel'⟩ := level_skipped hothers hothersLevel
    exact ⟨front ++ (comma ++ others'), by rw [hcomma', hothers']; simp,
      hlevel.append (hcommaLevel.append hothersLevel')⟩
  case h_3 => cases hread

theorem reads_value {fuel : Nat} (ih : Reads fuel) {text rest : Text} {read : Value}
    (h : value (fuel + 1) text = some (read, rest)) :
    ∃ front, text = front ++ rest ∧ Level front ∧ (isObject read = true →
      ∃ inner, front = '\x7b' :: (inner ++ ['\x7d']) ∧ Level inner) := by
  unfold JsonText.value at h
  split at h
  case h_1 rest' =>
    obtain ⟨⟨content, rest''⟩, hcontent, hpure⟩ := Option.map_eq_some_iff.mp h
    cases hpure
    obtain ⟨front, hfront, hlevel⟩ := quoted_level hcontent
    exact ⟨front, hfront, hlevel, fun hobject => by cases hobject⟩
  case h_2 rest' =>
    have hobject : ∃ inner, rest' = inner ++ '\x7d' :: rest ∧ Level inner := by
      split at h
      case h_1 rest'' hbrace =>
        cases h
        exact level_skipped_nil hbrace
      case h_2 =>
        obtain ⟨⟨read', rest''⟩, hread, hpure⟩ := Option.map_eq_some_iff.mp h
        cases hpure
        obtain ⟨inner, hinner, hlevel⟩ := ih.entries hread
        exact level_skipped hinner hlevel
    obtain ⟨inner, rfl, hlevel⟩ := hobject
    exact ⟨'\x7b' :: (inner ++ ['\x7d']), by simp, hlevel.brackets (.inl rfl) (.inl rfl),
      fun _ => ⟨inner, rfl, hlevel⟩⟩
  case h_3 rest' =>
    have harray : (∃ inner, rest' = inner ++ ']' :: rest ∧ Level inner) ∧ isObject read = false := by
      split at h
      case h_1 rest'' hbracket =>
        cases h
        exact ⟨level_skipped_nil hbracket, rfl⟩
      case h_2 =>
        obtain ⟨⟨read', rest''⟩, hread, hpure⟩ := Option.map_eq_some_iff.mp h
        cases hpure
        obtain ⟨inner, hinner, hlevel⟩ := ih.items hread
        exact ⟨level_skipped hinner hlevel, rfl⟩
    obtain ⟨⟨inner, rfl, hlevel⟩, hnot⟩ := harray
    refine ⟨'[' :: (inner ++ [']']), by simp, hlevel.brackets (.inr rfl) (.inr rfl), ?_⟩
    intro hobject
    rw [hnot] at hobject
    cases hobject
  case h_4 =>
    obtain ⟨⟨front, hfront, hlevel⟩, hnot⟩ := scalar_level h
    refine ⟨front, hfront, hlevel, ?_⟩
    intro hobject
    rw [hnot] at hobject
    cases hobject

theorem reads (fuel : Nat) : Reads fuel := by
  induction fuel with
  | zero =>
    refine ⟨?_, ?_, ?_⟩
    · intro text rest read h
      rw [JsonText.value] at h
      cases h
    · intro text rest read h
      rw [JsonText.entries] at h
      cases h
    · intro text rest read h
      rw [JsonText.items] at h
      cases h
  | succ fuel ih => exact ⟨reads_value ih, reads_entries ih, reads_items ih⟩

theorem loads_level {text : Text} {read : Value} (h : loads text = some read) : Level text := by
  obtain ⟨⟨found, rest⟩, hfound, h⟩ := Option.bind_eq_some_iff.mp h
  dsimp only at h
  split at h
  case isFalse => cases h
  case isTrue hrest =>
    obtain ⟨front, hfront, hlevel, -⟩ := (reads _).value hfound
    obtain ⟨whole, hwhole, hwholeLevel⟩ := level_skipped hfront hlevel
    obtain ⟨blanks, hblanks, hsplit⟩ := skipBlanks_split rest
    rw [hrest, List.append_nil] at hsplit
    rw [hwhole, hsplit]
    exact hwholeLevel.append (level_blanks hblanks)

/-- The text of an object ends with the brace that closes it. -/
theorem loads_object {text : Text} {read : Value} (h : loads text = some read)
    (hobject : isObject read = true) : ∃ before inner after,
      text = before ++ '\x7b' :: (inner ++ '\x7d' :: after) ∧ Level inner ∧
      (∀ c ∈ before, isBlank c = true) ∧ ∀ c ∈ after, isBlank c = true := by
  obtain ⟨⟨found, rest⟩, hfound, h⟩ := Option.bind_eq_some_iff.mp h
  dsimp only at h
  split at h
  case isFalse => cases h
  case isTrue hrest =>
    cases h
    obtain ⟨front, hfront, -, hbraces⟩ := (reads _).value hfound
    obtain ⟨inner, rfl, hinner⟩ := hbraces hobject
    obtain ⟨before, hbefore, hsplit⟩ := skipBlanks_split text
    obtain ⟨after, hafter, hafterSplit⟩ := skipBlanks_split rest
    rw [hrest, List.append_nil] at hafterSplit
    refine ⟨before, inner, after, ?_, hinner, hbefore, hafter⟩
    rw [hsplit, hfront, ← hafterSplit]
    simp

/-- No beginning of an object can be read. -/
theorem loads_beginning {inner front back : Text} (hinner : Level inner)
    (hsplit : '\x7b' :: (inner ++ ['\x7d']) = front ++ back) (hfront : front ≠ []) (hback : back ≠ []) :
    loads front = none := by
  cases hread : loads front with
  | none => rfl
  | some read =>
    have hstays := (loads_level hread).stays 0
    obtain ⟨back', last, rfl⟩ : ∃ back' last, back = back' ++ [last] :=
      ⟨back.dropLast, back.getLast hback, (List.dropLast_append_getLast hback).symm⟩
    have hinit : '\x7b' :: inner = front ++ back' := by
      rw [← List.cons_append, ← List.append_assoc] at hsplit
      exact (List.append_inj' hsplit rfl).1
    have hdeep := Keeps.deeper (.inl rfl) hinner 0 hinit hfront
    unfold depthAfter at hdeep
    rw [hstays] at hdeep
    omega

end Ekip.Lib.JsonText
