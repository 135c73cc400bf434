import Mathlib.Data.List.Sort
import Mathlib.Data.String.Basic
import Mathlib.Algebra.Order.Ring.Unbundled.Rat
import Mathlib.Algebra.Ring.Nat

/-!
# Canonical JSON texts

`dumps` writes a value the way `json.dumps` does with sorted keys, the separators
`,` and `:`, and nothing but ASCII. A text of a value ends where the first delimiter
stands that belongs to none of its brackets and strings, so that the text of an
object says what its entries are.
-/
namespace Ekip.Lib

/-- A float is modelled by its `repr`. -/
structure FloatRepr where
  text : List Char
  plain : ∀ c ∈ text, c.isDigit = true ∨ c ∈ ['-', '+', '.', 'e']

inductive Json
  | null
  | bool (value : Bool)
  | int (value : Int)
  | float (value : FloatRepr)
  | str (value : String)
  | arr (items : List Json)
  | obj (entries : List (String × Json))

namespace Json

/-! ## Strings -/

def hex4 (n : Nat) : List Char :=
  [Nat.digitChar (n / 4096 % 16), Nat.digitChar (n / 256 % 16), Nat.digitChar (n / 16 % 16),
    Nat.digitChar (n % 16)]

def unicodeEscape (n : Nat) : List Char := '\\' :: 'u' :: hex4 n

/-- Beyond the basic plane a character is escaped as a surrogate pair. -/
def escape (c : Char) : List Char :=
  if c = '"' then ['\\', '"']
  else if c = '\\' then ['\\', '\\']
  else if c = '\n' then ['\\', 'n']
  else if c = '\r' then ['\\', 'r']
  else if c = '\t' then ['\\', 't']
  else if c = '\x08' then ['\\', 'b']
  else if c = '\x0c' then ['\\', 'f']
  else if ' ' ≤ c ∧ c ≤ '~' then [c]
  else if c.toNat < 0x10000 then unicodeEscape c.toNat
  else unicodeEscape (0xd800 + (c.toNat - 0x10000) / 0x400) ++
    unicodeEscape (0xdc00 + (c.toNat - 0x10000) % 0x400)

def quote (s : String) : List Char := '"' :: s.toList.flatMap escape ++ ['"']

/-! ## Values -/

/-- The texts with commas between them. -/
def joined : List (List Char) → List Char
  | [] => []
  | text :: texts => text ++ texts.flatMap fun other => ',' :: other

def entryText (entry : String × List Char) : List Char := quote entry.1 ++ ':' :: entry.2

def sortedByKey {α : Type} (entries : List (String × α)) : List (String × α) :=
  entries.insertionSort fun a b => a.1 ≤ b.1

def objectText (entries : List (String × List Char)) : List Char :=
  '{' :: joined ((sortedByKey entries).map entryText) ++ ['}']

mutual

def dumps : Json → List Char
  | null => ['n', 'u', 'l', 'l']
  | bool true => ['t', 'r', 'u', 'e']
  | bool false => ['f', 'a', 'l', 's', 'e']
  | int n => (toString n).toList
  | float x => x.text
  | str s => quote s
  | arr items => '[' :: joined (dumpsItems items) ++ [']']
  | obj entries => objectText (dumpsEntries entries)

def dumpsItems : List Json → List (List Char)
  | [] => []
  | item :: items => dumps item :: dumpsItems items

def dumpsEntries : List (String × Json) → List (String × List Char)
  | [] => []
  | (key, value) :: entries => (key, dumps value) :: dumpsEntries entries

end

theorem dumpsEntries_eq_map (entries : List (String × Json)) :
    dumpsEntries entries = entries.map fun entry => (entry.1, dumps entry.2) := by
  induction entries with
  | nil => rfl
  | cons entry entries ih =>
    obtain ⟨key, value⟩ := entry
    rw [dumpsEntries, ih]
    rfl

/-! ## A string can be read back -/

def hexValue (c : Char) : Nat := if c.isDigit then c.toNat - 48 else c.toNat - 87

def hex4Value (a b c d : Char) : Nat :=
  4096 * hexValue a + 256 * hexValue b + 16 * hexValue c + hexValue d

/-- The first character of a text that is escaped, and the text behind it. -/
def unescape : List Char → Option (Char × List Char)
  | '\\' :: 'u' :: a :: b :: c :: d :: rest =>
    let unit := hex4Value a b c d
    if 0xd800 ≤ unit ∧ unit < 0xdc00 then
      match rest with
      | '\\' :: 'u' :: a' :: b' :: c' :: d' :: rest =>
        some (Char.ofNat (0x10000 + 0x400 * (unit - 0xd800) + (hex4Value a' b' c' d' - 0xdc00)),
          rest)
      | _ => none
    else some (Char.ofNat unit, rest)
  | '\\' :: '"' :: rest => some ('"', rest)
  | '\\' :: '\\' :: rest => some ('\\', rest)
  | '\\' :: 'n' :: rest => some ('\n', rest)
  | '\\' :: 'r' :: rest => some ('\r', rest)
  | '\\' :: 't' :: rest => some ('\t', rest)
  | '\\' :: 'b' :: rest => some ('\x08', rest)
  | '\\' :: 'f' :: rest => some ('\x0c', rest)
  | c :: rest => if c = '\\' then none else some (c, rest)
  | [] => none

theorem hexValue_digitChar : ∀ d < 16, hexValue (Nat.digitChar d) = d := by decide

theorem hex4Value_hex4 {n : Nat} (h : n < 0x10000) :
    hex4Value (Nat.digitChar (n / 4096 % 16)) (Nat.digitChar (n / 256 % 16))
      (Nat.digitChar (n / 16 % 16)) (Nat.digitChar (n % 16)) = n := by
  unfold hex4Value
  rw [hexValue_digitChar _ (Nat.mod_lt _ (by decide)), hexValue_digitChar _ (Nat.mod_lt _ (by decide)),
    hexValue_digitChar _ (Nat.mod_lt _ (by decide)), hexValue_digitChar _ (Nat.mod_lt _ (by decide))]
  omega

theorem unescape_escape (c : Char) (rest : List Char) :
    unescape (escape c ++ rest) = some (c, rest) := by
  unfold escape
  split
  · rename_i h
    subst h
    rfl
  split
  · rename_i h
    subst h
    rfl
  split
  · rename_i h
    subst h
    rfl
  split
  · rename_i h
    subst h
    rfl
  split
  · rename_i h
    subst h
    rfl
  split
  · rename_i h
    subst h
    rfl
  split
  · rename_i h
    subst h
    rfl
  rename_i hbackslash _ _ _ _ _
  split
  · show unescape (c :: rest) = some (c, rest)
    unfold unescape
    simp [hbackslash]
  split
  · rename_i hsmall
    -- a character is no surrogate
    have hvalid : c.toNat < 0xd800 ∨ 0xdfff < c.toNat ∧ c.toNat < 0x110000 := c.valid
    have hnot : ¬ (0xd800 ≤ c.toNat ∧ c.toNat < 0xdc00) := by omega
    simp only [unicodeEscape, hex4, List.cons_append, List.nil_append, unescape,
      hex4Value_hex4 hsmall, if_neg hnot, Char.ofNat_toNat]
  · rename_i hlarge
    have hvalid : c.toNat < 0xd800 ∨ 0xdfff < c.toNat ∧ c.toNat < 0x110000 := c.valid
    have hhigh : 0xd800 + (c.toNat - 0x10000) / 0x400 < 0x10000 := by omega
    have hlow : 0xdc00 + (c.toNat - 0x10000) % 0x400 < 0x10000 := by omega
    have hsurrogate : 0xd800 ≤ 0xd800 + (c.toNat - 0x10000) / 0x400 ∧
        0xd800 + (c.toNat - 0x10000) / 0x400 < 0xdc00 := by omega
    have hback : 0x10000 + 0x400 * (0xd800 + (c.toNat - 0x10000) / 0x400 - 0xd800) +
        (0xdc00 + (c.toNat - 0x10000) % 0x400 - 0xdc00) = c.toNat := by omega
    simp only [unicodeEscape, hex4, List.cons_append, List.nil_append, unescape,
      hex4Value_hex4 hhigh, hex4Value_hex4 hlow, if_pos hsurrogate, hback, Char.ofNat_toNat]

theorem flatMap_escape_inj {cs cs' : List Char} {rest rest' : List Char}
    (h : cs.flatMap escape ++ '"' :: rest = cs'.flatMap escape ++ '"' :: rest') : cs = cs' := by
  have hquote : ∀ (c : Char) (tail tail' : List Char), escape c ++ tail ≠ '"' :: tail' := by
    intro c tail tail' heq
    have hread := unescape_escape c tail
    rw [heq] at hread
    have hplain : unescape ('"' :: tail') = some ('"', tail') := rfl
    rw [hplain] at hread
    obtain rfl : '"' = c := congrArg Prod.fst (Option.some.inj hread)
    cases heq
  induction cs generalizing cs' with
  | nil =>
    cases cs' with
    | nil => rfl
    | cons c cs' =>
      rw [List.flatMap_cons, List.append_assoc] at h
      exact absurd h.symm (hquote c _ _)
  | cons c cs ih =>
    cases cs' with
    | nil =>
      rw [List.flatMap_cons, List.append_assoc] at h
      exact absurd h (hquote c _ _)
    | cons c' cs' =>
      rw [List.flatMap_cons, List.flatMap_cons, List.append_assoc, List.append_assoc] at h
      have hread := unescape_escape c (cs.flatMap escape ++ '"' :: rest)
      rw [h, unescape_escape] at hread
      obtain ⟨hc, htail⟩ := Prod.mk.inj (Option.some.inj hread)
      rw [hc, ih htail.symm]

theorem quote_inj {a b : String} (h : quote a = quote b) : a = b := by
  have htail := (List.cons.inj h).2
  exact String.toList_inj.mp (flatMap_escape_inj htail)

/-! ## Where a value ends -/

inductive Mode
  | plain
  | quoted
  | escaped

def delimiters : List Char := [',', ':', ']', '}']

/-- The text up to the first delimiter that is in no bracket and no string. -/
def scan : Nat → Mode → List Char → List Char
  | _, _, [] => []
  | depth, .plain, c :: cs =>
    if depth = 0 ∧ c ∈ delimiters then []
    else if c = '"' then c :: scan depth .quoted cs
    else if c = '{' ∨ c = '[' then c :: scan (depth + 1) .plain cs
    else if c = '}' ∨ c = ']' then c :: scan (depth - 1) .plain cs
    else c :: scan depth .plain cs
  | depth, .quoted, c :: cs =>
    if c = '"' then c :: scan depth .plain cs
    else if c = '\\' then c :: scan depth .escaped cs
    else c :: scan depth .quoted cs
  | depth, .escaped, c :: cs => c :: scan depth .quoted cs

/-- No delimiter of the text stands outside its brackets and strings. -/
def Closed (text : List Char) : Prop :=
  ∀ depth rest, scan depth .plain (text ++ rest) = text ++ scan depth .plain rest

/-- The same inside of some bracket, where delimiters are passed over. -/
def ClosedWithin (text : List Char) : Prop :=
  ∀ depth rest, scan (depth + 1) .plain (text ++ rest) = text ++ scan (depth + 1) .plain rest

theorem Closed.within {text : List Char} (h : Closed text) : ClosedWithin text :=
  fun depth rest => h (depth + 1) rest

theorem ClosedWithin.append {a b : List Char} (ha : ClosedWithin a) (hb : ClosedWithin b) :
    ClosedWithin (a ++ b) := by
  intro depth rest
  rw [List.append_assoc, ha, hb, List.append_assoc]

/-- The characters that are neither quotes nor brackets nor delimiters. -/
def isPlain (c : Char) : Bool := c ∉ ['"', '{', '}', '[', ']', ',', ':']

theorem closed_of_plain {text : List Char} (h : ∀ c ∈ text, isPlain c = true) : Closed text := by
  intro depth rest
  induction text with
  | nil => rfl
  | cons c cs ih =>
    have hc : c ∉ ['"', '{', '}', '[', ']', ',', ':'] := of_decide_eq_true (h c List.mem_cons_self)
    simp only [List.mem_cons, List.not_mem_nil, or_false, not_or] at hc
    have hcs := ih fun other hother => h other (List.mem_cons_of_mem _ hother)
    rw [List.cons_append, scan, List.cons_append]
    simp [delimiters, hc, hcs]

theorem plain_of_isDigit {c : Char} (h : c.isDigit = true) : isPlain c = true := by
  have hne : ∀ d : Char, d.isDigit = false → c ≠ d := by
    intro d hd heq
    rw [heq, hd] at h
    cases h
  simp [isPlain, hne]

theorem closed_int (n : Int) : Closed (toString n).toList := by
  have hnat : ∀ m : Nat, ∀ c ∈ m.repr.toList, isPlain c = true := by
    intro m c hc
    rw [Nat.toList_repr] at hc
    exact plain_of_isDigit (Nat.isDigit_of_mem_toDigits (by decide) (by decide) hc)
  apply closed_of_plain
  intro c hc
  cases n with
  | ofNat m => exact hnat m c hc
  | negSucc m =>
    have hneg : (toString (Int.negSucc m)).toList = '-' :: (m + 1).repr.toList := by
      show ("-" ++ (m + 1).repr).toList = _
      rw [String.toList_append]
      rfl
    rw [hneg] at hc
    rcases List.mem_cons.mp hc with rfl | hc
    · rfl
    · exact hnat _ c hc

theorem closed_float (x : FloatRepr) : Closed x.text := by
  apply closed_of_plain
  intro c hc
  rcases x.plain c hc with hdigit | hsign
  · exact plain_of_isDigit hdigit
  · simp only [List.mem_cons, List.not_mem_nil, or_false] at hsign
    rcases hsign with rfl | rfl | rfl | rfl <;> rfl

theorem digitChar_ne : ∀ d < 16, Nat.digitChar d ≠ '"' ∧ Nat.digitChar d ≠ '\\' := by decide

theorem scan_unicodeEscape (depth n : Nat) (rest : List Char) :
    scan depth .quoted (unicodeEscape n ++ rest) = unicodeEscape n ++ scan depth .quoted rest := by
  have hdigit : ∀ m : Nat, ∀ cs, scan depth .quoted (Nat.digitChar (m % 16) :: cs) =
      Nat.digitChar (m % 16) :: scan depth .quoted cs := by
    intro m cs
    obtain ⟨hquote, hbackslash⟩ := digitChar_ne (m % 16) (Nat.mod_lt _ (by decide))
    rw [scan, if_neg hquote, if_neg hbackslash]
  simp only [unicodeEscape, hex4, List.cons_append, List.nil_append]
  rw [scan, if_neg (by decide), if_pos rfl, scan, hdigit, hdigit, hdigit, hdigit]

theorem scan_escape (depth : Nat) (c : Char) (rest : List Char) :
    scan depth .quoted (escape c ++ rest) = escape c ++ scan depth .quoted rest := by
  have hpair : ∀ d : Char, scan depth .quoted ('\\' :: d :: rest) =
      '\\' :: d :: scan depth .quoted rest := by
    intro d
    rw [scan, if_neg (by decide), if_pos rfl, scan]
  unfold escape
  split
  · exact hpair '"'
  split
  · exact hpair '\\'
  split
  · exact hpair 'n'
  split
  · exact hpair 'r'
  split
  · exact hpair 't'
  split
  · exact hpair 'b'
  split
  · exact hpair 'f'
  rename_i hquote hbackslash _ _ _ _ _
  split
  · show scan depth .quoted (c :: rest) = c :: scan depth .quoted rest
    rw [scan, if_neg hquote, if_neg hbackslash]
  split
  · exact scan_unicodeEscape depth _ rest
  · rw [List.append_assoc, scan_unicodeEscape, scan_unicodeEscape, List.append_assoc]

theorem closed_quote (s : String) : Closed (quote s) := by
  intro depth rest
  have hbody : ∀ cs : List Char, scan depth .quoted (cs.flatMap escape ++ '"' :: rest) =
      cs.flatMap escape ++ '"' :: scan depth .plain rest := by
    intro cs
    induction cs with
    | nil => rw [List.flatMap_nil, List.nil_append, scan, if_pos rfl, List.nil_append]
    | cons c cs ih =>
      rw [List.flatMap_cons, List.append_assoc, scan_escape, ih, List.append_assoc]
  have htext : quote s ++ rest = '"' :: (s.toList.flatMap escape ++ '"' :: rest) := by
    simp [quote]
  rw [htext, scan, if_neg (by simp [delimiters]), if_pos rfl, hbody]
  simp [quote]

/-- Texts with commas between them, inside of some bracket. -/
theorem closedWithin_joined {texts : List (List Char)} (h : ∀ text ∈ texts, ClosedWithin text) :
    ClosedWithin (joined texts) := by
  have hcomma : ClosedWithin [','] := by
    intro depth rest
    rw [List.cons_append, List.nil_append, scan, if_neg (by simp), if_neg (by decide),
      if_neg (by decide), if_neg (by decide)]
    rfl
  have htail : ∀ texts : List (List Char), (∀ text ∈ texts, ClosedWithin text) →
      ClosedWithin (texts.flatMap fun other => ',' :: other) := by
    intro texts htexts
    induction texts with
    | nil => exact fun _ _ => rfl
    | cons text texts ih =>
      rw [List.flatMap_cons]
      have hfirst := hcomma.append (htexts text List.mem_cons_self)
      exact hfirst.append (ih fun other hother => htexts other (List.mem_cons_of_mem _ hother))
  cases texts with
  | nil => exact fun _ _ => rfl
  | cons text texts =>
    have hfirst := h text List.mem_cons_self
    exact hfirst.append (htail texts fun other hother => h other (List.mem_cons_of_mem _ hother))

theorem closed_brackets {opening closing : Char} {text : List Char}
    (hopening : opening = '{' ∨ opening = '[') (hclosing : closing = '}' ∨ closing = ']')
    (h : ClosedWithin text) : Closed (opening :: text ++ [closing]) := by
  intro depth rest
  have hopen : ∀ cs, scan depth .plain (opening :: cs) = opening :: scan (depth + 1) .plain cs := by
    intro cs
    rw [scan]
    rcases hopening with rfl | rfl
    · rw [if_neg (by simp [delimiters]), if_neg (by decide), if_pos (by decide)]
    · rw [if_neg (by simp [delimiters]), if_neg (by decide), if_pos (by decide)]
  have hclose : scan (depth + 1) .plain (closing :: rest) = closing :: scan depth .plain rest := by
    rw [scan]
    rcases hclosing with rfl | rfl
    · rw [if_neg (by simp), if_neg (by decide), if_neg (by decide), if_pos (by decide)]
      rfl
    · rw [if_neg (by simp), if_neg (by decide), if_neg (by decide), if_pos (by decide)]
      rfl
  have htext : opening :: text ++ [closing] ++ rest = opening :: (text ++ closing :: rest) := by
    simp
  rw [htext, hopen, h, hclose]
  simp

theorem closedWithin_entryText {entry : String × List Char} (h : Closed entry.2) :
    ClosedWithin (entryText entry) := by
  have hcolon : ClosedWithin [':'] := by
    intro depth rest
    rw [List.cons_append, List.nil_append, scan, if_neg (by simp), if_neg (by decide),
      if_neg (by decide), if_neg (by decide)]
    rfl
  exact (closed_quote entry.1).within.append (hcolon.append h.within)

theorem mem_sortedByKey {α : Type} {entries : List (String × α)} {entry : String × α} :
    entry ∈ sortedByKey entries ↔ entry ∈ entries :=
  List.mem_insertionSort _

theorem closed_objectText {entries : List (String × List Char)}
    (h : ∀ entry ∈ entries, Closed entry.2) : Closed (objectText entries) := by
  refine closed_brackets (.inl rfl) (.inl rfl) (closedWithin_joined ?_)
  intro text htext
  obtain ⟨entry, hentry, rfl⟩ := List.mem_map.mp htext
  exact closedWithin_entryText (h entry (mem_sortedByKey.mp hentry))

mutual

theorem closed_dumps : ∀ value : Json, Closed (dumps value)
  | null => closed_of_plain (List.all_eq_true.mp rfl)
  | bool true => closed_of_plain (List.all_eq_true.mp rfl)
  | bool false => closed_of_plain (List.all_eq_true.mp rfl)
  | int n => closed_int n
  | float x => closed_float x
  | str s => closed_quote s
  | arr items => closed_brackets (.inr rfl) (.inr rfl)
      (closedWithin_joined fun text htext => (closed_dumpsItems items text htext).within)
  | obj entries => closed_objectText (closed_dumpsEntries entries)

theorem closed_dumpsItems : ∀ items : List Json, ∀ text ∈ dumpsItems items, Closed text
  | [], _, htext => by cases htext
  | item :: items, text, htext => by
    rcases List.mem_cons.mp htext with rfl | hlater
    · exact closed_dumps item
    · exact closed_dumpsItems items text hlater

theorem closed_dumpsEntries :
    ∀ entries : List (String × Json), ∀ entry ∈ dumpsEntries entries, Closed entry.2
  | [], _, hentry => by cases hentry
  | (key, value) :: entries, entry, hentry => by
    rcases List.mem_cons.mp hentry with rfl | hlater
    · exact closed_dumps value
    · exact closed_dumpsEntries entries entry hlater

end

/-! ## An object says what its entries are -/

/-- Two values that are followed by delimiters are told apart. -/
theorem closed_inj {a b rest rest' : List Char} {d d' : Char} (ha : Closed a) (hb : Closed b)
    (hd : d ∈ delimiters) (hd' : d' ∈ delimiters) (h : a ++ d :: rest = b ++ d' :: rest') :
    a = b ∧ d :: rest = d' :: rest' := by
  have hstop : ∀ c ∈ delimiters, ∀ cs, scan 0 .plain (c :: cs) = [] := by
    intro c hc cs
    rw [scan, if_pos ⟨rfl, hc⟩]
  have hscan := congrArg (scan 0 .plain) h
  rw [ha, hb, hstop d hd, hstop d' hd', List.append_nil, List.append_nil] at hscan
  subst hscan
  exact ⟨rfl, List.append_cancel_left h⟩

theorem entryText_inj {e e' : String × List Char} {rest rest' : List Char} {d d' : Char}
    (he : Closed e.2) (he' : Closed e'.2) (hd : d ∈ delimiters) (hd' : d' ∈ delimiters)
    (h : entryText e ++ d :: rest = entryText e' ++ d' :: rest') :
    e = e' ∧ d :: rest = d' :: rest' := by
  have hsplit : quote e.1 ++ ':' :: (e.2 ++ d :: rest) = quote e'.1 ++ ':' :: (e'.2 ++ d' :: rest') := by
    simpa [entryText] using h
  obtain ⟨hkey, hvalue⟩ := closed_inj (closed_quote e.1) (closed_quote e'.1) (by decide) (by decide)
    hsplit
  obtain ⟨htext, hrest⟩ := closed_inj he he' hd hd' (List.cons.inj hvalue).2
  exact ⟨Prod.ext (quote_inj hkey) htext, hrest⟩

/-- What follows an entry: the other entries, and the bracket. -/
def entriesTail (entries : List (String × List Char)) : List Char :=
  (entries.map entryText).flatMap (fun other => ',' :: other) ++ ['}']

theorem entriesTail_cons (entry : String × List Char) (entries : List (String × List Char)) :
    entriesTail (entry :: entries) = ',' :: (entryText entry ++ entriesTail entries) := by
  simp [entriesTail]

theorem entriesTail_head (entries : List (String × List Char)) :
    ∃ d ∈ delimiters, ∃ rest, entriesTail entries = d :: rest := by
  cases entries with
  | nil => exact ⟨'}', by decide, [], rfl⟩
  | cons entry entries => exact ⟨',', by decide, _, entriesTail_cons entry entries⟩

theorem entryText_tail_inj {e e' : String × List Char} {entries entries' : List (String × List Char)}
    (he : Closed e.2) (he' : Closed e'.2)
    (h : entryText e ++ entriesTail entries = entryText e' ++ entriesTail entries') :
    e = e' ∧ entriesTail entries = entriesTail entries' := by
  obtain ⟨d, hd, rest, hrest⟩ := entriesTail_head entries
  obtain ⟨d', hd', rest', hrest'⟩ := entriesTail_head entries'
  rw [hrest, hrest'] at h ⊢
  exact entryText_inj he he' hd hd' h

theorem entriesTail_inj {entries entries' : List (String × List Char)}
    (hclosed : ∀ entry ∈ entries, Closed entry.2) (hclosed' : ∀ entry ∈ entries', Closed entry.2)
    (h : entriesTail entries = entriesTail entries') : entries = entries' := by
  induction entries generalizing entries' with
  | nil =>
    cases entries' with
    | nil => rfl
    | cons entry entries' =>
      rw [entriesTail_cons] at h
      cases h
  | cons entry entries ih =>
    cases entries' with
    | nil =>
      rw [entriesTail_cons] at h
      cases h
    | cons entry' entries' =>
      rw [entriesTail_cons, entriesTail_cons] at h
      obtain ⟨rfl, htail⟩ := entryText_tail_inj (hclosed entry List.mem_cons_self)
        (hclosed' entry' List.mem_cons_self) (List.cons.inj h).2
      rw [ih (fun e he => hclosed e (List.mem_cons_of_mem _ he))
        (fun e he => hclosed' e (List.mem_cons_of_mem _ he)) htail]

theorem sortedByKey_of_objectText {entries entries' : List (String × List Char)}
    (hclosed : ∀ entry ∈ entries, Closed entry.2) (hclosed' : ∀ entry ∈ entries', Closed entry.2)
    (h : objectText entries = objectText entries') : sortedByKey entries = sortedByKey entries' := by
  have hsorted : ∀ entry ∈ sortedByKey entries, Closed entry.2 :=
    fun entry hentry => hclosed entry (mem_sortedByKey.mp hentry)
  have hsorted' : ∀ entry ∈ sortedByKey entries', Closed entry.2 :=
    fun entry hentry => hclosed' entry (mem_sortedByKey.mp hentry)
  have hbody : joined ((sortedByKey entries).map entryText) ++ ['}'] =
      joined ((sortedByKey entries').map entryText) ++ ['}'] := (List.cons.inj h).2
  have hquote : ∀ (entry : String × List Char) (cs cs' : List Char),
      entryText entry ++ cs ≠ '}' :: cs' := by
    intro entry cs cs' heq
    cases heq
  generalize sortedByKey entries = sorted at hsorted hbody ⊢
  generalize sortedByKey entries' = sorted' at hsorted' hbody ⊢
  cases sorted with
  | nil =>
    cases sorted' with
    | nil => rfl
    | cons entry' sorted' =>
      rw [List.map_cons, joined, List.append_assoc] at hbody
      exact absurd hbody.symm (hquote entry' _ _)
  | cons entry sorted =>
    cases sorted' with
    | nil =>
      rw [List.map_cons, joined, List.append_assoc] at hbody
      exact absurd hbody (hquote entry _ _)
    | cons entry' sorted' =>
      rw [List.map_cons, joined, List.append_assoc, List.map_cons, joined, List.append_assoc] at hbody
      obtain ⟨rfl, htail⟩ := entryText_tail_inj (hsorted entry List.mem_cons_self)
        (hsorted' entry' List.mem_cons_self) hbody
      rw [entriesTail_inj (fun e he => hsorted e (List.mem_cons_of_mem _ he))
        (fun e he => hsorted' e (List.mem_cons_of_mem _ he)) htail]

/-- Entries with one text are the same up to their order. -/
theorem perm_of_objectText {entries entries' : List (String × List Char)}
    (hclosed : ∀ entry ∈ entries, Closed entry.2) (hclosed' : ∀ entry ∈ entries', Closed entry.2)
    (h : objectText entries = objectText entries') : entries.Perm entries' := by
  have hsorted := sortedByKey_of_objectText hclosed hclosed' h
  have hperm := (List.perm_insertionSort (fun a b => a.1 ≤ b.1) entries).symm
  exact hperm.trans ((List.Perm.of_eq hsorted).trans (List.perm_insertionSort _ entries'))

/-- The order of the entries does not matter to the text. -/
theorem objectText_of_perm {entries entries' : List (String × List Char)}
    (hkeys : (entries.map Prod.fst).Nodup) (h : entries.Perm entries') :
    objectText entries = objectText entries' := by
  have hsorted : sortedByKey entries = sortedByKey entries' := by
    have hperm : (sortedByKey entries).Perm (sortedByKey entries') :=
      (List.perm_insertionSort _ entries).trans (h.trans (List.perm_insertionSort _ entries').symm)
    refine hperm.eq_of_pairwise ?_ (List.pairwise_insertionSort _ entries)
      (List.pairwise_insertionSort _ entries')
    intro a b ha hb hle hge
    have hkey : a.1 = b.1 := le_antisymm hle hge
    exact List.inj_on_of_nodup_map hkeys (mem_sortedByKey.mp ha)
      (h.symm.subset (mem_sortedByKey.mp hb)) hkey
  unfold objectText
  rw [hsorted]

end Json

/-!
## What `json.loads` gives

A number with a fraction or an exponent is a float: the fraction it stands for, or one
of the three values that are no fraction. An object is the dict it is read into: of a
key that is repeated, the last value counts.
-/

inductive FloatValue
  | finite (value : Rat)
  | infinity
  | negInfinity
  | nan

inductive JsonValue
  | null
  | bool (value : Bool)
  | int (value : Int)
  | float (value : FloatValue)
  | str (value : String)
  | list (items : List JsonValue)
  | dict (entries : List (String × JsonValue))

/-- What `json.loads` raises. -/
inductive LoadsError
  /-- A `JSONDecodeError` is one. -/
  | valueError
  | recursionError

namespace FloatValue

/-- `max(0.0, min(1.0, x))`: a comparison with what is no number fails. -/
def clamp : FloatValue → Rat
  | finite x => max 0 (min 1 x)
  | infinity | nan => 1
  | negInfinity => 0

theorem clamp_nonneg (x : FloatValue) : 0 ≤ x.clamp := by
  cases x with
  | finite x => exact le_max_left 0 (min 1 x)
  | infinity => exact rfl
  | negInfinity => exact le_rfl
  | nan => exact rfl

theorem clamp_le_one (x : FloatValue) : x.clamp ≤ 1 := by
  cases x with
  | finite x => exact max_le rfl (min_le_left 1 x)
  | infinity => exact le_rfl
  | negInfinity => exact rfl
  | nan => exact le_rfl

/-- The first integer that `float` does not round to a finite one. -/
def intOverflow : Nat := 2 ^ 1024 - 2 ^ 970

/-- `float(n)`, or `none` for an `OverflowError`. Beyond 53 bits the rounding is left
out: no comparison with 0 and 1 sees it. -/
def ofInt (n : Int) : Option FloatValue :=
  if n.natAbs < intOverflow then some (finite n) else none

end FloatValue

end Ekip.Lib
