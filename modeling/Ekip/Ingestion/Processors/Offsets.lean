import Mathlib.Data.List.Range
import Ekip.Ingestion.Processors.Pieces

/-!
# Where the paragraphs are found

A paragraph is looked for from the end of the one before. One of line feeds alone is
found at once, in the gap; any other is found where it is. So the offsets are right as
long as no group begins with a paragraph of line feeds, unless it is nothing else.
-/
namespace Ekip.Ingestion.Chunking

open Ekip.Lib

/-- Nothing but line feeds. -/
def blank (text : Text) : Bool := text.all (· = '\n')

/-! ## Searching through line feeds -/

theorem slice_eq_iff {text part : Text} {start : Nat} :
    slice text start (start + part.length) = part ↔ part <+: text.drop start := by
  unfold slice
  rw [Nat.add_sub_cancel_left, List.prefix_iff_eq_take]
  exact eq_comm

theorem getElem?_of_prefix {text part : Text} {start i : Nat} (h : part <+: text.drop start)
    (hi : i < part.length) : text[start + i]? = part[i]? := by
  obtain ⟨rest, hrest⟩ := h
  rw [← List.getElem?_drop, ← hrest, List.getElem?_append_left hi]

theorem blank_getElem? {text : Text} (h : blank text = true) {i : Nat} (hi : i < text.length) :
    text[i]? = some '\n' := by
  have hfeed := List.all_eq_true.mp h text[i] (List.getElem_mem hi)
  rw [List.getElem?_eq_getElem hi, of_decide_eq_true hfeed]

/-- A part that is behind some line feeds begins with them only if it is nothing else. -/
theorem prefix_feeds_iff {text part : Text} {early start : Nat} (hlt : early < start)
    (hfeeds : ∀ i, early ≤ i → i < start → text[i]? = some '\n')
    (hpart : part <+: text.drop start) :
    part <+: text.drop early ↔ blank part = true := by
  have hshift : ∀ i, early + i < start ∨ ∃ j, j < i ∧ early + i = start + j := by
    intro i
    by_cases hi : early + i < start
    · exact .inl hi
    · exact .inr ⟨early + i - start, by omega, by omega⟩
  constructor
  · intro h
    -- each character is a line feed of the gap or a character before it in the part
    have hall : ∀ i, i < part.length → part[i]? = some '\n' := by
      intro i
      induction i using Nat.strong_induction_on with
      | _ i ih =>
        intro hi
        rw [← getElem?_of_prefix h hi]
        rcases hshift i with hgap | ⟨j, hj, heq⟩
        · exact hfeeds _ (Nat.le_add_right _ _) hgap
        · rw [heq, getElem?_of_prefix hpart (by omega)]
          exact ih j hj (by omega)
    apply List.all_eq_true.mpr
    intro c hc
    obtain ⟨i, hi, rfl⟩ := List.mem_iff_getElem.mp hc
    have hfeed := hall i hi
    rw [List.getElem?_eq_getElem hi] at hfeed
    exact decide_eq_true (Option.some.inj hfeed)
  · intro h
    rw [List.prefix_iff_getElem?]
    intro i hi
    rw [List.getElem?_drop, ← List.getElem?_eq_getElem hi, blank_getElem? h hi]
    rcases hshift i with hgap | ⟨j, hj, heq⟩
    · exact hfeeds _ (Nat.le_add_right _ _) hgap
    · rw [heq, getElem?_of_prefix hpart (by omega), blank_getElem? h (by omega)]

theorem find_eq {text part : Text} {searchFrom offset : Nat} (hfrom : searchFrom ≤ offset)
    (hend : offset ≤ text.length) (hhere : part <+: text.drop offset)
    (hfirst : ∀ i, searchFrom ≤ i → i < offset → ¬ part <+: text.drop i) :
    find text part searchFrom = some offset := by
  unfold find
  rw [List.find?_range'_eq_some]
  refine ⟨List.isPrefixOf_iff_prefix.mpr hhere, ?_, ?_⟩
  · rw [List.mem_range'_1]
    omega
  · intro i hi hlt
    have hnot := hfirst i hi hlt
    rw [← List.isPrefixOf_iff_prefix, Bool.not_eq_true] at hnot
    rw [hnot]
    rfl

/-! ## Where the paragraphs are and where they are found -/

structure Cursor where
  searchFrom : Nat
  start : Nat

namespace Cursor

/-- Where the next paragraph is found. -/
def found (cursor : Cursor) (paragraph : Text) : Nat :=
  if blank paragraph then cursor.searchFrom else cursor.start

def next (cursor : Cursor) (paragraph : Text) : Cursor where
  searchFrom := cursor.found paragraph + paragraph.length
  start := cursor.start + paragraph.length + 2

def after (cursor : Cursor) (paragraphs : List Text) : Cursor := paragraphs.foldl next cursor

/-- Only line feeds are between the two, and the paragraphs are the rest of the text. -/
structure At (cursor : Cursor) (text : Text) (paragraphs : List Text) : Prop where
  lag : cursor.searchFrom ≤ cursor.start
  within : cursor.start ≤ text.length
  feeds : ∀ i, cursor.searchFrom ≤ i → i < cursor.start → text[i]? = some '\n'
  rest : text.drop cursor.start = joinBlank paragraphs

variable {cursor : Cursor} {text paragraph : Text} {paragraphs : List Text}

theorem found_blank (h : blank paragraph = true) : cursor.found paragraph = cursor.searchFrom :=
  if_pos h

theorem found_text (h : ¬ blank paragraph = true) : cursor.found paragraph = cursor.start :=
  if_neg h

theorem found_le (h : cursor.searchFrom ≤ cursor.start) (paragraph : Text) :
    cursor.found paragraph ≤ cursor.start := by
  unfold found
  split
  · exact h
  · exact Nat.le_refl _

theorem next_lag (h : cursor.searchFrom ≤ cursor.start) (paragraph : Text) :
    (cursor.next paragraph).searchFrom + 2 ≤ (cursor.next paragraph).start := by
  have hfound := found_le h paragraph
  show cursor.found paragraph + paragraph.length + 2 ≤ cursor.start + paragraph.length + 2
  omega

theorem At.prefix (h : cursor.At text (paragraph :: paragraphs)) :
    paragraph <+: text.drop cursor.start := by
  rw [h.rest]
  exact List.prefix_append _ _

theorem At.next (h : cursor.At text (paragraph :: paragraphs)) (hne : paragraphs ≠ []) :
    (cursor.next paragraph).At text paragraphs := by
  obtain ⟨second, others, rfl⟩ := List.exists_cons_of_ne_nil hne
  have hrest : text.drop cursor.start =
      paragraph ++ '\n' :: '\n' :: joinBlank (second :: others) := by
    rw [h.rest]
    simp [joinBlank]
  have hlength := congrArg List.length hrest
  rw [List.length_drop, List.length_append, List.length_cons, List.length_cons] at hlength
  have hgap : ∀ i, i < 2 → text[cursor.start + paragraph.length + i]? = some '\n' := by
    intro i hi
    rw [Nat.add_assoc, ← List.getElem?_drop, hrest, List.getElem?_append_right (by omega),
      Nat.add_sub_cancel_left]
    obtain rfl | rfl : i = 0 ∨ i = 1 := by omega
    · rfl
    · rfl
  constructor
  · have hlag := next_lag h.lag paragraph
    omega
  · show cursor.start + paragraph.length + 2 ≤ text.length
    have hwithin := h.within
    omega
  · intro i hlow hhigh
    have hlow : cursor.found paragraph + paragraph.length ≤ i := hlow
    have hhigh : i < cursor.start + paragraph.length + 2 := hhigh
    by_cases hbefore : i < cursor.start
    · -- only a paragraph found in the gap leaves some of it to search
      have hblank : blank paragraph = true := by
        by_contra hnot
        rw [found_text hnot] at hlow
        omega
      rw [found_blank hblank] at hlow
      exact h.feeds i (by omega) hbefore
    · by_cases hinside : i < cursor.start + paragraph.length
      · have hblank : blank paragraph = true := by
          by_contra hnot
          rw [found_text hnot] at hlow
          omega
        have hi : i = cursor.start + (i - cursor.start) := by omega
        rw [hi, getElem?_of_prefix h.prefix (by omega), blank_getElem? hblank (by omega)]
      · have hi : i = cursor.start + paragraph.length + (i - (cursor.start + paragraph.length)) := by
          omega
        rw [hi]
        exact hgap _ (by omega)
  · show text.drop (cursor.start + paragraph.length + 2) = joinBlank (second :: others)
    rw [Nat.add_assoc, ← List.drop_drop, hrest, ← List.drop_drop, List.drop_left]
    rfl

/-- Where `str.find` answers. -/
theorem At.find (h : cursor.At text (paragraph :: paragraphs)) :
    Chunking.find text paragraph cursor.searchFrom = some (cursor.found paragraph) := by
  by_cases hblank : blank paragraph = true
  · rw [found_blank hblank]
    have hend := Nat.le_trans h.lag h.within
    apply find_eq (Nat.le_refl _) hend
    · rcases Nat.lt_or_ge cursor.searchFrom cursor.start with hlt | hge
      · exact (prefix_feeds_iff hlt h.feeds h.prefix).mpr hblank
      · have heq : cursor.searchFrom = cursor.start := Nat.le_antisymm h.lag hge
        rw [heq]
        exact h.prefix
    · intro i hlow hhigh
      omega
  · rw [found_text hblank]
    apply find_eq h.lag h.within h.prefix
    intro i hlow hhigh hearly
    have hfeeds : ∀ j, i ≤ j → j < cursor.start → text[j]? = some '\n' := by
      intro j hj hstart
      exact h.feeds j (Nat.le_trans hlow hj) hstart
    exact hblank ((prefix_feeds_iff hhigh hfeeds h.prefix).mp hearly)

/-- The paragraphs with where they are found. -/
def placed (cursor : Cursor) : List Text → List Piece
  | [] => []
  | paragraph :: rest => (cursor.found paragraph, paragraph) :: (cursor.next paragraph).placed rest

theorem At.placed (h : cursor.At text paragraphs) :
    locate text cursor.searchFrom paragraphs = cursor.placed paragraphs := by
  induction paragraphs generalizing cursor with
  | nil => rfl
  | cons paragraph rest ih =>
    rw [locate, h.find, Option.getD_some, Cursor.placed]
    by_cases hlast : rest = []
    · rw [hlast]
      rfl
    · exact congrArg (List.cons _) (ih (h.next hlast))

theorem after_cons (cursor : Cursor) (paragraph : Text) (rest : List Text) :
    cursor.after (paragraph :: rest) = (cursor.next paragraph).after rest := rfl

theorem after_append (cursor : Cursor) (paragraphs rest : List Text) :
    cursor.after (paragraphs ++ rest) = (cursor.after paragraphs).after rest :=
  List.foldl_append

theorem placed_append (cursor : Cursor) (paragraphs rest : List Text) :
    cursor.placed (paragraphs ++ rest) =
      cursor.placed paragraphs ++ (cursor.after paragraphs).placed rest := by
  induction paragraphs generalizing cursor with
  | nil => rfl
  | cons paragraph paragraphs ih =>
    rw [List.cons_append, Cursor.placed, Cursor.placed, ih, after_cons, List.cons_append]

theorem placed_texts (cursor : Cursor) (paragraphs : List Text) :
    (cursor.placed paragraphs).map Prod.snd = paragraphs := by
  induction paragraphs generalizing cursor with
  | nil => rfl
  | cons paragraph paragraphs ih => rw [Cursor.placed, List.map_cons, ih]

theorem At.after {rest : List Text} (h : cursor.At text (paragraphs ++ rest)) (hne : rest ≠ []) :
    (cursor.after paragraphs).At text rest := by
  induction paragraphs generalizing cursor with
  | nil => exact h
  | cons paragraph paragraphs ih => exact ih (h.next (List.append_ne_nil_of_right_ne_nil _ hne))

/-! ## Groups -/

/-- The pieces that groups of paragraphs make. -/
def pieces (cursor : Cursor) : List (List Text) → List Piece
  | [] => []
  | group :: groups =>
    (cursor.found (group.head?.getD []), joinBlank group) :: (cursor.after group).pieces groups

theorem groupPiece_placed (cursor : Cursor) {group : List Text} (hne : group ≠ []) :
    groupPiece (cursor.placed group) = (cursor.found (group.head?.getD []), joinBlank group) := by
  obtain ⟨paragraph, rest, rfl⟩ := List.exists_cons_of_ne_nil hne
  unfold groupPiece
  rw [placed_texts]
  rfl

theorem map_groupPiece (groups : List (List Piece)) :
    ∀ cursor : Cursor, (∀ group ∈ groups, group ≠ []) →
      groups.flatten = cursor.placed (groups.map (List.map Prod.snd)).flatten →
      groups.map groupPiece = cursor.pieces (groups.map (List.map Prod.snd)) := by
  induction groups with
  | nil =>
    intro cursor _ _
    rfl
  | cons group groups ih =>
    intro cursor hne hflat
    rw [List.map_cons, List.flatten_cons, List.flatten_cons, placed_append] at hflat
    have hlength : group.length = (cursor.placed (group.map Prod.snd)).length := by
      have htexts := congrArg List.length (cursor.placed_texts (group.map Prod.snd))
      rw [List.length_map, List.length_map] at htexts
      exact htexts.symm
    obtain ⟨hgroup, hrest⟩ := List.append_inj hflat hlength
    have htexts : group.map Prod.snd ≠ [] := by
      intro hnil
      exact hne group List.mem_cons_self (List.map_eq_nil_iff.mp hnil)
    rw [List.map_cons, List.map_cons, Cursor.pieces, ← groupPiece_placed cursor htexts, ← hgroup,
      ih _ (fun next hnext => hne next (List.mem_cons_of_mem _ hnext)) hrest]

theorem grouped_placed (maxChars : Nat) (cursor : Cursor) (paragraphs : List Text) :
    grouped maxChars (cursor.placed paragraphs) =
      cursor.pieces (Packing.pack List.length 2 maxChars paragraphs) := by
  have hpack := @Packing.pack_map _ _ List.length 2 maxChars Prod.snd (cursor.placed paragraphs)
  rw [placed_texts] at hpack
  have hflat : (packPieces maxChars (cursor.placed paragraphs)).flatten = cursor.placed paragraphs :=
    Packing.flatten_pack
  rw [grouped_eq, hpack]
  apply map_groupPiece
  · exact Packing.pack_ne_nil
  · have hmap : ((packPieces maxChars (cursor.placed paragraphs)).map (List.map Prod.snd)).flatten =
        paragraphs := by
      rw [← List.map_flatten, hflat, placed_texts]
    rw [hmap]
    exact hflat

/-! ## Where the search is after a group -/

theorem joinBlank_cons_cons (first second : Text) (rest : List Text) :
    joinBlank (first :: second :: rest) = first ++ '\n' :: '\n' :: joinBlank (second :: rest) := by
  simp [joinBlank]

theorem blank_joinBlank (group : List Text) : blank (joinBlank group) = group.all blank := by
  cases group with
  | nil => rfl
  | cons first rest =>
    induction rest generalizing first with
    | nil => simp [joinBlank]
    | cons second rest ih =>
      have hrest := ih second
      unfold blank at hrest ⊢
      rw [joinBlank_cons_cons, List.all_append, List.all_cons, List.all_cons, hrest]
      simp [List.all_cons]

theorem after_start (cursor : Cursor) (paragraph : Text) (rest : List Text) :
    (cursor.after (paragraph :: rest)).start =
      cursor.start + (joinBlank (paragraph :: rest)).length + 2 := by
  induction rest generalizing cursor paragraph with
  | nil =>
    show cursor.start + paragraph.length + 2 = _
    simp [joinBlank]
  | cons second rest ih =>
    rw [after_cons, ih, joinBlank_cons_cons]
    show cursor.start + paragraph.length + 2 + _ + 2 = _
    simp only [List.length_append, List.length_cons]
    omega

theorem after_lag (h : cursor.searchFrom ≤ cursor.start) (paragraph : Text) (rest : List Text) :
    (cursor.after (paragraph :: rest)).searchFrom + 2 ≤ (cursor.after (paragraph :: rest)).start := by
  induction rest generalizing cursor paragraph with
  | nil => exact next_lag h paragraph
  | cons second rest ih =>
    have hlag := next_lag h paragraph
    exact ih (by omega) second

/-- Of line feeds alone the search skips the gaps only. -/
theorem after_blank (cursor : Cursor) (paragraph : Text) {rest : List Text}
    (h : (paragraph :: rest).all blank = true) :
    (cursor.after (paragraph :: rest)).searchFrom ≤
      cursor.searchFrom + (joinBlank (paragraph :: rest)).length := by
  have hfirst : (cursor.next paragraph).searchFrom = cursor.searchFrom + paragraph.length := by
    have hblank := List.all_eq_true.mp h paragraph List.mem_cons_self
    show cursor.found paragraph + paragraph.length = _
    rw [found_blank hblank]
  induction rest generalizing cursor paragraph with
  | nil =>
    rw [after_cons]
    show (cursor.next paragraph).searchFrom ≤ _
    rw [hfirst]
    simp [joinBlank]
  | cons second rest ih =>
    rw [List.all_cons, Bool.and_eq_true] at h
    have hsecond := List.all_eq_true.mp h.2 second List.mem_cons_self
    have hnext : ((cursor.next paragraph).next second).searchFrom =
        (cursor.next paragraph).searchFrom + second.length := by
      show (cursor.next paragraph).found second + second.length = _
      rw [found_blank hsecond]
    have hrest := ih (cursor.next paragraph) second h.2 hnext
    rw [after_cons, joinBlank_cons_cons]
    simp only [List.length_append, List.length_cons]
    omega

/-- Where a group is cited as it stands. -/
def Begins (cursor : Cursor) (group : List Text) : Prop :=
  ∀ first ∈ group.head?, blank first = true →
    cursor.searchFrom = cursor.start ∨ group.all blank = true

theorem prefix_joinBlank {group : List Text} (hne : group ≠ []) (rest : List Text) :
    joinBlank group <+: joinBlank (group ++ rest) := by
  obtain ⟨first, others, rfl⟩ := List.exists_cons_of_ne_nil hne
  rw [List.cons_append, joinBlank, joinBlank, List.flatMap_append, ← List.append_assoc]
  exact List.prefix_append _ _

/-- A group that begins with line feeds is cited too early. -/
theorem cited_iff {rest : List Text} (h : cursor.At text (paragraph :: paragraphs ++ rest)) :
    joinBlank (paragraph :: paragraphs) <+: text.drop (cursor.found paragraph) ↔
      cursor.Begins (paragraph :: paragraphs) := by
  have hhere : joinBlank (paragraph :: paragraphs) <+: text.drop cursor.start := by
    rw [h.rest]
    exact prefix_joinBlank (List.cons_ne_nil _ _) rest
  by_cases hblank : blank paragraph = true
  · rw [found_blank hblank]
    rcases Nat.lt_or_ge cursor.searchFrom cursor.start with hlt | hge
    · rw [prefix_feeds_iff hlt h.feeds hhere, blank_joinBlank]
      constructor
      · intro hall first _ _
        exact .inr hall
      · intro hbegins
        rcases hbegins paragraph rfl hblank with heq | hall
        · omega
        · exact hall
    · have heq : cursor.searchFrom = cursor.start := Nat.le_antisymm h.lag hge
      rw [heq]
      exact iff_of_true hhere fun first _ _ => .inl heq
  · rw [found_text hblank]
    apply iff_of_true hhere
    intro first hfirst hthis
    obtain rfl := Option.some.inj hfirst
    exact absurd hthis hblank

/-- No paragraph of line feeds is a group alone before another. -/
def Apart (group next : List Text) : Prop :=
  ∀ only, group = [only] → blank only = true → ∀ first ∈ next.head?, blank first = false

/-- The next group begins behind this one, where it begins with text or follows text. -/
theorem gap_iff {rest : List Text} {second : Text} (hlag : cursor.searchFrom ≤ cursor.start)
    (hbegins : cursor.Begins (paragraph :: paragraphs))
    (hapart : Apart (paragraph :: paragraphs) (second :: rest)) :
    cursor.found paragraph + (joinBlank (paragraph :: paragraphs)).length ≤
        (cursor.after (paragraph :: paragraphs)).found second ↔
      (blank second = true → ∀ last ∈ (paragraph :: paragraphs).getLast?, blank last = false) := by
  have hfound := found_le hlag paragraph
  have hstart := after_start cursor paragraph paragraphs
  by_cases hsecond : blank second = true
  · obtain ⟨front, last, hsplit⟩ : ∃ front last, paragraph :: paragraphs = front ++ [last] :=
      ⟨_, _, (List.dropLast_append_getLast (List.cons_ne_nil _ _)).symm⟩
    have hlast : (paragraph :: paragraphs).getLast? = some last := by
      rw [hsplit, List.getLast?_concat]
    have hsearch : (cursor.after (paragraph :: paragraphs)).searchFrom =
        (cursor.after front).found last + last.length := by
      rw [hsplit, after_append]
      rfl
    have hnext : (cursor.after (paragraph :: paragraphs)).start =
        (cursor.after front).start + last.length + 2 := by
      rw [hsplit, after_append]
      rfl
    rw [found_blank hsecond, hsearch, hlast]
    by_cases hblank : blank last = true
    · rw [found_blank hblank]
      apply iff_of_false
      · intro hle
        cases front with
        | nil =>
          rw [List.nil_append] at hsplit
          have hnot := hapart last hsplit hblank second rfl
          rw [hsecond] at hnot
          cases hnot
        | cons first front =>
          obtain rfl : paragraph = first := (List.cons.inj hsplit).1
          have hfront := after_start cursor paragraph front
          by_cases hword : blank paragraph = true
          · rcases hbegins paragraph rfl hword with heq | hall
            · have hfrontlag := after_lag hlag paragraph front
              rw [found_blank hword] at hle
              omega
            · have hfrontblank : (paragraph :: front).all blank = true := by
                rw [hsplit, List.all_append, Bool.and_eq_true] at hall
                exact hall.1
              have hskip := after_blank cursor paragraph hfrontblank
              rw [found_blank hword] at hle
              omega
          · have hfrontlag := after_lag hlag paragraph front
            rw [found_text hword] at hle
            omega
      · intro hall
        have hnot := hall hsecond last rfl
        rw [hblank] at hnot
        cases hnot
    · rw [found_text hblank]
      apply iff_of_true
      · omega
      · intro _ final hfinal
        obtain rfl := Option.some.inj hfinal
        simpa using hblank
  · rw [found_text hsecond]
    apply iff_of_true
    · omega
    · intro hthis
      exact absurd hthis hsecond

end Cursor

/-! ## The groups of a section -/

/-- Pieces that are where they say, one behind the other. -/
structure Exact (text : Text) (pieces : List Piece) : Prop where
  cited : ∀ piece ∈ pieces, piece.2 <+: text.drop piece.1
  apart : pieces.IsChain fun piece later => piece.1 + piece.2.length ≤ later.1

/-- A group of line feeds after text, or one that begins with text. -/
def Findable (group next : List Text) : Prop :=
  ∀ first ∈ next.head?, blank first = true →
    (∀ last ∈ group.getLast?, blank last = false) ∧ next.all blank = true

open Cursor in
theorem exact_pieces_iff {text : Text} (groups : List (List Text)) :
    ∀ (cursor : Cursor) (group : List Text), cursor.At text (group :: groups).flatten →
      (∀ g ∈ group :: groups, g ≠ []) → (group :: groups).IsChain Apart →
      (Exact text (cursor.pieces (group :: groups)) ↔
        cursor.Begins group ∧ (group :: groups).IsChain Findable) := by
  induction groups with
  | nil =>
    intro cursor group hat hne _
    obtain ⟨paragraph, rest, rfl⟩ := List.exists_cons_of_ne_nil (hne group List.mem_cons_self)
    have hcited := @cited_iff cursor text paragraph rest [] hat
    rw [Cursor.pieces, Cursor.pieces, ← hcited]
    constructor
    · intro h
      exact ⟨h.cited _ List.mem_cons_self, .singleton _⟩
    · intro h
      refine ⟨?_, .singleton _⟩
      intro piece hpiece
      obtain rfl := List.mem_singleton.mp hpiece
      exact h.1
  | cons next groups ih =>
    intro cursor group hat hne hapart
    obtain ⟨paragraph, rest, rfl⟩ := List.exists_cons_of_ne_nil (hne group List.mem_cons_self)
    obtain ⟨second, others, rfl⟩ := List.exists_cons_of_ne_nil
      (hne next (List.mem_cons_of_mem _ List.mem_cons_self))
    obtain ⟨hfirst, hrest⟩ := List.isChain_cons_cons.mp hapart
    have hnext := hat.after (List.cons_ne_nil second _)
    have hmore := ih _ _ hnext (fun g hg => hne g (List.mem_cons_of_mem _ hg)) hrest
    have hcited := @cited_iff cursor text paragraph rest _ hat
    have hlag := after_lag hat.lag paragraph rest
    have hgap := fun hbegins => @gap_iff cursor paragraph rest others second hat.lag hbegins hfirst
    -- a search that lags behind the next group finds it only where it is findable
    have hlink : ∀ hbegins : cursor.Begins (paragraph :: rest),
        (cursor.found paragraph + (joinBlank (paragraph :: rest)).length ≤
            (cursor.after (paragraph :: rest)).found second ∧
          (cursor.after (paragraph :: rest)).Begins (second :: others)) ↔
        Findable (paragraph :: rest) (second :: others) := by
      intro hbegins
      rw [hgap hbegins]
      constructor
      · rintro ⟨hlast, hall⟩ first hhead hblank
        obtain rfl := Option.some.inj hhead
        rcases hall second rfl hblank with heq | hall
        · omega
        · exact ⟨hlast hblank, hall⟩
      · intro h
        constructor
        · intro hblank
          exact (h second rfl hblank).1
        · intro first hhead hblank
          exact .inr (h first hhead hblank).2
    rw [Cursor.pieces, List.isChain_cons_cons]
    constructor
    · intro h
      have hbegins : cursor.Begins (paragraph :: rest) :=
        hcited.mp (h.cited _ List.mem_cons_self)
      have hchain := List.isChain_cons_cons.mp h.apart
      have htail := hmore.mp ⟨fun piece hpiece => h.cited piece (List.mem_cons_of_mem _ hpiece),
        hchain.2⟩
      exact ⟨hbegins, (hlink hbegins).mp ⟨hchain.1, htail.1⟩, htail.2⟩
    · rintro ⟨hbegins, hfindable, hchain⟩
      obtain ⟨hgap, hlater⟩ := (hlink hbegins).mpr hfindable
      have htail := hmore.mpr ⟨hlater, hchain⟩
      constructor
      · intro piece hpiece
        rcases List.mem_cons.mp hpiece with rfl | hpiece
        · exact hcited.mpr hbegins
        · exact htail.cited piece hpiece
      · exact List.isChain_cons_cons.mpr ⟨hgap, htail.apart⟩

/-! ## Cutting a piece that is too long -/

theorem slice_width (text : Text) (start width : Nat) :
    slice text start (start + width) = (text.drop start).take width := by
  unfold slice
  rw [Nat.add_sub_cancel_left]

theorem take_prefix_of_slices {text part : Text} {start width : Nat} (count : Nat)
    (h : ∀ i < count, slice part (i * width) (i * width + width) <+: text.drop (start + i * width)) :
    part.take (count * width) <+: text.drop start := by
  induction count with
  | zero =>
    rw [Nat.zero_mul, List.take_zero]
    exact List.nil_prefix
  | succ count ih =>
    obtain ⟨rest, hrest⟩ := ih fun i hi => h i (Nat.lt_succ_of_lt hi)
    have hnext := h count (Nat.lt_succ_self count)
    rw [slice_width] at hnext
    rw [Nat.succ_mul, List.take_add]
    by_cases hshort : part.length ≤ count * width
    · rw [List.drop_eq_nil_of_le hshort, List.take_nil, List.append_nil, ← hrest]
      exact List.prefix_append _ _
    · have hlength : (part.take (count * width)).length = count * width := by
        rw [List.length_take]
        omega
      have hdrop : text.drop (start + count * width) = rest := by
        rw [← List.drop_drop, ← hrest, List.drop_left' hlength]
      rw [hdrop] at hnext
      rw [← hrest]
      exact (List.prefix_append_right_inj _).mpr hnext

theorem sliceStarts_covers {maxChars : Nat} (hmax : 1 ≤ maxChars) (length : Nat) :
    length ≤ (length + maxChars - 1) / maxChars * maxChars := by
  have hdiv := Nat.div_add_mod (length + maxChars - 1) maxChars
  have hmod := Nat.mod_lt (length + maxChars - 1) hmax
  rw [Nat.mul_comm] at hdiv
  omega

theorem sliceStarts_last {maxChars length : Nat} (hmax : 1 ≤ maxChars) (hlong : maxChars < length) :
    ((length + maxChars - 1) / maxChars - 1) * maxChars < length ∧
      length ≤ ((length + maxChars - 1) / maxChars - 1) * maxChars + maxChars ∧
      (length + maxChars - 1) / maxChars ≠ 0 := by
  have hcovers := sliceStarts_covers hmax length
  have hdiv := Nat.div_mul_le_self (length + maxChars - 1) maxChars
  generalize (length + maxChars - 1) / maxChars = count at hcovers hdiv ⊢
  cases count with
  | zero => omega
  | succ count =>
    rw [Nat.succ_mul] at hcovers hdiv
    rw [Nat.add_sub_cancel]
    omega

theorem cutPiece_cited {text : Text} {maxChars : Nat} (hmax : 1 ≤ maxChars) (piece : Piece) :
    (∀ cut ∈ cutPiece maxChars piece, cut.2 <+: text.drop cut.1) ↔
      piece.2 <+: text.drop piece.1 := by
  unfold cutPiece
  split
  · simp
  · unfold sliceStarts
    constructor
    · intro h
      rw [← List.take_of_length_le (sliceStarts_covers hmax piece.2.length)]
      apply take_prefix_of_slices
      intro i hi
      exact h _ (List.mem_map_of_mem (List.mem_map_of_mem (List.mem_range.mpr hi)))
    · intro h cut hcut
      obtain ⟨start, -, rfl⟩ := List.mem_map.mp hcut
      rw [slice_width, ← List.drop_drop]
      exact (List.take_prefix _ _).trans (h.drop start)

/-- The pieces of a piece begin and end with it, and touch. -/
theorem cutPiece_ends {maxChars : Nat} (hmax : 1 ≤ maxChars) (piece : Piece) :
    (∃ first, (cutPiece maxChars piece).head? = some first ∧ first.1 = piece.1) ∧
    (∃ last, (cutPiece maxChars piece).getLast? = some last ∧
      last.1 + last.2.length = piece.1 + piece.2.length) ∧
    (cutPiece maxChars piece).IsChain fun cut later => cut.1 + cut.2.length ≤ later.1 := by
  unfold cutPiece
  split
  · exact ⟨⟨piece, rfl, rfl⟩, ⟨piece, rfl, rfl⟩, .singleton _⟩
  · rename_i hlong
    obtain ⟨hlow, hhigh, hsome⟩ := sliceStarts_last hmax (Nat.lt_of_not_le hlong)
    unfold sliceStarts
    generalize (piece.2.length + maxChars - 1) / maxChars = count at hlow hhigh hsome ⊢
    have hcut : ∀ i, (fun start => (piece.1 + start, slice piece.2 start (start + maxChars)))
        ((fun i => i * maxChars) i) =
          (piece.1 + i * maxChars, slice piece.2 (i * maxChars) (i * maxChars + maxChars)) :=
      fun i => rfl
    have hfirst := hcut 0
    have hlast := hcut (count - 1)
    rw [List.head?_map, List.head?_map, List.head?_range, if_neg hsome, List.getLast?_map,
      List.getLast?_map, List.getLast?_range, if_neg hsome]
    refine ⟨⟨_, congrArg some hfirst, by simp⟩, ⟨_, congrArg some hlast, ?_⟩, ?_⟩
    · dsimp only
      rw [slice_width, List.length_take, List.length_drop]
      omega
    · rw [List.isChain_map, List.isChain_map, List.isChain_range]
      intro i _
      have hwidth := length_slice_le piece.2 (i * maxChars) maxChars
      rw [Nat.succ_mul]
      dsimp only
      omega

theorem exact_cut_iff {text : Text} {maxChars : Nat} (hmax : 1 ≤ maxChars) (pieces : List Piece) :
    Exact text (pieces.flatMap (cutPiece maxChars)) ↔ Exact text pieces := by
  have hsome : [] ∉ pieces.map (cutPiece maxChars) := by
    intro hmem
    obtain ⟨piece, -, hnil⟩ := List.mem_map.mp hmem
    obtain ⟨first, hfirst, -⟩ := (cutPiece_ends hmax piece).1
    rw [hnil] at hfirst
    cases hfirst
  have hcited : (∀ cut ∈ pieces.flatMap (cutPiece maxChars), cut.2 <+: text.drop cut.1) ↔
      ∀ piece ∈ pieces, piece.2 <+: text.drop piece.1 := by
    constructor
    · intro h piece hpiece
      apply (cutPiece_cited hmax piece).mp
      intro cut hcut
      exact h cut (List.mem_flatMap.mpr ⟨piece, hpiece, hcut⟩)
    · intro h cut hcut
      obtain ⟨piece, hpiece, hcut⟩ := List.mem_flatMap.mp hcut
      exact (cutPiece_cited hmax piece).mpr (h piece hpiece) cut hcut
  have hapart : (pieces.flatMap (cutPiece maxChars)).IsChain
        (fun cut later => cut.1 + cut.2.length ≤ later.1) ↔
      pieces.IsChain fun piece later => piece.1 + piece.2.length ≤ later.1 := by
    have hlink : ∀ piece later : Piece,
        (∀ᵉ (x ∈ (cutPiece maxChars piece).getLast?) (y ∈ (cutPiece maxChars later).head?),
          x.1 + x.2.length ≤ y.1) ↔ piece.1 + piece.2.length ≤ later.1 := by
      intro piece later
      obtain ⟨last, hlast, hend⟩ := (cutPiece_ends hmax piece).2.1
      obtain ⟨first, hfirst, hstart⟩ := (cutPiece_ends hmax later).1
      simp [hlast, hfirst, hend, hstart]
    rw [List.flatMap_def, List.isChain_flatten hsome, List.isChain_map]
    simp only [hlink]
    constructor
    · intro h
      exact h.2
    · intro h
      refine ⟨?_, h⟩
      intro cuts hcuts
      obtain ⟨piece, -, rfl⟩ := List.mem_map.mp hcuts
      exact (cutPiece_ends hmax piece).2.2
  constructor
  · rintro ⟨h, h'⟩
    exact ⟨hcited.mp h, hapart.mp h'⟩
  · rintro ⟨h, h'⟩
    exact ⟨hcited.mpr h, hapart.mpr h'⟩

end Ekip.Ingestion.Chunking
