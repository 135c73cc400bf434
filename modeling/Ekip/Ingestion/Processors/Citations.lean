import Ekip.Ingestion.Processors.BlankPieces
import Ekip.Ingestion.Processors.Cleaning
import Ekip.Ingestion.Processors.Offsets

/-!
# Where the chunks are in the text

The chunks of a section that is too long are where they say, exactly where the groups
of its paragraphs are found. The sections are always where they say.
-/
namespace Ekip.Ingestion.Chunking

open Ekip.Lib Ekip.Ingestion.Indexing
open Cleaning (cleanContent)

/-! ## A section -/

/-- No paragraph has two line feeds together. -/
theorem blank_short {text paragraph : Text} (h : paragraph ∈ splitBlank text)
    (hblank : blank paragraph = true) : paragraph.length ≤ 1 := by
  induction text using splitBlank.induct with
  | case1 rest ih =>
    rw [splitBlank] at h
    rcases List.mem_cons.mp h with rfl | h
    · exact Nat.zero_le 1
    · exact ih h
  | case2 c rest hplain hnil ih => exact absurd hnil (splitBlank_ne_nil rest)
  | case3 c rest hplain first others hrest ih =>
    have hsplit : splitBlank (c :: rest) = (c :: first) :: others := by
      rw [splitBlank]
      · rw [hrest]
      · exact hplain
    rw [hsplit] at h
    rw [hrest] at ih
    rcases List.mem_cons.mp h with rfl | h
    · have hjoin := joinBlank_splitBlank rest
      rw [hrest] at hjoin
      cases first with
      | nil => exact Nat.le_refl 1
      | cons d first =>
        have hc := List.all_eq_true.mp hblank c List.mem_cons_self
        have hd := List.all_eq_true.mp hblank d (List.mem_cons_of_mem _ List.mem_cons_self)
        obtain rfl := of_decide_eq_true hc
        obtain rfl := of_decide_eq_true hd
        exact absurd hjoin.symm (hplain _ rfl)
    · exact ih (List.mem_cons_of_mem _ h)
  | case4 =>
    rw [splitBlank, List.mem_singleton] at h
    rw [h]
    exact Nat.zero_le 1

/-- Two short paragraphs go into one group. -/
theorem pack_apart {maxChars : Nat} (hmax : 4 ≤ maxChars) (text : Text) :
    (Packing.pack List.length 2 maxChars (splitBlank text)).IsChain Cursor.Apart := by
  have hmem : ∀ group ∈ Packing.pack List.length 2 maxChars (splitBlank text),
      ∀ paragraph ∈ group, paragraph ∈ splitBlank text := by
    intro group hgroup paragraph hparagraph
    rw [← @Packing.flatten_pack _ List.length 2 maxChars (splitBlank text)]
    exact List.mem_flatten_of_mem hgroup hparagraph
  apply List.IsChain.imp_of_mem_imp _ Packing.pack_full
  intro group next hgroup hnext hfull only honly hblank first hfirst
  by_contra hnot
  have hroom := hfull first hfirst
  rw [honly] at hgroup hroom
  have hshort := blank_short (hmem _ hgroup only List.mem_cons_self) hblank
  have hshort' := blank_short (hmem _ hnext first (List.mem_of_mem_head? hfirst)) (by simpa using hnot)
  have hone : Packing.total List.length 2 [only] = only.length := by simp [Packing.total]
  omega

theorem at_start (text : Text) : Cursor.At ⟨0, 0⟩ text (splitBlank text) := by
  refine ⟨Nat.le_refl 0, Nat.zero_le _, ?_, ?_⟩
  · intro i _ hlt
    cases hlt
  · rw [joinBlank_splitBlank]
    rfl

theorem grouped_pieces (maxChars : Nat) (text : Text) :
    grouped maxChars (locate text 0 (splitBlank text)) =
      Cursor.pieces ⟨0, 0⟩ (Packing.pack List.length 2 maxChars (splitBlank text)) := by
  rw [← Cursor.grouped_placed, ← (at_start text).placed]

theorem pack_splitBlank_ne_nil (maxChars : Nat) (text : Text) :
    Packing.pack List.length 2 maxChars (splitBlank text) ≠ [] := by
  intro hnil
  have hflat := @Packing.flatten_pack _ List.length 2 maxChars (splitBlank text)
  rw [hnil] at hflat
  exact splitBlank_ne_nil text hflat.symm

theorem exact_split_iff {maxChars : Nat} (hmax : 4 ≤ maxChars) {text : Text}
    (hlong : maxChars < text.length) :
    Exact text (splitOversized text maxChars) ↔
      (Packing.pack List.length 2 maxChars (splitBlank text)).IsChain Findable := by
  obtain ⟨group, groups, hpack⟩ := List.exists_cons_of_ne_nil (pack_splitBlank_ne_nil maxChars text)
  have hstart := at_start text
  have hne : ∀ g ∈ group :: groups, g ≠ [] := by
    rw [← hpack]
    exact Packing.pack_ne_nil
  have hapart := pack_apart hmax text
  rw [← @Packing.flatten_pack _ List.length 2 maxChars (splitBlank text), hpack] at hstart
  rw [hpack] at hapart
  unfold splitOversized
  rw [if_neg (by omega), exact_cut_iff (by omega), grouped_pieces, hpack,
    exact_pieces_iff groups _ group hstart hne hapart]
  have hbegins : Cursor.Begins ⟨0, 0⟩ group := fun first _ _ => .inl rfl
  constructor
  · rintro ⟨-, hchain⟩
    exact hchain
  · intro hchain
    exact ⟨hbegins, hchain⟩

theorem exact_split_of_short {maxChars : Nat} {text : Text} (h : text.length ≤ maxChars) :
    Exact text (splitOversized text maxChars) := by
  unfold splitOversized
  rw [if_pos h]
  refine ⟨?_, .singleton _⟩
  intro piece hpiece
  obtain rfl := List.mem_singleton.mp hpiece
  exact List.prefix_rfl

/-! ### Pieces stay in their section -/

theorem pieces_within {text : Text} (groups : List (List Text)) :
    ∀ cursor : Cursor, cursor.At text groups.flatten → (∀ g ∈ groups, g ≠ []) →
      ∀ piece ∈ cursor.pieces groups, piece.1 + piece.2.length ≤ text.length := by
  induction groups with
  | nil =>
    intro cursor _ _ piece hpiece
    cases hpiece
  | cons group groups ih =>
    intro cursor hat hne piece hpiece
    obtain ⟨paragraph, rest, rfl⟩ := List.exists_cons_of_ne_nil (hne group List.mem_cons_self)
    rw [Cursor.pieces] at hpiece
    rcases List.mem_cons.mp hpiece with rfl | hpiece
    · have hprefix := Cursor.prefix_joinBlank (List.cons_ne_nil paragraph rest) groups.flatten
      have hlength := hprefix.length_le
      have hrest := congrArg List.length hat.rest
      rw [List.length_drop, List.flatten_cons] at hrest
      have hfound := Cursor.found_le hat.lag paragraph
      have hwithin := hat.within
      show cursor.found paragraph + (joinBlank (paragraph :: rest)).length ≤ text.length
      omega
    · cases groups with
      | nil => cases hpiece
      | cons next groups =>
        have hnext : (next :: groups).flatten ≠ [] := by
          obtain ⟨second, others, rfl⟩ := List.exists_cons_of_ne_nil
            (hne next (List.mem_cons_of_mem _ List.mem_cons_self))
          exact List.cons_ne_nil _ _
        exact ih _ (hat.after hnext) (fun g hg => hne g (List.mem_cons_of_mem _ hg)) piece hpiece

theorem cutPiece_within {maxChars : Nat} (hmax : 1 ≤ maxChars) {piece cut : Piece}
    (h : cut ∈ cutPiece maxChars piece) : cut.1 + cut.2.length ≤ piece.1 + piece.2.length := by
  unfold cutPiece at h
  split at h
  · obtain rfl := List.mem_singleton.mp h
    exact Nat.le_refl _
  · rename_i hlong
    obtain ⟨hlow, -, -⟩ := sliceStarts_last hmax (Nat.lt_of_not_le hlong)
    obtain ⟨start, hstart, rfl⟩ := List.mem_map.mp h
    obtain ⟨i, hi, rfl⟩ := List.mem_map.mp hstart
    have hle := Nat.mul_le_mul_right maxChars (Nat.le_sub_one_of_lt (List.mem_range.mp hi))
    dsimp only
    rw [slice_width, List.length_take, List.length_drop]
    omega

theorem splitOversized_within {maxChars : Nat} (hmax : 1 ≤ maxChars) {text : Text} {piece : Piece}
    (h : piece ∈ splitOversized text maxChars) : piece.1 + piece.2.length ≤ text.length := by
  unfold splitOversized at h
  split at h
  · obtain rfl := List.mem_singleton.mp h
    show 0 + text.length ≤ text.length
    omega
  · obtain ⟨group, hgroup, hcut⟩ := List.mem_flatMap.mp h
    rw [grouped_pieces] at hgroup
    have hstart := at_start text
    rw [← @Packing.flatten_pack _ List.length 2 maxChars (splitBlank text)] at hstart
    have hwithin := pieces_within _ _ hstart Packing.pack_ne_nil group hgroup
    exact Nat.le_trans (cutPiece_within hmax hcut) hwithin

/-! ## The sections of a content -/

theorem splitOversized_ne_nil {maxChars : Nat} (hmax : 1 ≤ maxChars) (text : Text) :
    splitOversized text maxChars ≠ [] := by
  unfold splitOversized
  split
  · simp
  · intro hnil
    obtain ⟨group, groups, hpack⟩ :=
      List.exists_cons_of_ne_nil (pack_splitBlank_ne_nil maxChars text)
    rw [grouped_pieces, hpack, Cursor.pieces, List.flatMap_cons, List.append_eq_nil_iff] at hnil
    obtain ⟨first, hfirst, -⟩ := (cutPiece_ends hmax _).1
    rw [hnil.1] at hfirst
    cases hfirst

/-- A piece of a part, in the whole. -/
def shift (start : Nat) (piece : Piece) : Piece := (start + piece.1, piece.2)

theorem prefix_shift {content : Text} {part piece : Piece} (hpart : part.2 <+: content.drop part.1)
    (hwithin : piece.1 + piece.2.length ≤ part.2.length) :
    (shift part.1 piece).2 <+: content.drop (shift part.1 piece).1 ↔
      piece.2 <+: part.2.drop piece.1 := by
  have hdrop : part.2.drop piece.1 <+: content.drop (part.1 + piece.1) := by
    rw [← List.drop_drop]
    exact hpart.drop piece.1
  constructor
  · intro h
    apply List.prefix_of_prefix_length_le h hdrop
    show piece.2.length ≤ _
    rw [List.length_drop]
    omega
  · intro h
    exact h.trans hdrop

/-- Parts that are where they say may be taken one by one. -/
theorem exact_parts_iff {content : Text} {parts : List Piece} {cut : Text → List Piece}
    (hparts : Exact content parts) (hsome : ∀ text, cut text ≠ [])
    (hwithin : ∀ text, ∀ piece ∈ cut text, piece.1 + piece.2.length ≤ text.length) :
    Exact content (parts.flatMap fun part => (cut part.2).map (shift part.1)) ↔
      ∀ part ∈ parts, Exact part.2 (cut part.2) := by
  have hnil : [] ∉ parts.map fun part => (cut part.2).map (shift part.1) := by
    intro hmem
    obtain ⟨part, -, hempty⟩ := List.mem_map.mp hmem
    exact hsome part.2 (List.map_eq_nil_iff.mp hempty)
  have hinside : ∀ part : Piece, ((cut part.2).map (shift part.1)).IsChain
        (fun piece later => piece.1 + piece.2.length ≤ later.1) ↔
      (cut part.2).IsChain fun piece later => piece.1 + piece.2.length ≤ later.1 := by
    intro part
    have hsame : ∀ piece later : Piece,
        (shift part.1 piece).1 + (shift part.1 piece).2.length ≤ (shift part.1 later).1 ↔
          piece.1 + piece.2.length ≤ later.1 := by
      intro piece later
      show part.1 + piece.1 + piece.2.length ≤ part.1 + later.1 ↔ _
      omega
    rw [List.isChain_map]
    exact ⟨fun h => h.imp fun a b => (hsame a b).mp, fun h => h.imp fun a b => (hsame a b).mpr⟩
  -- what is cut from a part ends before the next part begins
  have hbetween : (parts.map fun part => (cut part.2).map (shift part.1)).IsChain
      (fun pieces later => ∀ᵉ (x ∈ pieces.getLast?) (y ∈ later.head?), x.1 + x.2.length ≤ y.1) := by
    rw [List.isChain_map]
    apply hparts.apart.imp
    intro part later hle x hx y hy
    obtain ⟨piece, hpiece, rfl⟩ := List.mem_map.mp (List.mem_of_mem_getLast? hx)
    obtain ⟨next, -, rfl⟩ := List.mem_map.mp (List.mem_of_mem_head? hy)
    have hend := hwithin part.2 piece hpiece
    show part.1 + piece.1 + piece.2.length ≤ later.1 + next.1
    omega
  constructor
  · rintro ⟨hcited, hapart⟩ part hpart
    rw [List.flatMap_def, List.isChain_flatten hnil] at hapart
    constructor
    · intro piece hpiece
      apply (prefix_shift (hparts.cited part hpart) (hwithin _ _ hpiece)).mp
      exact hcited _ (List.mem_flatMap.mpr ⟨part, hpart, List.mem_map_of_mem hpiece⟩)
    · exact (hinside part).mp (hapart.1 _ (List.mem_map.mpr ⟨part, hpart, rfl⟩))
  · intro h
    constructor
    · intro piece hpiece
      obtain ⟨part, hpart, hcut⟩ := List.mem_flatMap.mp hpiece
      obtain ⟨inner, hinner, rfl⟩ := List.mem_map.mp hcut
      exact (prefix_shift (hparts.cited part hpart) (hwithin _ _ hinner)).mpr
        ((h part hpart).cited inner hinner)
    · rw [List.flatMap_def, List.isChain_flatten hnil]
      refine ⟨?_, hbetween⟩
      intro pieces hpieces
      obtain ⟨part, hpart, rfl⟩ := List.mem_map.mp hpieces
      exact (hinside part).mpr (h part hpart).apart

theorem sliceByBoundaries_exact (content : Text) (offsets : List Nat) :
    offsets.IsChain (· ≤ ·) →
      Exact content (sliceByBoundaries content offsets) ∧
        ∀ part ∈ (sliceByBoundaries content offsets).head?, ∀ first ∈ offsets.head?,
          first ≤ part.1 := by
  induction offsets with
  | nil =>
    intro _
    refine ⟨⟨?_, .nil⟩, ?_⟩
    · intro part hpart
      cases hpart
    · intro part hpart
      cases hpart
  | cons start rest ih =>
    intro hrising
    obtain ⟨hrest, hhead⟩ := ih hrising.tail
    rw [sliceByBoundaries]
    split
    · refine ⟨⟨?_, hrest.apart.cons ?_⟩, ?_⟩
      · intro part hpart
        rcases List.mem_cons.mp hpart with rfl | hpart
        · exact List.take_prefix _ _
        · exact hrest.cited part hpart
      · intro later hlater
        cases rest with
        | nil => cases hlater
        | cons next rest =>
          have hnext := hhead later hlater next rfl
          have hle := (List.isChain_cons_cons.mp hrising).1
          show start + (slice content start next).length ≤ later.1
          unfold slice
          rw [List.length_take]
          omega
      · intro part hpart first hfirst
        obtain rfl := Option.some.inj hpart
        obtain rfl := Option.some.inj hfirst
        exact Nat.le_refl _
    · refine ⟨hrest, ?_⟩
      intro part hpart first hfirst
      obtain rfl := Option.some.inj hfirst
      cases rest with
      | nil => cases hpart
      | cons next rest =>
        have hnext := hhead part hpart next rfl
        have hle := (List.isChain_cons_cons.mp hrising).1
        omega

/-! ## The chunks of a content -/

/-- Each chunk is the text between its offsets, and the chunks follow one another. -/
structure Cited (content : Text) (chunks : List Chunk) : Prop where
  contents : ∀ chunk ∈ chunks,
    slice content chunk.sourceOffsetStart chunk.sourceOffsetEnd = chunk.content
  indices : chunks.map Chunk.chunkIndex = List.range chunks.length
  disjoint : chunks.IsChain fun chunk later => chunk.sourceOffsetEnd ≤ later.sourceOffsetStart

theorem cited_iff_exact (content : Text) (contentType : ContentType) (maxChars : Nat) :
    Cited content (chunkDocument content contentType maxChars) ↔
      Exact content (pieces content contentType maxChars) := by
  -- the offsets and the text of a chunk are those of its piece
  have hview : (chunkDocument content contentType maxChars).map (fun chunk =>
        (chunk.sourceOffsetStart, chunk.sourceOffsetEnd, chunk.content)) =
      (pieces content contentType maxChars).map fun piece =>
        (piece.1, piece.1 + piece.2.length, piece.2) := by
    apply List.ext_getElem?
    intro i
    unfold chunkDocument
    rw [List.getElem?_map, List.getElem?_map, List.getElem?_mapIdx, Option.map_map]
    rfl
  have hcontents : (∀ chunk ∈ chunkDocument content contentType maxChars,
        slice content chunk.sourceOffsetStart chunk.sourceOffsetEnd = chunk.content) ↔
      ∀ piece ∈ pieces content contentType maxChars, piece.2 <+: content.drop piece.1 := by
    have hchunks := @List.forall_mem_map _ _ (fun chunk : Chunk =>
      (chunk.sourceOffsetStart, chunk.sourceOffsetEnd, chunk.content))
      (chunkDocument content contentType maxChars)
      (fun view : Nat × Nat × Text => slice content view.1 view.2.1 = view.2.2)
    rw [hview, List.forall_mem_map] at hchunks
    rw [← hchunks]
    simp only [slice_eq_iff]
  have hdisjoint : (chunkDocument content contentType maxChars).IsChain
        (fun chunk later => chunk.sourceOffsetEnd ≤ later.sourceOffsetStart) ↔
      (pieces content contentType maxChars).IsChain fun piece later =>
        piece.1 + piece.2.length ≤ later.1 := by
    have hchunks := @List.isChain_map _ _ (fun view later : Nat × Nat × Text => view.2.1 ≤ later.1)
      (fun chunk : Chunk => (chunk.sourceOffsetStart, chunk.sourceOffsetEnd, chunk.content))
      (chunkDocument content contentType maxChars)
    rw [hview, List.isChain_map] at hchunks
    exact hchunks.symm
  have hindices : (chunkDocument content contentType maxChars).map Chunk.chunkIndex =
      List.range (chunkDocument content contentType maxChars).length := by
    apply List.ext_getElem
    · rw [List.length_map, List.length_range]
    · intro i hi _
      rw [List.getElem_map, List.getElem_range]
      unfold chunkDocument
      rw [List.getElem_mapIdx]
  constructor
  · intro h
    exact ⟨hcontents.mp h.contents, hdisjoint.mp h.disjoint⟩
  · intro h
    exact ⟨hcontents.mpr h.cited, hindices, hdisjoint.mpr h.apart⟩

theorem cited_iff_findable {maxChars : Nat} (hmax : 4 ≤ maxChars) (content : Text)
    (contentType : ContentType) :
    Cited content (chunkDocument content contentType maxChars) ↔
      ∀ part ∈ sections content contentType, maxChars < part.2.length →
        (Packing.pack List.length 2 maxChars (splitBlank part.2)).IsChain Findable := by
  have hsections := (sliceByBoundaries_exact content _ (boundaries_sound content contentType).rising).1
  have hparts := @exact_parts_iff content (sections content contentType)
    (fun text => splitOversized text maxChars) hsections
    (splitOversized_ne_nil (by omega)) (fun _ _ => splitOversized_within (by omega))
  have hpieces : pieces content contentType maxChars = (sections content contentType).flatMap
      fun part => (splitOversized part.2 maxChars).map (shift part.1) := rfl
  rw [cited_iff_exact, hpieces, hparts]
  constructor
  · intro h part hpart hlong
    exact (exact_split_iff hmax hlong).mp (h part hpart)
  · intro h part hpart
    by_cases hlong : maxChars < part.2.length
    · exact (exact_split_iff hmax hlong).mpr (h part hpart hlong)
    · exact exact_split_of_short (Nat.le_of_not_lt hlong)

/-- The chunks of a document are where they say, exactly where no group of paragraphs
of a long section begins with line feeds, unless it is line feeds after text. -/
theorem document_cited_iff (unescape : Text → Text) (raw : RawDocument) (contentType : ContentType) :
    Cited (cleanContent unescape raw.content.toList)
        (chunkDocument (cleanContent unescape raw.content.toList) contentType maxChunkChars) ↔
      ∀ part ∈ sections (cleanContent unescape raw.content.toList) contentType,
        maxChunkChars < part.2.length →
          (Packing.pack List.length 2 maxChunkChars (splitBlank part.2)).IsChain Findable :=
  cited_iff_findable (by decide) _ _

/-! ## A line of spaces -/

/-- A line that nearly fills a chunk, a line of one space, and a letter. -/
def spacedLine : RawDocument where
  source := "slack"
  externalId := "C1:1"
  content := String.ofList (List.replicate 1999 'x' ++ ['\n', '\n', ' ', '\n', '\n', 'B'])

def cleanedLine : Text := List.replicate 1999 'x' ++ '\n' :: '\n' :: '\n' :: '\n' :: ['B']

set_option maxRecDepth 10000 in
theorem cleanContent_spacedLine : cleanContent id spacedLine.content.toList = cleanedLine := by
  have hraw : spacedLine.content.toList =
      List.replicate 1999 'x' ++ ['\n', '\n', ' ', '\n', '\n', 'B'] := String.toList_ofList
  rw [hraw]
  decide +kernel

theorem splitBlank_cleanedLine : splitBlank cleanedLine = [List.replicate 1999 'x', [], ['B']] := by
  have hx : '\n' ∉ List.replicate 1999 'x' := fun h => by cases List.eq_of_mem_replicate h
  have hrest : splitBlank ('\n' :: '\n' :: ['B']) = [[], ['B']] := by decide
  unfold cleanedLine
  rw [splitBlank_append hx, hrest]

theorem pack_second {limit : Nat} {before after : Text} (hbefore : limit < before.length + 2)
    (hafter : after.length + 2 ≤ limit) :
    Packing.pack List.length 2 limit [before, [], after] = [[before], [[], after]] := by
  have hfirst : limit < Packing.total List.length 2 [before] + 2 + ([] : Text).length := by
    show limit < before.length + 0 + 2 + 0
    omega
  have hsecond : ¬ limit < Packing.total List.length 2 [([] : Text)] + 2 + after.length := by
    show ¬ limit < 0 + 0 + 2 + after.length
    omega
  rw [Packing.pack, Packing.packFrom, if_pos hfirst, Packing.packFrom, if_neg hsecond,
    Packing.packFrom]
  rfl

/-- The last chunk is two line feeds and the letter, and is cited as three line feeds. -/
theorem letter_cited_early :
    ¬ Cited (cleanContent id spacedLine.content.toList)
        (chunkDocument (cleanContent id spacedLine.content.toList) .chat maxChunkChars) := by
  have hlength : cleanedLine.length = 2004 := by
    unfold cleanedLine
    rw [List.length_append, List.length_replicate]
    rfl
  have htext : hasText cleanedLine = true := by
    apply List.any_eq_true.mpr
    exact ⟨'x', List.mem_append_left _ (List.mem_replicate.mpr ⟨by decide, rfl⟩), by decide⟩
  rw [cleanContent_spacedLine, cited_iff_findable (by decide)]
  intro h
  have hlong : maxChunkChars < cleanedLine.length := by
    rw [hlength]
    decide
  have hfull : maxChunkChars < (List.replicate 1999 'x').length + 2 := by
    rw [List.length_replicate]
    decide
  have hchain := h _ (section_chat htext) hlong
  rw [splitBlank_cleanedLine, pack_second hfull (by decide)] at hchain
  obtain ⟨hfindable, -⟩ := List.isChain_cons_cons.mp hchain
  have hall := (hfindable [] rfl rfl).2
  exact absurd hall (by decide)

end Ekip.Ingestion.Chunking
