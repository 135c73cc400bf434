import Ekip.Ingestion.Processors.Pieces

/-!
# Pieces of white space

Sections without text are dropped. Of a section that is too long, a group of blank
paragraphs or a slice of spaces becomes a chunk all the same.
-/
namespace Ekip.Ingestion.Chunking

open Ekip.Lib Ekip.Ingestion.Indexing

theorem hasText_append (a b : Text) : hasText (a ++ b) = (hasText a || hasText b) :=
  List.any_append

theorem hasText_joinBlank {paragraphs : List Text} :
    hasText (joinBlank paragraphs) = true ↔ ∃ paragraph ∈ paragraphs, hasText paragraph = true := by
  have hgap : ∀ next : Text, hasText ('\n' :: '\n' :: next) = hasText next := by
    intro next
    have hspace : Text.isSpace '\n' = true := by decide
    simp [hasText, hspace]
  cases paragraphs with
  | nil => simp [joinBlank, hasText]
  | cons first rest =>
    have hrest : hasText (rest.flatMap fun next => '\n' :: '\n' :: next) = rest.any hasText := by
      unfold hasText
      rw [List.any_flatMap]
      exact congrArg rest.any (funext hgap)
    rw [joinBlank, hasText_append, hrest]
    simp

/-- What keeps white space out of the pieces of a section that is too long. -/
structure Inked (maxChars : Nat) (text : Text) : Prop where
  groups : ∀ group ∈ Packing.pack List.length 2 maxChars (splitBlank text),
    Packing.total List.length 2 group ≤ maxChars → ∃ paragraph ∈ group, hasText paragraph = true
  slices : ∀ paragraph ∈ splitBlank text, maxChars < paragraph.length →
    ∀ start ∈ sliceStarts maxChars paragraph.length,
      hasText (slice paragraph start (start + maxChars)) = true

/-- A paragraph that is too long is a group of its own. -/
theorem group_of_long {maxChars : Nat} {text paragraph : Text} (h : paragraph ∈ splitBlank text)
    (hlong : maxChars < paragraph.length) :
    [paragraph] ∈ Packing.pack List.length 2 maxChars (splitBlank text) := by
  have hflat : paragraph ∈ (Packing.pack List.length 2 maxChars (splitBlank text)).flatten := by
    rw [Packing.flatten_pack]
    exact h
  obtain ⟨group, hgroup, hmem⟩ := List.mem_flatten.mp hflat
  rcases Packing.pack_fits group hgroup with hfits | ⟨only, rfl⟩
  · have hle : paragraph.length ≤ Packing.total List.length 2 group := Packing.le_total hmem
    omega
  · obtain rfl := List.mem_singleton.mp hmem
    exact hgroup

theorem pieces_hasText_iff {maxChars : Nat} {text : Text} (hlong : maxChars < text.length) :
    (∀ piece ∈ splitOversized text maxChars, hasText piece.2 = true) ↔ Inked maxChars text := by
  have htexts : ∀ group : Text, group ∈ (grouped maxChars (locate text 0 (splitBlank text))).map
      Prod.snd ↔ ∃ paragraphs ∈ Packing.pack List.length 2 maxChars (splitBlank text),
        joinBlank paragraphs = group := by
    intro group
    rw [texts_grouped, List.mem_map]
  unfold splitOversized
  rw [if_neg (by omega)]
  constructor
  · intro h
    have hcut : ∀ paragraphs ∈ Packing.pack List.length 2 maxChars (splitBlank text), ∃ start,
        ∀ piece ∈ cutPiece maxChars (start, joinBlank paragraphs), hasText piece.2 = true := by
      intro paragraphs hparagraphs
      obtain ⟨⟨start, group⟩, hgroup, rfl⟩ :=
        List.mem_map.mp ((htexts (joinBlank paragraphs)).mpr ⟨paragraphs, hparagraphs, rfl⟩)
      exact ⟨start, fun piece hpiece => h piece (List.mem_flatMap.mpr ⟨_, hgroup, hpiece⟩)⟩
    constructor
    · intro group hgroup hfits
      obtain ⟨start, hpieces⟩ := hcut group hgroup
      unfold cutPiece at hpieces
      rw [length_joinBlank, if_pos hfits] at hpieces
      exact hasText_joinBlank.mp (hpieces _ (List.mem_singleton_self _))
    · intro paragraph hparagraph hlength start hstart
      obtain ⟨first, hpieces⟩ := hcut [paragraph] (group_of_long hparagraph hlength)
      have hone : joinBlank [paragraph] = paragraph := by simp [joinBlank]
      have hcuts : ¬ paragraph.length ≤ maxChars := by omega
      unfold cutPiece at hpieces
      rw [hone, if_neg hcuts] at hpieces
      exact hpieces _ (List.mem_map.mpr ⟨start, hstart, rfl⟩)
  · rintro ⟨hgroups, hslices⟩ piece hpiece
    obtain ⟨⟨first, group⟩, hgroup, hcut⟩ := List.mem_flatMap.mp hpiece
    obtain ⟨paragraphs, hparagraphs, rfl⟩ := (htexts group).mp (List.mem_map_of_mem hgroup)
    unfold cutPiece at hcut
    split at hcut
    · rename_i hfits
      obtain rfl := List.mem_singleton.mp hcut
      rw [length_joinBlank] at hfits
      exact hasText_joinBlank.mpr (hgroups paragraphs hparagraphs hfits)
    · rename_i hlength
      obtain ⟨start, hstart, rfl⟩ := List.mem_map.mp hcut
      rcases Packing.pack_fits paragraphs hparagraphs with hfits | ⟨only, rfl⟩
      · rw [length_joinBlank] at hlength
        exact absurd hfits hlength
      · have hone : joinBlank [only] = only := by simp [joinBlank]
        have honly : only ∈ splitBlank text := by
          rw [← @Packing.flatten_pack _ List.length 2 maxChars (splitBlank text)]
          exact List.mem_flatten.mpr ⟨_, hparagraphs, List.mem_singleton_self only⟩
        rw [hone] at hlength hstart ⊢
        exact hslices only honly (Nat.lt_of_not_le hlength) start hstart

/-- The sections of a content. -/
def sections (content : Text) (contentType : ContentType) : List Piece :=
  sliceByBoundaries content (boundaries content contentType)

theorem sliceByBoundaries_hasText (content : Text) (offsets : List Nat) :
    ∀ part ∈ sliceByBoundaries content offsets, hasText part.2 = true := by
  induction offsets with
  | nil =>
    intro part hpart
    cases hpart
  | cons start rest ih =>
    intro part hpart
    rw [sliceByBoundaries] at hpart
    split at hpart
    · rename_i htext
      rcases List.mem_cons.mp hpart with rfl | hpart
      · exact htext
      · exact ih part hpart
    · exact ih part hpart

theorem mem_contents {content chunk : Text} {contentType : ContentType} {maxChars : Nat} :
    chunk ∈ (chunkDocument content contentType maxChars).map Chunk.content ↔
      ∃ part ∈ sections content contentType, ∃ piece ∈ splitOversized part.2 maxChars,
        piece.2 = chunk := by
  rw [contents_chunkDocument, List.mem_map]
  constructor
  · rintro ⟨piece, hpiece, rfl⟩
    obtain ⟨part, hpart, hcut⟩ := List.mem_flatMap.mp hpiece
    obtain ⟨cut, hsplit, rfl⟩ := List.mem_map.mp hcut
    exact ⟨part, hpart, cut, hsplit, rfl⟩
  · rintro ⟨part, hpart, piece, hsplit, rfl⟩
    exact ⟨_, List.mem_flatMap.mpr ⟨part, hpart, List.mem_map_of_mem hsplit⟩, rfl⟩

/-- A message is one section. -/
theorem section_chat {text : Text} (htext : hasText text = true) : (0, text) ∈ sections text .chat := by
  have hwhole : slice text 0 text.length = text := by
    simp [slice]
  show (0, text) ∈ sliceByBoundaries text [0]
  rw [sliceByBoundaries]
  simp only [List.head?_nil, Option.getD_none, hwhole, htext, if_true, List.mem_cons_self]

/-- Every chunk has text, exactly where each group of paragraphs and each slice of a
section that is too long has some. -/
theorem chunks_inked_iff (content : Text) (contentType : ContentType) (maxChars : Nat) :
    (∀ chunk ∈ chunkDocument content contentType maxChars, hasText chunk.content = true) ↔
      ∀ part ∈ sections content contentType, maxChars < part.2.length → Inked maxChars part.2 := by
  constructor
  · intro h part hpart hlong
    apply (pieces_hasText_iff hlong).mp
    intro piece hpiece
    obtain ⟨chunk, hchunk, hcontent⟩ := List.mem_map.mp (mem_contents.mpr ⟨part, hpart, piece, hpiece, rfl⟩)
    rw [← hcontent]
    exact h chunk hchunk
  · intro h chunk hchunk
    obtain ⟨part, hpart, piece, hpiece, hcontent⟩ := mem_contents.mp (List.mem_map_of_mem hchunk)
    rw [← hcontent]
    by_cases hlong : maxChars < part.2.length
    · exact (pieces_hasText_iff hlong).mpr (h part hpart hlong) piece hpiece
    · unfold splitOversized at hpiece
      rw [if_pos (by omega)] at hpiece
      obtain rfl := List.mem_singleton.mp hpiece
      exact sliceByBoundaries_hasText _ _ part hpart

/-! ## Two long lines with three empty lines between them -/

theorem splitBlank_line {line : Text} (h : '\n' ∉ line) : splitBlank line = [line] := by
  induction line with
  | nil => rfl
  | cons c line ih =>
    have hc : c ≠ '\n' := by
      rintro rfl
      exact h List.mem_cons_self
    have hline := ih fun hmem => h (List.mem_cons_of_mem _ hmem)
    rw [splitBlank]
    · rw [hline]
    · intro rest heq _
      exact hc heq

theorem splitBlank_append {line : Text} (h : '\n' ∉ line) (rest : Text) :
    splitBlank (line ++ '\n' :: '\n' :: rest) = line :: splitBlank rest := by
  induction line with
  | nil => rfl
  | cons c line ih =>
    have hc : c ≠ '\n' := by
      rintro rfl
      exact h List.mem_cons_self
    have hline := ih fun hmem => h (List.mem_cons_of_mem _ hmem)
    rw [List.cons_append, splitBlank]
    · rw [hline]
    · intro rest heq _
      exact hc heq

/-- The middle paragraph of three is empty, and neither of the others has room for it. -/
def twoLines : Text :=
  List.replicate 2000 'x' ++ '\n' :: '\n' :: '\n' :: '\n' :: List.replicate 2000 'y'

theorem splitBlank_twoLines :
    splitBlank twoLines = [List.replicate 2000 'x', [], List.replicate 2000 'y'] := by
  have hx : '\n' ∉ List.replicate 2000 'x' := fun h => by cases List.eq_of_mem_replicate h
  have hy : '\n' ∉ List.replicate 2000 'y' := fun h => by cases List.eq_of_mem_replicate h
  have hrest : splitBlank ('\n' :: '\n' :: List.replicate 2000 'y') = [] :: [List.replicate 2000 'y'] := by
    rw [splitBlank, splitBlank_line hy]
  unfold twoLines
  rw [splitBlank_append hx, hrest]

theorem twoLines_length : twoLines.length = 4004 := by
  unfold twoLines
  rw [List.length_append, List.length_replicate]
  simp only [List.length_cons, List.length_replicate]

/-- An empty paragraph between two that fill a group each is a group. -/
theorem pack_alone {limit : Nat} {before after : Text} (hbefore : before.length = limit)
    (hafter : after.length = limit) :
    Packing.pack List.length 2 limit [before, [], after] = [[before], [[]], [after]] := by
  have hfirst : limit < Packing.total List.length 2 [before] + 2 + ([] : Text).length := by
    show limit < before.length + 0 + 2 + 0
    omega
  have hsecond : limit < Packing.total List.length 2 [([] : Text)] + 2 + after.length := by
    show limit < 0 + 0 + 2 + after.length
    omega
  rw [Packing.pack, Packing.packFrom, if_pos hfirst, Packing.packFrom, if_pos hsecond,
    Packing.packFrom]

/-- An empty chunk goes to the index. -/
theorem blank_chunk :
    ¬ ∀ chunk ∈ chunkDocument twoLines .chat maxChunkChars, hasText chunk.content = true := by
  intro h
  have hlength : maxChunkChars < twoLines.length := by
    rw [twoLines_length]
    decide
  have htext : hasText twoLines = true := by
    apply List.any_eq_true.mpr
    exact ⟨'x', List.mem_append_left _ (List.mem_replicate.mpr ⟨by decide, rfl⟩), by decide⟩
  have hsection := section_chat htext
  have hpieces : ∀ piece ∈ splitOversized twoLines maxChunkChars, hasText piece.2 = true := by
    intro piece hpiece
    obtain ⟨chunk, hchunk, hcontent⟩ :=
      List.mem_map.mp (mem_contents.mpr ⟨_, hsection, piece, hpiece, rfl⟩)
    rw [← hcontent]
    exact h chunk hchunk
  have hgroup : [[]] ∈ Packing.pack List.length 2 maxChunkChars (splitBlank twoLines) := by
    have hfull (c : Char) : (List.replicate 2000 c).length = maxChunkChars := List.length_replicate
    rw [splitBlank_twoLines, pack_alone (hfull 'x') (hfull 'y')]
    exact List.mem_cons_of_mem _ List.mem_cons_self
  obtain ⟨paragraph, hparagraph, hink⟩ :=
    ((pieces_hasText_iff hlength).mp hpieces).groups [[]] hgroup (by decide)
  obtain rfl := List.mem_singleton.mp hparagraph
  cases hink

end Ekip.Ingestion.Chunking
