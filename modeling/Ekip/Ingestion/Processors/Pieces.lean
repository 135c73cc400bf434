import Ekip.Ingestion.Processors.Chunking

/-!
# What the pieces of a text are

The grouping loop packs the paragraphs greedily, so that its pieces are read off the
packing. Put together they are the text without some of its white space. A piece may
be nothing but white space: the filter on sections is not repeated on their pieces.
-/
namespace Ekip.Ingestion.Chunking

open Ekip.Lib Ekip.Ingestion.Indexing

/-! ## Paragraphs -/

theorem splitBlank_ne_nil (text : Text) : splitBlank text ≠ [] := by
  unfold splitBlank
  split
  · simp
  · split <;> simp
  · simp

/-- `split` and `join` with one separator. -/
theorem joinBlank_splitBlank (text : Text) : joinBlank (splitBlank text) = text := by
  induction text using splitBlank.induct with
  | case1 rest ih =>
    rw [splitBlank]
    cases hrest : splitBlank rest with
    | nil => exact absurd hrest (splitBlank_ne_nil rest)
    | cons paragraph paragraphs =>
      rw [hrest] at ih
      rw [← ih]
      rfl
  | case2 c rest hplain hnil ih => exact absurd hnil (splitBlank_ne_nil rest)
  | case3 c rest hplain paragraph paragraphs hrest ih =>
    rw [splitBlank]
    · rw [hrest] at ih ⊢
      show c :: joinBlank (paragraph :: paragraphs) = _
      rw [ih]
    · exact hplain
  | case4 => rfl

theorem joinBlank_append {paragraphs : List Text} (h : paragraphs ≠ []) (paragraph : Text) :
    joinBlank (paragraphs ++ [paragraph]) = joinBlank paragraphs ++ '\n' :: '\n' :: paragraph := by
  cases paragraphs with
  | nil => exact absurd rfl h
  | cons first rest => simp [joinBlank]

theorem length_joinBlank (paragraphs : List Text) :
    (joinBlank paragraphs).length = Packing.total List.length 2 paragraphs := by
  cases paragraphs with
  | nil => rfl
  | cons first rest =>
    unfold joinBlank Packing.total
    rw [List.length_append, List.length_flatMap]
    congr 2
    apply List.map_congr_left
    intro next _
    show next.length + 1 + 1 = 2 + next.length
    omega

/-! ## Grouping is packing -/

/-- The piece that a group of located paragraphs makes. -/
def groupPiece (group : List Piece) : Piece :=
  ((group.head?.map Prod.fst).getD 0, joinBlank (group.map Prod.snd))

def packPieces (maxChars : Nat) (located : List Piece) : List (List Piece) :=
  Packing.pack (fun piece : Piece => piece.2.length) 2 maxChars located

theorem groupFrom_eq {maxChars : Nat} {group located : List Piece} (h : group ≠ []) :
    groupFrom maxChars (groupPiece group).1 (groupPiece group).2 located =
      (Packing.packFrom (fun piece : Piece => piece.2.length) 2 maxChars group located).map
        groupPiece := by
  induction located generalizing group with
  | nil => rfl
  | cons piece located ih =>
    obtain ⟨offset, paragraph⟩ := piece
    have hparagraphs : group.map Prod.snd ≠ [] := by simpa using h
    have hcandidate : (groupPiece group).2 ++ '\n' :: '\n' :: paragraph =
        (groupPiece (group ++ [(offset, paragraph)])).2 := by
      unfold groupPiece
      rw [List.map_append, List.map_cons, List.map_nil, joinBlank_append hparagraphs]
    have hstart : (groupPiece group).1 = (groupPiece (group ++ [(offset, paragraph)])).1 := by
      unfold groupPiece
      rw [List.head?_append_of_ne_nil _ h]
    have hlength : ((groupPiece group).2 ++ '\n' :: '\n' :: paragraph).length =
        Packing.total (fun piece : Piece => piece.2.length) 2 group + 2 + paragraph.length := by
      have htotal : (groupPiece group).2.length =
          Packing.total (fun piece : Piece => piece.2.length) 2 group := by
        show (joinBlank (group.map Prod.snd)).length = _
        rw [length_joinBlank]
        cases group with
        | nil => rfl
        | cons first rest => simp [Packing.total, Function.comp_def]
      simp only [List.length_append, List.length_cons, htotal]
      omega
    unfold groupFrom Packing.packFrom
    dsimp only
    rw [hlength]
    split
    · rw [List.map_cons]
      have hrest := @ih [(offset, paragraph)] (by simp)
      simp only [groupPiece, List.head?_cons, Option.map_some, Option.getD_some, List.map_cons,
        List.map_nil, joinBlank, List.flatMap_nil, List.append_nil] at hrest ⊢
      rw [hrest]
    · rw [hcandidate, hstart]
      exact ih (by simp)

theorem grouped_eq (maxChars : Nat) (located : List Piece) :
    grouped maxChars located = (packPieces maxChars located).map groupPiece := by
  cases located with
  | nil => rfl
  | cons piece located =>
    have hgroup := @groupFrom_eq maxChars [piece] located (by simp)
    have hone : groupPiece [piece] = piece := by
      simp [groupPiece, joinBlank]
    rw [hone] at hgroup
    exact hgroup

theorem locate_paragraphs (text : Text) (searchFrom : Nat) (paragraphs : List Text) :
    (locate text searchFrom paragraphs).map Prod.snd = paragraphs := by
  induction paragraphs generalizing searchFrom with
  | nil => rfl
  | cons paragraph paragraphs ih =>
    rw [locate, List.map_cons, ih]

/-- The texts of the groups, from the paragraphs alone. -/
theorem texts_grouped (maxChars : Nat) (text : Text) :
    (grouped maxChars (locate text 0 (splitBlank text))).map Prod.snd =
      (Packing.pack List.length 2 maxChars (splitBlank text)).map joinBlank := by
  have hpack := @Packing.pack_map _ _ List.length 2 maxChars Prod.snd (locate text 0 (splitBlank text))
  rw [locate_paragraphs] at hpack
  rw [grouped_eq, hpack, List.map_map, List.map_map]
  rfl

/-! ## Slices -/

/-- The first slices of a text are a prefix of it. -/
theorem flatMap_slices (maxChars : Nat) (text : Text) (count : Nat) :
    (List.range count).flatMap (fun i => slice text (i * maxChars) (i * maxChars + maxChars)) =
      text.take (count * maxChars) := by
  induction count with
  | zero => simp
  | succ count ih =>
    have hone : slice text (count * maxChars) (count * maxChars + maxChars) =
        (text.drop (count * maxChars)).take maxChars := by
      unfold slice
      rw [Nat.add_sub_cancel_left]
    rw [List.range_succ, List.flatMap_append, ih, List.flatMap_singleton, hone, Nat.succ_mul,
      List.take_add]

theorem length_slice_le (text : Text) (start width : Nat) :
    (slice text start (start + width)).length ≤ width := by
  unfold slice
  rw [List.length_take]
  omega

/-- A piece that is cut is what its slices come to. -/
theorem flatMap_cutPiece {maxChars : Nat} (hmax : 1 ≤ maxChars) (piece : Piece) :
    (cutPiece maxChars piece).flatMap Prod.snd = piece.2 := by
  unfold cutPiece
  split
  · simp
  · have hall : piece.2.length ≤
        (piece.2.length + maxChars - 1) / maxChars * maxChars := by
      have hdiv := Nat.div_add_mod (piece.2.length + maxChars - 1) maxChars
      have hmod := Nat.mod_lt (piece.2.length + maxChars - 1) hmax
      rw [Nat.mul_comm] at hdiv
      omega
    unfold sliceStarts
    rw [List.flatMap_map, List.flatMap_map, flatMap_slices, List.take_of_length_le hall]

theorem length_cutPiece {maxChars : Nat} {piece cut : Piece} (h : cut ∈ cutPiece maxChars piece) :
    cut.2.length ≤ maxChars := by
  unfold cutPiece at h
  split at h
  · rename_i hfits
    obtain rfl := List.mem_singleton.mp h
    exact hfits
  · obtain ⟨start, -, rfl⟩ := List.mem_map.mp h
    exact length_slice_le _ _ _

theorem length_splitOversized {text : Text} {maxChars : Nat} {piece : Piece}
    (h : piece ∈ splitOversized text maxChars) : piece.2.length ≤ maxChars := by
  unfold splitOversized at h
  split at h
  · rename_i hfits
    obtain rfl := List.mem_singleton.mp h
    exact hfits
  · obtain ⟨group, -, hcut⟩ := List.mem_flatMap.mp h
    exact length_cutPiece hcut

/-! ## What is left without white space -/

def ink (text : Text) : Text := text.filter fun c => !Text.isSpace c

theorem ink_append (a b : Text) : ink (a ++ b) = ink a ++ ink b := List.filter_append ..

theorem ink_flatMap {α : Type} (f : α → Text) (as : List α) :
    ink (as.flatMap f) = as.flatMap fun a => ink (f a) := by
  induction as with
  | nil => rfl
  | cons a as ih => rw [List.flatMap_cons, ink_append, ih, List.flatMap_cons]

theorem ink_joinBlank (paragraphs : List Text) :
    ink (joinBlank paragraphs) = paragraphs.flatMap ink := by
  have hgap : ∀ next : Text, ink ('\n' :: '\n' :: next) = ink next := by
    intro next
    have hspace : Text.isSpace '\n' = true := by decide
    simp [ink, hspace]
  cases paragraphs with
  | nil => rfl
  | cons first rest => simp only [joinBlank, ink_append, ink_flatMap, hgap, List.flatMap_cons]

theorem ink_splitOversized (text : Text) {maxChars : Nat} (hmax : 1 ≤ maxChars) :
    (splitOversized text maxChars).flatMap (fun piece => ink piece.2) = ink text := by
  unfold splitOversized
  split
  · simp
  · have hcut : ∀ piece : Piece, (cutPiece maxChars piece).flatMap (fun cut => ink cut.2) =
        ink piece.2 := by
      intro piece
      rw [← ink_flatMap, flatMap_cutPiece hmax]
    have hgroups : (grouped maxChars (locate text 0 (splitBlank text))).flatMap
        (fun piece => ink piece.2) = ink text := by
      calc (grouped maxChars (locate text 0 (splitBlank text))).flatMap (fun piece => ink piece.2)
          = ((grouped maxChars (locate text 0 (splitBlank text))).map Prod.snd).flatMap ink := by
            rw [List.flatMap_map]
        _ = (Packing.pack List.length 2 maxChars (splitBlank text)).flatMap
              fun group => group.flatMap ink := by
            rw [texts_grouped, List.flatMap_map]
            simp only [ink_joinBlank]
        _ = ((Packing.pack List.length 2 maxChars (splitBlank text)).flatMap id).flatMap ink :=
            List.flatMap_assoc.symm
        _ = (splitBlank text).flatMap ink := by
            rw [List.flatMap_id, Packing.flatten_pack]
        _ = ink text := by
            rw [← ink_joinBlank, joinBlank_splitBlank]
    rw [List.flatMap_assoc]
    simp only [hcut]
    exact hgroups

theorem ink_of_blank {text : Text} (h : hasText text = false) : ink text = [] := by
  apply List.filter_eq_nil_iff.mpr
  intro c hc hink
  have hany : hasText text = true := List.any_eq_true.mpr ⟨c, hc, hink⟩
  rw [h] at hany
  cases hany

/-! ## Sections -/

theorem matchStarts_sorted (boundary : Text → Option Nat) (text : Text) :
    ∀ position lineStart skip,
      (matchStarts boundary position lineStart skip text).IsChain (· < ·) ∧
      ∀ x ∈ matchStarts boundary position lineStart skip text,
        position ≤ x ∧ x < position + text.length := by
  induction text with
  | nil =>
    intro position lineStart skip
    simp [matchStarts]
  | cons c rest ih =>
    intro position lineStart skip
    have hlater : ∀ lineStart skip, ∀ x ∈ matchStarts boundary (position + 1) lineStart skip rest,
        position + 1 ≤ x ∧ x < position + (c :: rest).length := by
      intro lineStart skip x hx
      obtain ⟨hlow, hhigh⟩ := (ih (position + 1) lineStart skip).2 x hx
      rw [List.length_cons]
      omega
    have hweak : ∀ lineStart skip, ∀ x ∈ matchStarts boundary (position + 1) lineStart skip rest,
        position ≤ x ∧ x < position + (c :: rest).length := by
      intro lineStart skip x hx
      obtain ⟨hlow, hhigh⟩ := hlater lineStart skip x hx
      exact ⟨by omega, hhigh⟩
    cases skip with
    | succ skip => exact ⟨(ih _ _ _).1, hweak _ _⟩
    | zero =>
      unfold matchStarts
      split
      · rename_i length _
        have hhere : position < position + (c :: rest).length := by
          rw [List.length_cons]
          omega
        constructor
        · apply List.IsChain.cons (ih _ _ _).1
          intro y hy
          have hlow := (hlater _ _ y (List.mem_of_mem_head? hy)).1
          omega
        · intro x hx
          rcases List.mem_cons.mp hx with rfl | hx
          · exact ⟨Nat.le_refl _, hhere⟩
          · exact hweak _ _ x hx
      · exact ⟨(ih _ _ _).1, hweak _ _⟩

/-- Boundaries begin at 0, rise, and lie in the text. -/
structure Boundaries (length : Nat) (offsets : List Nat) : Prop where
  first : offsets.head? = some 0
  rising : offsets.IsChain (· ≤ ·)
  within : ∀ x ∈ offsets, x ≤ length

theorem findBoundaries_sound (content : Text) (boundary : Text → Option Nat) :
    Boundaries content.length (findBoundaries content boundary) := by
  obtain ⟨hsorted, hbounds⟩ := matchStarts_sorted boundary content 0 true 0
  have hrising : (matchStarts boundary 0 true 0 content).IsChain (· ≤ ·) :=
    hsorted.imp fun _ _ h => Nat.le_of_lt h
  have hwithin : ∀ x ∈ matchStarts boundary 0 true 0 content, x ≤ content.length := by
    intro x hx
    have hlast := (hbounds x hx).2
    omega
  unfold findBoundaries
  dsimp only
  split
  · rename_i hfirst
    exact ⟨hfirst, hrising, hwithin⟩
  · refine ⟨rfl, hrising.cons fun y hy => Nat.zero_le y, ?_⟩
    intro x hx
    rcases List.mem_cons.mp hx with rfl | hx
    · exact Nat.zero_le _
    · exact hwithin x hx

theorem boundaries_sound (content : Text) (contentType : ContentType) :
    Boundaries content.length (boundaries content contentType) := by
  have hone : Boundaries content.length [0] :=
    ⟨rfl, .singleton 0, fun x hx => by rw [List.mem_singleton.mp hx]; exact Nat.zero_le _⟩
  cases contentType with
  | document => exact findBoundaries_sound content headingBoundary
  | code => exact findBoundaries_sound content codeBoundary
  | chat | incident => exact hone

theorem slice_append {content : Text} {start stop : Nat} (h : start ≤ stop) :
    slice content start stop ++ content.drop stop = content.drop start := by
  have hdrop : content.drop stop = (content.drop start).drop (stop - start) := by
    rw [List.drop_drop]
    congr 1
    omega
  unfold slice
  rw [hdrop, List.take_append_drop]

/-- Sections without text are left out, and lose nothing. -/
theorem ink_sections (content : Text) :
    ∀ offsets : List Nat, offsets.IsChain (· ≤ ·) → (∀ x ∈ offsets, x ≤ content.length) →
      (sliceByBoundaries content offsets).flatMap (fun part => ink part.2) =
        ink (content.drop (offsets.head?.getD content.length)) := by
  intro offsets
  induction offsets with
  | nil => simp [sliceByBoundaries, ink]
  | cons start rest ih =>
    intro hrising hwithin
    have hrest := ih hrising.tail fun x hx => hwithin x (List.mem_cons_of_mem _ hx)
    have hle : start ≤ rest.head?.getD content.length := by
      cases rest with
      | nil => exact hwithin start List.mem_cons_self
      | cons next rest => exact (List.isChain_cons_cons.mp hrising).1
    have hsplit : ink (content.drop start) =
        ink (slice content start (rest.head?.getD content.length)) ++
          ink (content.drop (rest.head?.getD content.length)) := by
      rw [← ink_append, slice_append hle]
    rw [List.head?_cons, Option.getD_some, hsplit, ← hrest]
    rw [sliceByBoundaries]
    split
    · rw [List.flatMap_cons]
    · rename_i hblank
      rw [ink_of_blank (by simpa using hblank), List.nil_append]

/-! ## Chunks -/

theorem contents_chunkDocument (content : Text) (contentType : ContentType) (maxChars : Nat) :
    (chunkDocument content contentType maxChars).map Chunk.content =
      (pieces content contentType maxChars).map Prod.snd := by
  apply List.ext_getElem?
  intro i
  unfold chunkDocument
  rw [List.getElem?_map, List.getElem?_map, List.getElem?_mapIdx, Option.map_map]
  rfl

/-- Without white space the chunks are the text, and each is short enough. -/
theorem chunks_lossless (content : Text) (contentType : ContentType) {maxChars : Nat}
    (hmax : 1 ≤ maxChars) :
    ink (((chunkDocument content contentType maxChars).map Chunk.content).flatten) = ink content ∧
      ∀ chunk ∈ chunkDocument content contentType maxChars, chunk.content.length ≤ maxChars := by
  obtain ⟨hfirst, hrising, hwithin⟩ := boundaries_sound content contentType
  constructor
  · have hsections := ink_sections content _ hrising hwithin
    rw [hfirst, Option.getD_some, List.drop_zero] at hsections
    rw [contents_chunkDocument, ← hsections, ← List.flatMap_id, ink_flatMap, List.flatMap_map]
    unfold pieces
    rw [List.flatMap_assoc]
    apply List.flatMap_congr
    intro part _
    rw [List.flatMap_map]
    exact ink_splitOversized part.2 hmax
  · intro chunk hchunk
    have hcontent : chunk.content ∈ (pieces content contentType maxChars).map Prod.snd := by
      rw [← contents_chunkDocument]
      exact List.mem_map_of_mem hchunk
    obtain ⟨piece, hpiece, hsame⟩ := List.mem_map.mp hcontent
    obtain ⟨part, -, hcut⟩ := List.mem_flatMap.mp hpiece
    obtain ⟨cut, hsplit, rfl⟩ := List.mem_map.mp hcut
    have hlength : cut.2.length ≤ maxChars := length_splitOversized hsplit
    rw [← hsame]
    exact hlength

theorem chunks_lossless_slices :
    ink (((chunkDocument ['a', 'b', '\n', '\n', 'c'] .chat 1).map Chunk.content).flatten) =
      ['a', 'b', 'c'] ∧
    ∀ chunk ∈ chunkDocument ['a', 'b', '\n', '\n', 'c'] .chat 1, chunk.content.length ≤ 1 :=
  chunks_lossless ['a', 'b', '\n', '\n', 'c'] .chat (Nat.le_refl 1)

end Ekip.Ingestion.Chunking
