import Ekip.Agents.Answer.Markers
import Ekip.Evaluation.Metrics

/-!
# The citations of an answer, checked

The excerpt of a content that is too long ends with three dots, which the check looks for
in the content like everything else.
-/
namespace Ekip.Evaluation

open Ekip.Lib Ekip.Shared Ekip.Agents.Answer

variable {ω : Type}

/-! ## An excerpt and its content -/

/-- The content is not cut, or what is cut from it stands in it with the dots. -/
def ExcerptFound (lower : Text → Text) (content : String) : Prop :=
  content.length ≤ excerptMaxChars ∨
    lower (Text.squeeze (content.toList.take excerptMaxChars ++ "...".toList)) <:+:
      normalizeText lower content

/-- The text has a marker with the number of the chunk. -/
def Cites (text : Text) (chunks : List (Retrieval.ScoredChunk ω)) (chunk : Retrieval.ScoredChunk ω) :
    Prop :=
  ∃ numbers, extractCitationMarkers text = .ok numbers ∧
    ∃ number ∈ numbers, cited chunks number = some chunk

section Excerpt

variable {lower : Text → Text} {chunk : Retrieval.ScoredChunk ω}

theorem excerpt_uncut (h : chunk.content.length ≤ excerptMaxChars) :
    (toCitation chunk).excerpt = chunk.content := by
  have hcut : ¬ excerptMaxChars < chunk.content.length := by omega
  have hall : chunk.content.toList.take excerptMaxChars = chunk.content.toList :=
    List.take_of_length_le h
  unfold toCitation
  dsimp only
  rw [if_neg hcut, hall, String.ofList_toList, String.append_empty]

theorem excerpt_cut (h : ¬ chunk.content.length ≤ excerptMaxChars) :
    (toCitation chunk).excerpt.toList =
      chunk.content.toList.take excerptMaxChars ++ "...".toList := by
  have hcut : excerptMaxChars < chunk.content.length := by omega
  unfold toCitation
  dsimp only
  rw [if_pos hcut, String.toList_append, String.toList_ofList]

/-- The check finds the excerpt exactly where the content is short or goes on with the dots. -/
theorem excerpt_infix : normalizeText lower (toCitation chunk).excerpt <:+:
    normalizeText lower chunk.content ↔ ExcerptFound lower chunk.content := by
  unfold ExcerptFound
  by_cases hshort : chunk.content.length ≤ excerptMaxChars
  · rw [excerpt_uncut hshort]
    exact ⟨fun _ => .inl hshort, fun _ => List.infix_rfl⟩
  · have hcut := @excerpt_cut _ chunk hshort
    constructor
    · intro hwithin
      unfold normalizeText at hwithin
      rw [hcut] at hwithin
      exact .inr hwithin
    · intro hfound
      unfold normalizeText
      rw [hcut]
      exact hfound.resolve_left hshort

end Excerpt

/-! ## All citations of an answer -/

section Answer

variable {text : Text} {chunks : List (Retrieval.ScoredChunk ω)} {citations : List Citation}

theorem mem_of_cited {number : Nat} {chunk : Retrieval.ScoredChunk ω}
    (h : cited chunks number = some chunk) : chunk ∈ chunks := by
  unfold cited at h
  split at h
  · cases h
  · exact List.mem_of_getElem? h

theorem mem_citations (hbuild : buildCitations text chunks = .ok citations) {citation : Citation} :
    citation ∈ citations ↔ ∃ chunk, Cites text chunks chunk ∧ toCitation chunk = citation := by
  obtain ⟨numbers, hnumbers, hcitations⟩ := Query.bind_ok.mp hbuild
  obtain rfl := Except.ok.inj hcitations
  simp only [List.mem_map, List.mem_filterMap, Cites]
  constructor
  · rintro ⟨chunk, ⟨number, hnumber, hcited⟩, rfl⟩
    exact ⟨chunk, ⟨numbers, hnumbers, number, hnumber, hcited⟩, rfl⟩
  · rintro ⟨chunk, ⟨others, hothers, number, hnumber, hcited⟩, rfl⟩
    obtain rfl := Except.ok.inj (hnumbers.symm.trans hothers)
    exact ⟨chunk, ⟨number, hnumber, hcited⟩, rfl⟩

theorem cited_mem {chunk : Retrieval.ScoredChunk ω} (h : Cites text chunks chunk) :
    chunk ∈ chunks := by
  obtain ⟨_, _, _, _, hcited⟩ := h
  exact mem_of_cited hcited

/-- An answer passes the check of its citations exactly when the check finds the excerpts of
all chunks that it cites. -/
theorem citations_pass_check (lower : Text → Text)
    (hids : (chunks.map Retrieval.ScoredChunk.chunkId).Nodup)
    (hbuild : buildCitations text chunks = .ok citations) (expectation : CitationExpectation)
    (hsupport : expectation.mustSupportAnswer = true) :
    let result := checkCitations lower citations (chunks.map Retrieval.ScoredChunk.chunkId)
      (chunkContents chunks) expectation
    result.unresolvedCitations = [] ∧ result.unsupportedCitations = [] ↔
      ∀ chunk, Cites text chunks chunk → ExcerptFound lower chunk.content := by
  have hcontent : ∀ chunk, Cites text chunks chunk → ((chunkContents chunks).lookup
      (toCitation chunk).chunkId).getD "" = chunk.content := by
    intro chunk hcites
    have hlookup := lookup_chunkContents hids (cited_mem hcites)
    show ((chunkContents chunks).lookup chunk.chunkId).getD "" = _
    rw [hlookup]
    rfl
  have hresolved : ∀ chunk, Cites text chunks chunk →
      (toCitation chunk).chunkId ∈ chunks.map Retrieval.ScoredChunk.chunkId := fun chunk hcites =>
    List.mem_map_of_mem (cited_mem hcites)
  simp only [checkCitations, List.map_eq_nil_iff, List.filter_eq_nil_iff]
  constructor
  · rintro ⟨-, hfound⟩ chunk hcites
    have hcitation := hfound _ ((mem_citations hbuild).mpr ⟨chunk, hcites, rfl⟩)
    rw [hcontent chunk hcites] at hcitation
    have hmember := hresolved chunk hcites
    rw [← excerpt_infix]
    by_contra hnot
    exact hcitation (by simp [hmember, hsupport, hnot])
  · intro hall
    constructor
    · intro citation hcitation
      obtain ⟨chunk, hcites, rfl⟩ := (mem_citations hbuild).mp hcitation
      have hmember := hresolved chunk hcites
      simpa using hmember
    · intro citation hcitation
      obtain ⟨chunk, hcites, rfl⟩ := (mem_citations hbuild).mp hcitation
      have hwithin := excerpt_infix.mpr (hall chunk hcites)
      rw [hcontent chunk hcites]
      simp [hwithin]

end Answer

/-! ## A content that is cut -/

def chunkOf (content : String) : Retrieval.ScoredChunk Unit :=
  { chunkId := 1
    documentId := 2
    collection := .documentation
    content
    score := ()
    sourceOffsetStart := 0
    sourceOffsetEnd := content.length }

theorem extract_first : extractCitationMarkers "[1]".toList = .ok [1] := by decide +kernel

theorem cites_only {content : String} {chunk : Retrieval.ScoredChunk Unit}
    (h : Cites "[1]".toList [chunkOf content] chunk) : chunk = chunkOf content := by
  obtain rfl := List.mem_singleton.mp (cited_mem h)
  rfl

theorem citations_pass_check_short :
    let result := checkCitations Text.lower [toCitation (chunkOf "Restart")] [1]
      (chunkContents [chunkOf "Restart"]) {}
    result.unresolvedCitations = [] ∧ result.unsupportedCitations = [] := by
  have hbuild : buildCitations "[1]".toList [chunkOf "Restart"] = .ok [toCitation (chunkOf "Restart")] := by
    unfold buildCitations
    rw [extract_first]
    rfl
  refine (citations_pass_check Text.lower (by decide) hbuild {} rfl).mpr ?_
  intro chunk hcites
  rw [cites_only hcites]
  exact .inl (by decide)

def longContent : String := String.ofList (List.replicate 301 'a')

/-- The dots are nowhere in the content. -/
theorem longContent_not_found : ¬ ExcerptFound Text.lower longContent := by
  have hlist : longContent.toList = List.replicate 301 'a' := String.toList_ofList
  unfold ExcerptFound normalizeText
  rw [← String.length_toList, hlist]
  rintro (hshort | hwithin)
  · rw [List.length_replicate] at hshort
    exact absurd hshort (by decide)
  · have hdot : '.' ∈ Text.lower
        (Text.squeeze ((List.replicate 301 'a').take excerptMaxChars ++ "...".toList)) := by
      decide +kernel
    have hnone : '.' ∉ Text.lower (Text.squeeze (List.replicate 301 'a')) := by decide +kernel
    exact hnone (hwithin.subset hdot)

theorem cut_excerpt_unsupported : ∃ citations,
    buildCitations "[1]".toList [chunkOf longContent] = .ok citations ∧
      (checkCitations Text.lower citations [1] (chunkContents [chunkOf longContent])
        {}).unsupportedCitations ≠ [] := by
  refine ⟨[toCitation (chunkOf longContent)], ?_, ?_⟩
  · unfold buildCitations
    rw [extract_first]
    rfl
  · have hlookup : (chunkContents [chunkOf longContent]).lookup
        (toCitation (chunkOf longContent)).chunkId = some longContent :=
      @lookup_chunkContents _ _ (chunkOf longContent) (by decide) List.mem_cons_self
    have hnot : ¬ normalizeText Text.lower (toCitation (chunkOf longContent)).excerpt <:+:
        normalizeText Text.lower longContent := mt excerpt_infix.mp longContent_not_found
    intro hnone
    simp only [checkCitations, List.map_eq_nil_iff, List.filter_eq_nil_iff] at hnone
    refine hnone _ List.mem_cons_self ?_
    have hid : (toCitation (chunkOf longContent)).chunkId = 1 := rfl
    rw [hlookup]
    simp [hid, hnot]

end Ekip.Evaluation
