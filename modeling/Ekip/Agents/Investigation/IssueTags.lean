import Mathlib.Data.List.Nodup
import Ekip.Agents.Investigation.Review

/-!
# Which hypothesis a tag names

The issues of an outcome are those of its passes: of the set that was given and, where
there is one, of the revised set. A tag names a hypothesis by its position in the set of
its own pass.
-/
namespace Ekip.Agents.Investigation

open Ekip.Lib Ekip.Shared

/-! ## Passes -/

structure Pass where
  hypotheses : List RootCauseHypothesis
  tags : List String

/-- Every tag names a hypothesis of the pass, and none is there twice. -/
structure Pass.WellTagged (pass : Pass) : Prop where
  unsupported : ∀ index, unsupportedClaimTag index ∈ pass.tags → index < pass.hypotheses.length
  overconfident : ∀ index, overconfidenceTag index ∈ pass.tags → index < pass.hypotheses.length
  nodup : pass.tags.Nodup

/-- What the model was shown are the positions below this count. -/
structure Numbered (semantic : SemanticCritiqueResult) (count : Nat) : Prop where
  shown : ∀ index ∈ semantic.unsupportedHypothesisIndices, index < count
  once : semantic.unsupportedHypothesisIndices.Nodup

variable (settings : CritiqueSettings) (evidence : List EvidenceItem)

def passTags (hypotheses : List RootCauseHypothesis) :
    Option SemanticCritiqueResult → List String
  | none => validateStructurally settings hypotheses evidence
  | some semantic => issueTags (validateStructurally settings hypotheses evidence) semantic

/-- What the critique of this name returned. -/
def critiqueOf (nodeName : String) (calls : List Call) : Option SemanticCritiqueResult :=
  calls.findSome? fun call => match call with
    | .critique name _ returned => if name = nodeName then returned else none
    | .draft .. => none

def revisionOf (calls : List Call) : Option Hypotheses :=
  calls.findSome? fun call => match call with
    | .critique .. => none
    | .draft _ returned => returned

/-- The sets that were reviewed, each with the tags it got. -/
def passes (given : Hypotheses) (calls : List Call) : List Pass :=
  if settings.enabled = false ∨ given.hypotheses = [] then []
  else
    { hypotheses := given.hypotheses
      tags := passTags settings evidence given.hypotheses (critiqueOf critiqueNode calls) } ::
    match revisionOf calls with
    | none => []
    | some revised =>
      if revised.hypotheses = [] then []
      else
        [{ hypotheses := revised.hypotheses
           tags := passTags settings evidence revised.hypotheses
             (critiqueOf critiqueRevisionNode calls) }]

/-- The one tag that is of no pass. -/
def emptiedTags (calls : List Call) : List String :=
  match revisionOf calls with
  | some revised =>
    if revised.hypotheses = [] then ["revision_produced_no_hypotheses"] else []
  | none => []

/-! ## Tags of a pass -/

section PassTags

variable {settings evidence} {hypotheses : List RootCauseHypothesis}
  {semantic : SemanticCritiqueResult}

theorem overconfidentAt_lt {index : Nat} (h : index ∈ overconfidentAt settings hypotheses) :
    index < hypotheses.length := by
  obtain ⟨hypothesis, hget, -⟩ := (mem_overconfidentAt settings).mp h
  exact (List.getElem?_eq_some_iff.mp hget).1

theorem overconfidentAt_nodup : (overconfidentAt settings hypotheses).Nodup := by
  unfold overconfidentAt
  have hindices : (hypotheses.zipIdx.map Prod.snd).Nodup := by
    rw [List.zipIdx_map_snd]
    exact List.nodup_range'
  exact hindices.sublist (List.Sublist.map Prod.snd List.filter_sublist)

/-- The kinds of tags differ in their first letter. -/
theorem unsupportedClaimTag_head (index : Nat) :
    (unsupportedClaimTag index).toList.head? = some 'u' := by
  unfold unsupportedClaimTag
  rw [String.toList_append]
  rfl

theorem overconfidenceTag_head (index : Nat) :
    (overconfidenceTag index).toList.head? = some 'o' := by
  unfold overconfidenceTag
  rw [String.toList_append]
  rfl

theorem head_of_structural {tag : String}
    (h : tag ∈ validateStructurally settings hypotheses evidence) :
    tag.toList.head? = some 'i' ∨ tag.toList.head? = some 'o' := by
  rw [validateStructurally_eq] at h
  rcases List.mem_append.mp h with hthin | htag
  · split at hthin
    · rw [List.mem_singleton.mp hthin]
      exact .inl rfl
    · exact absurd hthin List.not_mem_nil
  · obtain ⟨index, -, rfl⟩ := List.mem_map.mp htag
    exact .inr (overconfidenceTag_head index)

theorem unsupportedClaimTag_not_structural (index : Nat) :
    unsupportedClaimTag index ∉ validateStructurally settings hypotheses evidence := by
  intro hmem
  have hhead := unsupportedClaimTag_head index
  rcases head_of_structural hmem with h | h
  · rw [hhead] at h
    exact absurd h (by decide)
  · rw [hhead] at h
    exact absurd h (by decide)

theorem validateStructurally_nodup : (validateStructurally settings hypotheses evidence).Nodup := by
  rw [validateStructurally_eq]
  refine List.Nodup.append ?_ ?_ ?_
  · split
    · exact List.nodup_singleton _
    · exact List.nodup_nil
  · exact overconfidentAt_nodup.map_on fun _ _ _ _ heq => tag_injective heq
  · intro tag hthin htag
    obtain ⟨index, -, rfl⟩ := List.mem_map.mp htag
    have hhead := overconfidenceTag_head index
    split at hthin
    · rw [List.mem_singleton.mp hthin] at hhead
      exact absurd hhead (by decide)
    · exact absurd hthin List.not_mem_nil

theorem mem_issueTags {tag : String} {structuralIssues : List String} :
    tag ∈ issueTags structuralIssues semantic ↔ tag ∈ structuralIssues ∨
      (∃ index ∈ semantic.unsupportedHypothesisIndices, unsupportedClaimTag index = tag) ∨
      (semantic.contradictoryEvidence ≠ [] ∧ tag = "contradictory_evidence") := by
  unfold issueTags
  rw [List.mem_append, List.mem_append, List.mem_map, or_assoc]
  by_cases hnone : semantic.contradictoryEvidence = []
  · simp [hnone]
  · simp [hnone]

theorem unsupported_mem_issueTags {index : Nat} :
    unsupportedClaimTag index ∈ issueTags (validateStructurally settings hypotheses evidence)
      semantic ↔ index ∈ semantic.unsupportedHypothesisIndices := by
  have hhead := unsupportedClaimTag_head index
  rw [mem_issueTags]
  constructor
  · rintro (hstructural | ⟨other, hother, heq⟩ | ⟨-, heq⟩)
    · exact absurd hstructural (unsupportedClaimTag_not_structural index)
    · rw [← tag_injective heq]
      exact hother
    · rw [heq] at hhead
      exact absurd hhead (by decide)
  · intro hmem
    exact .inr (.inl ⟨index, hmem, rfl⟩)

theorem overconfident_mem_issueTags {index : Nat} :
    overconfidenceTag index ∈ issueTags (validateStructurally settings hypotheses evidence)
      semantic ↔ index ∈ overconfidentAt settings hypotheses := by
  have hhead := overconfidenceTag_head index
  rw [mem_issueTags, tag_mem_validateStructurally]
  constructor
  · rintro (hstructural | ⟨other, -, heq⟩ | ⟨-, heq⟩)
    · exact hstructural
    · rw [← heq, unsupportedClaimTag_head] at hhead
      exact absurd hhead (by decide)
    · rw [heq] at hhead
      exact absurd hhead (by decide)
  · intro hmem
    exact .inl hmem

theorem issueTags_nodup_iff :
    (issueTags (validateStructurally settings hypotheses evidence) semantic).Nodup ↔
      semantic.unsupportedHypothesisIndices.Nodup := by
  constructor
  · intro h
    have hclaims : (semantic.unsupportedHypothesisIndices.map unsupportedClaimTag).Nodup :=
      ((List.nodup_append.mp (List.nodup_append.mp h).1).2).1
    exact hclaims.of_map
  · intro h
    refine List.Nodup.append (List.Nodup.append validateStructurally_nodup ?_ ?_) ?_ ?_
    · exact h.map_on fun _ _ _ _ heq => tag_injective heq
    · intro tag hstructural hclaim
      obtain ⟨index, -, rfl⟩ := List.mem_map.mp hclaim
      exact unsupportedClaimTag_not_structural index hstructural
    · split
      · exact List.nodup_nil
      · exact List.nodup_singleton _
    · intro tag hearlier hlast
      have htag : tag = "contradictory_evidence" := by
        split at hlast
        · exact absurd hlast List.not_mem_nil
        · exact List.mem_singleton.mp hlast
      rcases List.mem_append.mp hearlier with hstructural | hclaim
      · rw [htag] at hstructural
        rcases head_of_structural hstructural with h | h
        · exact absurd h (by decide)
        · exact absurd h (by decide)
      · obtain ⟨index, -, heq⟩ := List.mem_map.mp hclaim
        have hhead := unsupportedClaimTag_head index
        rw [heq, htag] at hhead
        exact absurd hhead (by decide)

/-- The structural tags of a pass are in order; those of the model are if its numbers are. -/
theorem wellTagged_iff (returned : Option SemanticCritiqueResult) :
    Pass.WellTagged ⟨hypotheses, passTags settings evidence hypotheses returned⟩ ↔
      ∀ semantic, returned = some semantic → Numbered semantic hypotheses.length := by
  cases returned with
  | none =>
    constructor
    · intro _ semantic hsome
      cases hsome
    · intro _
      constructor
      · intro index hmem
        exact absurd hmem (unsupportedClaimTag_not_structural index)
      · intro index hmem
        exact overconfidentAt_lt ((tag_mem_validateStructurally settings).mp hmem)
      · exact validateStructurally_nodup
  | some semantic =>
    constructor
    · intro h other hsome
      obtain rfl := Option.some.inj hsome
      constructor
      · intro index hmem
        exact h.unsupported index (unsupported_mem_issueTags.mpr hmem)
      · exact issueTags_nodup_iff.mp h.nodup
    · intro h
      have hnumbered := h semantic rfl
      constructor
      · intro index hmem
        exact hnumbered.shown index (unsupported_mem_issueTags.mp hmem)
      · intro index hmem
        exact overconfidentAt_lt (overconfident_mem_issueTags.mp hmem)
      · exact issueTags_nodup_iff.mpr hnumbered.once

end PassTags

/-! ## Every run -/

section Runs

variable {settings evidence} {given : Hypotheses} {calls : List Call} {outcome : ReviewOutcome}

/-- A critique that answered numbers the set it was shown. -/
def AnswersNumbered : Call → Prop
  | .critique _ critiqued (some semantic) => Numbered semantic critiqued.length
  | .critique _ _ none | .draft .. => True

theorem not_skipped (henabled : settings.enabled = true) (hgiven : given.hypotheses ≠ []) :
    ¬ (settings.enabled = false ∨ given.hypotheses = []) := by
  rintro (hoff | hnone)
  · rw [henabled] at hoff
    cases hoff
  · exact hgiven hnone

/-- The issues of an outcome are the tags of its passes. -/
theorem Ends.issues (h : Ends settings evidence given calls outcome) :
    outcome.critiqueIssues.Perm
      ((passes settings evidence given calls).flatMap Pass.tags ++ emptiedTags calls) := by
  cases h with
  | notReviewed hskip =>
    rw [passes, if_pos hskip]
    exact .nil
  | reviewed henabled hgiven _ _ hend =>
    rw [passes, if_neg (not_skipped henabled hgiven)]
    cases hend with
    | thin | unavailable | rejected | accepted | unrevised =>
      simp [emptiedTags, revisionOf, critiqueOf, passTags, Investigation.rejected,
        Investigation.reviewFailed, Investigation.accepted]
    | revised semantic1 revised hwell calls _ hrevised =>
      cases hrevised with
      | emptied hempty =>
        simp [emptiedTags, revisionOf, critiqueOf, passTags, hempty, Investigation.rejected]
      | thin hne =>
        simp [emptiedTags, revisionOf, critiqueOf, passTags, hne, Investigation.rejected,
          critiqueNode, critiqueRevisionNode]
      | unavailable hne =>
        simp [emptiedTags, revisionOf, critiqueOf, passTags, hne, Investigation.reviewFailed,
          critiqueNode, critiqueRevisionNode]
      | rejected hne semantic2 | accepted hne semantic2 =>
        simp [emptiedTags, revisionOf, critiqueOf, passTags, hne, Investigation.rejected,
          Investigation.accepted, critiqueNode, critiqueRevisionNode]
        exact List.perm_append_comm

/-- The passes are well tagged exactly where the answers are well numbered. -/
theorem Ends.wellTagged_iff (h : Ends settings evidence given calls outcome) :
    (∀ pass ∈ passes settings evidence given calls, pass.WellTagged) ↔
      ∀ call ∈ calls, AnswersNumbered call := by
  cases h with
  | notReviewed hskip =>
    rw [passes, if_pos hskip]
    simp [AnswersNumbered]
  | reviewed henabled hgiven _ _ hend =>
    rw [passes, if_neg (not_skipped henabled hgiven)]
    cases hend with
    | thin | unavailable | rejected | accepted | unrevised =>
      simp [AnswersNumbered, revisionOf, critiqueOf, Investigation.wellTagged_iff]
    | revised semantic1 revised hwell calls _ hrevised =>
      cases hrevised with
      | emptied hempty =>
        simp [AnswersNumbered, revisionOf, critiqueOf, Investigation.wellTagged_iff, hempty]
      | thin hne | unavailable hne | rejected hne semantic2 | accepted hne semantic2 =>
        simp [AnswersNumbered, revisionOf, critiqueOf, Investigation.wellTagged_iff, hne,
          critiqueNode, critiqueRevisionNode]

end Runs

/-- In every run the tags name hypotheses of their own pass, and none is there twice,
exactly where every critique answers with positions it was shown, each once. -/
theorem tags_name_hypotheses_iff (settings : CritiqueSettings) (model : Model) (query : String)
    (evidence : List EvidenceItem) (given : Hypotheses) (talk : Talk) :
    ∃ outcome talk' calls,
      (reviewInvestigation settings model query evidence given).Returns talk outcome talk' ∧
        talk'.calls = talk.calls ++ calls ∧
        outcome.critiqueIssues.Perm
          ((passes settings evidence given calls).flatMap Pass.tags ++ emptiedTags calls) ∧
        ((∀ pass ∈ passes settings evidence given calls, pass.WellTagged) ↔
          ∀ call ∈ calls, AnswersNumbered call) := by
  obtain ⟨outcome, talk', calls, hrun, hend⟩ := reviewInvestigation_ends settings evidence model query
    given talk
  exact ⟨outcome, talk', calls, hrun.returns, hrun.recorded, hend.issues, hend.wellTagged_iff⟩

/-- It finds hypotheses unsupported that it was not shown. -/
def misnumberingModel : Model where
  ainvoke _ _ := .ok
    "\x7b\"verdict\": \"accept\", \"unsupported_hypothesis_indices\": [7, 7]\x7d".toList
  loads _ := .ok (.dict [("verdict", .str "accept"),
    ("unsupported_hypothesis_indices", .list [.int 7, .int 7])])
  isoformat _ := ""

/-- One hypothesis, and twice the tag of an eighth. -/
theorem eighth_of_one_tagged_twice :
    ((reviewInvestigation { minEvidenceCount := 0 } misnumberingModel "" []
        { hypotheses := [⟨"disk full", 1 / 2, ["a"]⟩]
          suggestedOwnerTeam := none
          suggestedNextSteps := [] } {}).1
      |>.toOption.map fun outcome => (outcome.hypotheses.length, outcome.critiqueIssues)) =
      some (1, ["unsupported_claim:hypothesis_7", "unsupported_claim:hypothesis_7"]) := by
  decide +kernel

end Ekip.Agents.Investigation
