import Mathlib.Data.Finset.Card
import Ekip.Agents.Investigation.Review

/-!
# Evidence that is counted twice

Both checks of the critique count the citations of a list, and a list may name one
item of the evidence several times.
-/
namespace Ekip.Agents.Investigation

open Ekip.Lib Ekip.Shared Ekip.Core

/-- How many different items are cited. -/
def distinctCount (ids : List String) : Nat := ids.toFinset.card

/-- A note about two things that conflict. -/
structure Conflicting (knownEvidenceIds : List String) (note : ContradictionNote) : Prop where
  known : ∀ id ∈ note.evidenceIds, id ∈ knownEvidenceIds
  two : 2 ≤ distinctCount note.evidenceIds

/-- An entry with a detail that names one known reference, more than once, and no other. -/
def RepeatsOne (knownEvidenceIds : List String) (raw : JsonValue) : Prop :=
  ∃ entry rawIds detail, raw = .dict entry ∧ entry.lookup "evidence_ids" = some (.list rawIds) ∧
    entry.lookup "detail" = some (.str detail) ∧ isBlank detail = false ∧
    2 ≤ (realIds knownEvidenceIds rawIds).length ∧
    ∃ id, ∀ other ∈ realIds knownEvidenceIds rawIds, other = id

def entriesOf : JsonValue → List JsonValue
  | .list entries => entries
  | _ => []

section Contradictions

variable {knownEvidenceIds : List String} {raw : JsonValue} {note : ContradictionNote}

theorem distinctCount_lt_two {ids : List String} :
    distinctCount ids < 2 ↔ ∀ a ∈ ids, ∀ b ∈ ids, a = b := by
  have hone : distinctCount ids < 2 ↔ ids.toFinset.card ≤ 1 := Nat.lt_succ_iff
  rw [hone, Finset.card_le_one]
  simp only [List.mem_toFinset]

theorem filterContradiction_some (h : filterContradiction knownEvidenceIds raw = some note) :
    ∃ entry rawIds detail, raw = .dict entry ∧ entry.lookup "evidence_ids" = some (.list rawIds) ∧
      entry.lookup "detail" = some (.str detail) ∧ isBlank detail = false ∧
      2 ≤ (realIds knownEvidenceIds rawIds).length ∧
      note.evidenceIds = realIds knownEvidenceIds rawIds := by
  unfold filterContradiction at h
  split at h
  · rename_i entry
    split at h
    · rename_i rawIds detail hids hdetail
      dsimp only at h
      split at h
      · cases h
      · rename_i hkept
        obtain ⟨hblank, hlong⟩ := not_or.mp hkept
        obtain rfl := Option.some.inj h
        exact ⟨entry, rawIds, detail, rfl, hids, hdetail, Bool.eq_false_of_not_eq_true hblank,
          Nat.le_of_not_lt hlong, rfl⟩
    · cases h
  · cases h

/-- A kept note is about a conflict, exactly where no entry names a reference twice in
place of two. -/
theorem conflicting_iff (raw : JsonValue) (knownEvidenceIds : List String) :
    (∀ note ∈ filterContradictions raw knownEvidenceIds, Conflicting knownEvidenceIds note) ↔
      ∀ entry ∈ entriesOf raw, ¬ RepeatsOne knownEvidenceIds entry := by
  have hnotes : filterContradictions raw knownEvidenceIds =
      (entriesOf raw).filterMap (filterContradiction knownEvidenceIds) := by
    cases raw <;> rfl
  rw [hnotes]
  constructor
  · intro h entry hentry hrepeats
    obtain ⟨fields, rawIds, detail, rfl, hids, hdetail, hblank, hlong, id, hone⟩ := hrepeats
    have hkept : filterContradiction knownEvidenceIds (.dict fields) =
        some { evidenceIds := realIds knownEvidenceIds rawIds, detail := stripped detail } := by
      have hkeep : ¬ (isBlank detail = true ∨ (realIds knownEvidenceIds rawIds).length < 2) := by
        rw [hblank]
        rintro (hfalse | hshort)
        · cases hfalse
        · exact absurd hshort (Nat.not_lt.mpr hlong)
      simp only [filterContradiction, hids, hdetail, if_neg hkeep]
    have htwo := (h _ (List.mem_filterMap.mpr ⟨_, hentry, hkept⟩)).two
    have hfew : distinctCount (realIds knownEvidenceIds rawIds) < 2 := by
      refine distinctCount_lt_two.mpr ?_
      intro a ha b hb
      rw [hone a ha, hone b hb]
    exact absurd htwo (Nat.not_le.mpr hfew)
  · intro h note hnote
    obtain ⟨entry, hentry, hkept⟩ := List.mem_filterMap.mp hnote
    obtain ⟨fields, rawIds, detail, rfl, hids, hdetail, hblank, hlong, heq⟩ :=
      filterContradiction_some hkept
    constructor
    · rw [heq]
      intro id hid
      exact mem_realIds hid
    · by_contra hfew
      have hsame := distinctCount_lt_two.mp (Nat.not_le.mp hfew)
      rw [heq] at hsame
      obtain ⟨id, hid⟩ : ∃ id, id ∈ realIds knownEvidenceIds rawIds := by
        refine List.exists_mem_of_length_pos ?_
        omega
      exact h _ hentry ⟨fields, rawIds, detail, rfl, hids, hdetail, hblank, hlong, id,
        fun other hother => hsame other hother id hid⟩

end Contradictions

/-! ## Overconfidence -/

section Overconfidence

variable (settings : CritiqueSettings) (evidence : List EvidenceItem)

/-- Flagged where the confidence is high and the items that are cited are few. -/
def FlagsDistinct (hypotheses : List RootCauseHypothesis) : Prop :=
  ∀ index hypothesis, hypotheses[index]? = some hypothesis →
    (overconfidenceTag index ∈ validateStructurally settings hypotheses evidence ↔
      settings.overconfidenceThreshold ≤ hypothesis.confidence ∧
        distinctCount hypothesis.supportingEvidenceIds < settings.minEvidencePerHypothesis)

/-- A high confidence for which one item of the evidence is cited over again. -/
def PadsCitations (hypothesis : RootCauseHypothesis) : Prop :=
  settings.overconfidenceThreshold ≤ hypothesis.confidence ∧
    distinctCount hypothesis.supportingEvidenceIds < settings.minEvidencePerHypothesis ∧
      settings.minEvidencePerHypothesis ≤ hypothesis.supportingEvidenceIds.length

theorem distinctCount_le_length (ids : List String) : distinctCount ids ≤ ids.length :=
  List.toFinset_card_le ids

theorem flagged_iff {hypotheses : List RootCauseHypothesis} {index : Nat}
    {hypothesis : RootCauseHypothesis} (hget : hypotheses[index]? = some hypothesis) :
    overconfidenceTag index ∈ validateStructurally settings hypotheses evidence ↔
      settings.overconfidenceThreshold ≤ hypothesis.confidence ∧
        hypothesis.supportingEvidenceIds.length < settings.minEvidencePerHypothesis := by
  rw [tag_mem_validateStructurally, mem_overconfidentAt]
  constructor
  · rintro ⟨other, hother, hflagged⟩
    rw [hget] at hother
    obtain rfl := Option.some.inj hother
    exact of_decide_eq_true hflagged
  · intro h
    exact ⟨hypothesis, hget, decide_eq_true h⟩

theorem flagsDistinct_iff (hypotheses : List RootCauseHypothesis) :
    FlagsDistinct settings evidence hypotheses ↔
      ∀ hypothesis ∈ hypotheses, ¬ PadsCitations settings hypothesis := by
  constructor
  · intro h hypothesis hmem ⟨hhigh, hfew, hlong⟩
    obtain ⟨index, hget⟩ := List.mem_iff_getElem?.mp hmem
    have hflagged := (h index hypothesis hget).mpr ⟨hhigh, hfew⟩
    have hshort := ((flagged_iff settings evidence hget).mp hflagged).2
    exact absurd hshort (Nat.not_lt.mpr hlong)
  · intro h index hypothesis hget
    have hmem : hypothesis ∈ hypotheses := List.mem_iff_getElem?.mpr ⟨index, hget⟩
    rw [flagged_iff settings evidence hget]
    constructor
    · intro ⟨hhigh, hshort⟩
      exact ⟨hhigh, Nat.lt_of_le_of_lt (distinctCount_le_length _) hshort⟩
    · intro ⟨hhigh, hfew⟩
      refine ⟨hhigh, ?_⟩
      by_contra hlong
      exact h hypothesis hmem ⟨hhigh, hfew, Nat.not_lt.mp hlong⟩

end Overconfidence

/-- Both counts are of different items, exactly where no note and no hypothesis of the
answers makes up the count by repeating one. -/
theorem evidence_counted_once_iff (settings : CritiqueSettings) (evidence : List EvidenceItem)
    (contradictoryEvidence rawHypotheses : JsonValue) :
    ((∀ note ∈ filterContradictions contradictoryEvidence (references evidence),
        Conflicting (references evidence) note) ∧
      ∀ hypotheses, validateHypotheses rawHypotheses (references evidence) = .ok hypotheses →
        FlagsDistinct settings evidence hypotheses) ↔
    (∀ entry ∈ entriesOf contradictoryEvidence, ¬ RepeatsOne (references evidence) entry) ∧
      ∀ hypotheses, validateHypotheses rawHypotheses (references evidence) = .ok hypotheses →
        ∀ hypothesis ∈ hypotheses, ¬ PadsCitations settings hypothesis := by
  rw [conflicting_iff]
  simp only [flagsDistinct_iff]

/-- `["a", "a"]`, of evidence in which `a` is one item. -/
def oneTwice : JsonValue := .list [.str "a", .str "a"]

def evidenceOfOne : List EvidenceItem :=
  [{ source := .monitoring, reference := "a", summary := "", retrievedAt := 0 }]

/-- A conflict of one thing with itself is kept, and a hypothesis that cites one item
twice passes for one with two. -/
theorem one_item_counts_twice :
    filterContradictions (.list [.dict [("evidence_ids", oneTwice), ("detail", .str "differs")]])
      (references evidenceOfOne) = [{ evidenceIds := ["a", "a"], detail := "differs" }] ∧
    distinctCount ["a", "a"] < 2 ∧
    (validateHypotheses (.list [.dict [("description", .str "disk full"),
        ("confidence", .float (.finite (9 / 10))), ("supporting_evidence_ids", oneTwice)]])
      (references evidenceOfOne)).toOption.map (fun hypotheses =>
        (hypotheses.map RootCauseHypothesis.supportingEvidenceIds,
          validateStructurally { minEvidenceCount := 1 } hypotheses evidenceOfOne)) =
      some ([["a", "a"]], []) := by
  decide +kernel

end Ekip.Agents.Investigation
