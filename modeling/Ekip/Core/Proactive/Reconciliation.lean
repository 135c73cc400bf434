import Ekip.Core.Proactive.Detection
import Ekip.Core.Proactive.Removal

/-!
# What detection runs keep, and what they settle

First what holds of one entry through each kind of write, then of the book
through a run of several detectors. A run leaves the types whose detectors
succeeded settled, and a settled type makes the next run a repetition.
-/
namespace Ekip.Core.Proactive

open Ekip.Lib Ekip.Database Ekip.Core

/-! ## What an entry keeps -/

/-- The fingerprint says of what type the finding is. -/
def Named (fingerprint : String) (entry : Entry) : Prop :=
  ∃ key, fingerprint = Proactive.fingerprint entry.row.findingType key

/-- The support of an active entry is what its evidence says, and enough. -/
structure Sound (fingerprint : String) (entry : Entry) : Prop where
  named : Named fingerprint entry
  supported : entry.row.status = .active → entry.row.supportCount = supportOf entry.evidence ∧
    (FindingType.spec entry.row.findingType).minimumSupport ≤ entry.row.supportCount

/-- The entry says what the candidate says. -/
structure Current (candidate : CandidateFinding) (entry : Entry) : Prop where
  active : entry.row.status = .active
  title : entry.row.title = candidate.title
  summary : entry.row.summary = candidate.summary
  supportCount : entry.row.supportCount = candidate.supportCount
  evidence : entry.evidence = candidate.evidence

/-- What no operation changes of a row. -/
structure SameFinding (row row' : ProactiveFinding) : Prop where
  id : row'.id = row.id
  organizationId : row'.organizationId = row.organizationId
  fingerprint : row'.fingerprint = row.fingerprint
  findingType : row'.findingType = row.findingType
  firstSeenAt : row'.firstSeenAt = row.firstSeenAt

theorem SameFinding.refl (row : ProactiveFinding) : SameFinding row row :=
  ⟨rfl, rfl, rfl, rfl, rfl⟩

theorem SameFinding.trans {row row' row'' : ProactiveFinding} (h : SameFinding row row')
    (h' : SameFinding row' row'') : SameFinding row row'' :=
  ⟨h'.id.trans h.id, h'.organizationId.trans h.organizationId, h'.fingerprint.trans h.fingerprint,
    h'.findingType.trans h.findingType, h'.firstSeenAt.trans h.firstSeenAt⟩

theorem KeepsIdentity.sameFinding {change : ProactiveFinding → ProactiveFinding}
    (h : KeepsIdentity change) (row : ProactiveFinding) : SameFinding row (change row) :=
  ⟨h.id row, h.organizationId row, h.fingerprint row, h.findingType row, h.firstSeenAt row⟩

theorem Named.of_same {fingerprint : String} {entry entry' : Entry} (h : Named fingerprint entry)
    (hsame : SameFinding entry.row entry'.row) : Named fingerprint entry' := by
  unfold Named
  rw [hsame.findingType]
  exact h

section Entries

variable {newIds : NewIds} {now : Instant} {organizationId : Uuid} {findingType : FindingType}
  {candidate : CandidateFinding} {entry : Entry}

theorem reconciled_current (held : Option Entry) :
    Current candidate (reconciled newIds now organizationId candidate held).1 := by
  cases held with
  | none => exact ⟨rfl, rfl, rfl, rfl, rfl⟩
  | some entry =>
    unfold reconciled Repository.rewrittenFinding
    by_cases hsame : entry.row.status = .active ∧ entry.row.title = candidate.values.title ∧
        entry.row.summary = candidate.values.summary ∧
        entry.row.supportCount = candidate.values.supportCount
    · simp only [if_pos hsame]
      exact ⟨hsame.1, hsame.2.1, hsame.2.2.1, hsame.2.2.2, rfl⟩
    · simp only [if_neg hsame]
      exact ⟨rfl, rfl, rfl, rfl, rfl⟩

theorem rewrittenFinding_of_current (h : Current candidate entry) :
    Repository.rewrittenFinding entry.row candidate.values now = (entry.row, .unchanged) := by
  unfold Repository.rewrittenFinding
  exact if_pos ⟨h.active, h.title, h.summary, h.supportCount⟩

theorem reconciled_sameFinding (entry : Entry) :
    SameFinding entry.row (reconciled newIds now organizationId candidate (some entry)).1.row :=
  (keepsIdentity_rewritten candidate.values now).sameFinding entry.row

theorem retired_sameFinding (entry : Entry) :
    SameFinding entry.row (retired now findingType entry).row := by
  unfold retired
  split
  · exact (keepsIdentity_deactivated now).sameFinding entry.row
  · exact .refl _

theorem recomputed_sameFinding (entry : Entry) :
    SameFinding entry.row (recomputed now entry).row := by
  unfold recomputed
  split
  · exact (keepsIdentity_deactivated now).sameFinding entry.row
  · split
    · exact (keepsIdentity_support _ now).sameFinding entry.row
    · exact .refl _

/-- The type of the entry under a candidate's fingerprint. -/
theorem reconciled_findingType (newIds : NewIds) (now : Instant) (organizationId : Uuid)
    (hfound : Found findingType candidate) {held : Option Entry}
    (hheld : ∀ entry ∈ held, Named candidate.fingerprint entry) :
    (reconciled newIds now organizationId candidate held).1.row.findingType = findingType := by
  cases held with
  | none => exact hfound.ofType
  | some entry =>
    obtain ⟨key, hkey⟩ := hfound.named
    obtain ⟨key', hkey'⟩ := hheld entry rfl
    have htype := (fingerprint_inj (hkey'.symm.trans hkey)).1
    exact (reconciled_sameFinding entry).findingType.trans htype

theorem named_of_found (hfound : Found findingType candidate)
    (htype : entry.row.findingType = findingType) : Named candidate.fingerprint entry := by
  unfold Named
  rw [htype]
  exact hfound.named

theorem sound_of_current (hfound : Found findingType candidate)
    (htype : entry.row.findingType = findingType) (h : Current candidate entry) :
    Sound candidate.fingerprint entry where
  named := named_of_found hfound htype
  supported _ := by
    rw [h.supportCount, h.evidence, htype]
    exact ⟨hfound.support, hfound.valid.support⟩

theorem deactivated_not_active (now : Instant) (row : ProactiveFinding) :
    (Repository.deactivated now row).status ≠ .active := by
  unfold Repository.deactivated
  by_cases hactive : row.status = .active
  · rw [if_pos hactive]
    exact nofun
  · rw [if_neg hactive]
    exact hactive

theorem sound_retired {fingerprint : String} (h : Sound fingerprint entry) :
    Sound fingerprint (retired now findingType entry) := by
  refine ⟨h.named.of_same (retired_sameFinding entry), ?_⟩
  unfold retired
  by_cases htype : entry.row.findingType = findingType
  · rw [if_pos htype]
    exact fun hactive => absurd hactive (deactivated_not_active now entry.row)
  · rw [if_neg htype]
    exact h.supported

/-- A recomputed entry has the support of its evidence, if it still is active. -/
theorem sound_recomputed {fingerprint : String} (hnamed : Named fingerprint entry) :
    Sound fingerprint (recomputed now entry) := by
  refine ⟨hnamed.of_same (recomputed_sameFinding entry), ?_⟩
  rw [(recomputed_sameFinding entry).findingType, recomputed_evidence]
  unfold recomputed
  by_cases hbelow : supportOf entry.evidence <
      (FindingType.spec entry.row.findingType).minimumSupport
  · rw [if_pos hbelow]
    exact fun hactive => absurd hactive (deactivated_not_active now entry.row)
  · rw [if_neg hbelow]
    by_cases hcount : entry.row.supportCount ≠ supportOf entry.evidence
    · rw [if_pos hcount]
      exact fun _ => ⟨rfl, Nat.le_of_not_lt hbelow⟩
    · rw [if_neg hcount]
      have hsame : entry.row.supportCount = supportOf entry.evidence := not_not.mp hcount
      exact fun _ => ⟨hsame, by rw [hsame]; exact Nat.le_of_not_lt hbelow⟩

/-- It is active if it was, and the evidence is enough. -/
theorem recomputed_active_iff :
    (recomputed now entry).row.status = .active ↔ entry.row.status = .active ∧
      (FindingType.spec entry.row.findingType).minimumSupport ≤ supportOf entry.evidence := by
  unfold recomputed
  by_cases hbelow : supportOf entry.evidence <
      (FindingType.spec entry.row.findingType).minimumSupport
  · rw [if_pos hbelow]
    have hnot := deactivated_not_active now entry.row
    constructor
    · exact fun hactive => absurd hactive hnot
    · exact fun hboth => absurd hboth.2 (Nat.not_le_of_lt hbelow)
  · rw [if_neg hbelow]
    have henough := Nat.le_of_not_lt hbelow
    by_cases hcount : entry.row.supportCount ≠ supportOf entry.evidence
    · rw [if_pos hcount]
      exact ⟨fun hactive => ⟨hactive, henough⟩, fun hboth => hboth.1⟩
    · rw [if_neg hcount]
      exact ⟨fun hactive => ⟨hactive, henough⟩, fun hboth => hboth.1⟩

theorem supportOf_strike (entityType : EvidenceEntityType) (entityId : Uuid)
    (evidence : List CandidateEvidence) :
    supportOf (strike entityType entityId evidence) ≤ supportOf evidence :=
  List.filter_sublist.countP_le

end Entries

/-! ## What the book keeps -/

def Book.Named (b : Book) : Prop :=
  ∀ organizationId fingerprint entry, b organizationId fingerprint = some entry →
    Proactive.Named fingerprint entry

def Book.Sound (b : Book) : Prop :=
  ∀ organizationId fingerprint entry, b organizationId fingerprint = some entry →
    Proactive.Sound fingerprint entry

theorem Book.Sound.named {b : Book} (h : b.Sound) : b.Named :=
  fun organizationId fingerprint entry hentry => (h organizationId fingerprint entry hentry).named

/-- Every finding is still there, as the same finding. -/
def Continues (b b' : Book) : Prop :=
  ∀ organizationId fingerprint entry, b organizationId fingerprint = some entry →
    ∃ entry', b' organizationId fingerprint = some entry' ∧ SameFinding entry.row entry'.row

theorem Continues.refl (b : Book) : Continues b b :=
  fun _ _ entry h => ⟨entry, h, .refl _⟩

theorem Continues.trans {b b' b'' : Book} (h : Continues b b') (h' : Continues b' b'') :
    Continues b b'' := by
  intro organizationId fingerprint entry hentry
  obtain ⟨entry', hentry', hsame⟩ := h _ _ _ hentry
  obtain ⟨entry'', hentry'', hsame'⟩ := h' _ _ _ hentry'
  exact ⟨entry'', hentry'', hsame.trans hsame'⟩

/-- The book holds what a detector proposes, and nothing else of its type is
active. -/
structure Settled (b : Book) (organizationId : Uuid) (findingType : FindingType)
    (candidates : List CandidateFinding) : Prop where
  current : ∀ candidate ∈ candidates, ∃ entry,
    b organizationId candidate.fingerprint = some entry ∧ entry.row.findingType = findingType ∧
      Current candidate entry
  quiet : ∀ fingerprint entry, b organizationId fingerprint = some entry →
    entry.row.findingType = findingType → entry.row.status = .active →
      candidateFor candidates fingerprint ≠ none

section Detected

variable {newIds : NewIds} {now : Instant} {organizationId organizationId' : Uuid}
  {findingType findingType' : FindingType} {candidates candidates' : List CandidateFinding}
  {fingerprint : String} {entry : Entry} {b : Book}

theorem detected_of_candidate {candidate : CandidateFinding}
    (hfor : candidateFor candidates fingerprint = some candidate) :
    b.detected newIds now organizationId findingType candidates organizationId fingerprint =
      some (reconciled newIds now organizationId candidate (b organizationId fingerprint)).1 := by
  unfold Book.detected
  rw [if_pos rfl, hfor]

theorem detected_of_none (hfor : candidateFor candidates fingerprint = none) :
    b.detected newIds now organizationId findingType candidates organizationId fingerprint =
      (b organizationId fingerprint).map (retired now findingType) := by
  unfold Book.detected
  rw [if_pos rfl, hfor]

theorem detected_elsewhere (h : organizationId' ≠ organizationId) :
    b.detected newIds now organizationId findingType candidates organizationId' fingerprint =
      b organizationId' fingerprint :=
  if_neg h

theorem detected_findingType (hb : b.Named)
    (hfound : ∀ candidate ∈ candidates, Found findingType candidate) {candidate : CandidateFinding}
    (hfor : candidateFor candidates fingerprint = some candidate)
    (hentry : b.detected newIds now organizationId findingType candidates organizationId
      fingerprint = some entry) :
    fingerprint = candidate.fingerprint ∧ Found findingType candidate ∧
      entry.row.findingType = findingType ∧ Current candidate entry := by
  rw [detected_of_candidate hfor] at hentry
  obtain rfl := Option.some.inj hentry
  obtain ⟨hmem, rfl⟩ := candidateFor_some hfor
  have hcandidate := hfound candidate hmem
  exact ⟨rfl, hcandidate,
    reconciled_findingType newIds now organizationId hcandidate (hb organizationId _),
    reconciled_current _⟩

theorem named_detected (hb : b.Named)
    (hfound : ∀ candidate ∈ candidates, Found findingType candidate) :
    (b.detected newIds now organizationId findingType candidates).Named := by
  intro organizationId' fingerprint entry hentry
  by_cases horg : organizationId' = organizationId
  · subst horg
    cases hfor : candidateFor candidates fingerprint with
    | some candidate =>
      obtain ⟨rfl, hcandidate, htype, _⟩ := detected_findingType hb hfound hfor hentry
      exact named_of_found hcandidate htype
    | none =>
      rw [detected_of_none hfor] at hentry
      obtain ⟨old, hold, rfl⟩ := Option.map_eq_some_iff.mp hentry
      exact (hb _ _ _ hold).of_same (retired_sameFinding old)
  · rw [detected_elsewhere horg] at hentry
    exact hb _ _ _ hentry

theorem sound_detected (hb : b.Sound) (hfound : ∀ candidate ∈ candidates, Found findingType candidate) :
    (b.detected newIds now organizationId findingType candidates).Sound := by
  intro organizationId' fingerprint entry hentry
  by_cases horg : organizationId' = organizationId
  · subst horg
    cases hfor : candidateFor candidates fingerprint with
    | some candidate =>
      obtain ⟨rfl, hcandidate, htype, hcurrent⟩ :=
        detected_findingType hb.named hfound hfor hentry
      exact sound_of_current hcandidate htype hcurrent
    | none =>
      rw [detected_of_none hfor] at hentry
      obtain ⟨old, hold, rfl⟩ := Option.map_eq_some_iff.mp hentry
      exact sound_retired (hb _ _ _ hold)
  · rw [detected_elsewhere horg] at hentry
    exact hb _ _ _ hentry

theorem continues_detected :
    Continues b (b.detected newIds now organizationId findingType candidates) := by
  intro organizationId' fingerprint entry hentry
  by_cases horg : organizationId' = organizationId
  · subst horg
    cases hfor : candidateFor candidates fingerprint with
    | some candidate =>
      rw [detected_of_candidate hfor, hentry]
      exact ⟨_, rfl, reconciled_sameFinding entry⟩
    | none =>
      rw [detected_of_none hfor, hentry]
      exact ⟨_, rfl, retired_sameFinding entry⟩
  · rw [detected_elsewhere horg]
    exact ⟨entry, hentry, .refl _⟩

/-- A detector leaves the findings of other types alone. -/
theorem detected_otherType (hfound : ∀ candidate ∈ candidates, Found findingType candidate)
    (hnamed : Named fingerprint entry) (hentry : b organizationId' fingerprint = some entry)
    (htype : entry.row.findingType ≠ findingType) :
    b.detected newIds now organizationId findingType candidates organizationId' fingerprint =
      some entry := by
  by_cases horg : organizationId' = organizationId
  · subst horg
    cases hfor : candidateFor candidates fingerprint with
    | some candidate =>
      obtain ⟨hmem, rfl⟩ := candidateFor_some hfor
      obtain ⟨key, hkey⟩ := (hfound candidate hmem).named
      obtain ⟨key', hkey'⟩ := hnamed
      exact absurd (fingerprint_inj (hkey'.symm.trans hkey)).1 htype
    | none =>
      rw [detected_of_none hfor, hentry, Option.map_some]
      unfold retired
      rw [if_neg htype]
  · rw [detected_elsewhere horg, hentry]

theorem of_detected_otherType (hfound : ∀ candidate ∈ candidates, Found findingType candidate)
    (hb : b.Named) (htype : entry.row.findingType ≠ findingType)
    (hentry : b.detected newIds now organizationId findingType candidates organizationId'
      fingerprint = some entry) :
    b organizationId' fingerprint = some entry := by
  by_cases horg : organizationId' = organizationId
  · subst horg
    cases hfor : candidateFor candidates fingerprint with
    | some candidate =>
      obtain ⟨_, _, hof, _⟩ := detected_findingType hb hfound hfor hentry
      exact absurd hof htype
    | none =>
      rw [detected_of_none hfor] at hentry
      obtain ⟨old, hold, rfl⟩ := Option.map_eq_some_iff.mp hentry
      have hof : old.row.findingType ≠ findingType := by
        rw [← (retired_sameFinding old).findingType]
        exact htype
      unfold retired
      rw [if_neg hof]
      exact hold
  · rw [detected_elsewhere horg] at hentry
    exact hentry

theorem settled_detected (hb : b.Named)
    (hfound : ∀ candidate ∈ candidates, Found findingType candidate)
    (hdistinct : (candidates.map CandidateFinding.fingerprint).Nodup) :
    Settled (b.detected newIds now organizationId findingType candidates) organizationId
      findingType candidates where
  current candidate hmem := by
    refine ⟨_, detected_of_candidate (candidateFor_of_mem hdistinct hmem), ?_,
      reconciled_current _⟩
    exact reconciled_findingType newIds now organizationId (hfound candidate hmem) (hb _ _)
  quiet fingerprint entry hentry htype hactive hnone := by
    rw [detected_of_none hnone] at hentry
    obtain ⟨old, _, rfl⟩ := Option.map_eq_some_iff.mp hentry
    have hold : old.row.findingType = findingType :=
      (retired_sameFinding old).findingType.symm.trans htype
    unfold retired at hactive
    rw [if_pos hold] at hactive
    exact deactivated_not_active now old.row hactive

theorem settled_detected_other (hne : findingType ≠ findingType') (hb : b.Named)
    (hfound' : ∀ candidate ∈ candidates', Found findingType' candidate)
    (h : Settled b organizationId findingType candidates) :
    Settled (b.detected newIds now organizationId' findingType' candidates') organizationId
      findingType candidates where
  current candidate hmem := by
    obtain ⟨entry, hentry, htype, hcurrent⟩ := h.current candidate hmem
    have hother : entry.row.findingType ≠ findingType' := by
      rw [htype]
      exact hne
    exact ⟨entry, detected_otherType hfound' (hb _ _ _ hentry) hentry hother, htype, hcurrent⟩
  quiet fingerprint entry hentry htype hactive := by
    have hother : entry.row.findingType ≠ findingType' := by
      rw [htype]
      exact hne
    exact h.quiet fingerprint entry (of_detected_otherType hfound' hb hother hentry) htype hactive

end Detected

/-! ## A run of several detectors -/

def Book.detectedAll (newIds : NewIds) (now : Instant) (organizationId : Uuid)
    (candidates : FindingType → List CandidateFinding) (types : List FindingType) (b : Book) : Book :=
  types.foldl (fun b findingType =>
    b.detected newIds now organizationId findingType (candidates findingType)) b

/-- The candidates are those of detectors. -/
structure Proposed (candidates : FindingType → List CandidateFinding) : Prop where
  found : ∀ findingType, ∀ candidate ∈ candidates findingType, Found findingType candidate
  distinct : ∀ findingType,
    ((candidates findingType).map CandidateFinding.fingerprint).Nodup

theorem proposed_detector (now : Instant) (organizationId : Uuid) (db : ProactiveDb) :
    Proposed fun findingType => detector now findingType organizationId db where
  found _ _ h := detector_found h
  distinct findingType := detector_distinct now findingType organizationId db

section DetectedAll

variable {newIds : NewIds} {now : Instant} {organizationId : Uuid}
  {candidates : FindingType → List CandidateFinding} {types : List FindingType} {b : Book}

theorem named_detectedAll (hproposed : Proposed candidates) (hb : b.Named) :
    (b.detectedAll newIds now organizationId candidates types).Named := by
  induction types generalizing b with
  | nil => exact hb
  | cons findingType types ih => exact ih (named_detected hb (hproposed.found findingType))

theorem sound_detectedAll (hproposed : Proposed candidates) (hb : b.Sound) :
    (b.detectedAll newIds now organizationId candidates types).Sound := by
  induction types generalizing b with
  | nil => exact hb
  | cons findingType types ih => exact ih (sound_detected hb (hproposed.found findingType))

theorem continues_detectedAll :
    Continues b (b.detectedAll newIds now organizationId candidates types) := by
  induction types generalizing b with
  | nil => exact .refl b
  | cons findingType types ih => exact continues_detected.trans ih

theorem detectedAll_elsewhere {organizationId' : Uuid} (h : organizationId' ≠ organizationId)
    (fingerprint : String) :
    b.detectedAll newIds now organizationId candidates types organizationId' fingerprint =
      b organizationId' fingerprint := by
  induction types generalizing b with
  | nil => rfl
  | cons findingType types ih => exact ih.trans (detected_elsewhere h)

theorem detectedAll_otherType (hproposed : Proposed candidates) {organizationId' : Uuid}
    {fingerprint : String} {entry : Entry} (hnamed : Named fingerprint entry)
    (hentry : b organizationId' fingerprint = some entry) (htype : entry.row.findingType ∉ types) :
    b.detectedAll newIds now organizationId candidates types organizationId' fingerprint =
      some entry := by
  induction types generalizing b with
  | nil => exact hentry
  | cons findingType types ih =>
    obtain ⟨hne, hrest⟩ := not_or.mp fun h => htype (List.mem_cons.mpr h)
    exact ih (detected_otherType (hproposed.found findingType) hnamed hentry hne) hrest

/-- What one detector settled, the later ones leave settled. -/
theorem settled_detectedAll_of_settled (hproposed : Proposed candidates) (hb : b.Named)
    {findingType : FindingType}
    (h : Settled b organizationId findingType (candidates findingType)) :
    Settled (b.detectedAll newIds now organizationId candidates types) organizationId findingType
      (candidates findingType) := by
  induction types generalizing b with
  | nil => exact h
  | cons first types ih =>
    have hnamed : (b.detected newIds now organizationId first (candidates first)).Named :=
      named_detected hb (hproposed.found first)
    by_cases hfirst : findingType = first
    · subst hfirst
      exact ih hnamed (settled_detected hb (hproposed.found _) (hproposed.distinct _))
    · exact ih hnamed (settled_detected_other hfirst hb (hproposed.found first) h)

theorem settled_detectedAll (hproposed : Proposed candidates) (hb : b.Named)
    {findingType : FindingType} (hmem : findingType ∈ types) :
    Settled (b.detectedAll newIds now organizationId candidates types) organizationId findingType
      (candidates findingType) := by
  induction types generalizing b with
  | nil => cases hmem
  | cons first types ih =>
    have hnamed : (b.detected newIds now organizationId first (candidates first)).Named :=
      named_detected hb (hproposed.found first)
    rcases List.mem_cons.mp hmem with rfl | hrest
    · apply settled_detectedAll_of_settled hproposed hnamed
      exact settled_detected hb (hproposed.found findingType) (hproposed.distinct findingType)
    · exact ih hnamed hrest

end DetectedAll

/-- The types whose detectors did not raise. -/
def succeeded (results : List ReconciliationResult) : List FindingType :=
  (results.filter fun result => result.error = none).map ReconciliationResult.findingType

section Runs

variable {db db' : ProactiveDb} {newIds : NewIds} {now : Instant} {organizationId : Uuid}
  {outage : Outage}

theorem detector_of_sources (h : SameSources db db') (now : Instant) (findingType : FindingType) :
    detector now findingType organizationId db' = detector now findingType organizationId db := by
  cases findingType with
  | recurringIncidentSeverity =>
    show detectRecurringIncidentSeverity now organizationId db' = _
    unfold detectRecurringIncidentSeverity Repository.listIncidentsBySeveritySince
    rw [h.incidents]
    rfl
  | incidentMultiDocument =>
    show detectIncidentMultiDocument organizationId db' = _
    unfold detectIncidentMultiDocument Repository.listActiveEdgesByRelationshipType
      Repository.getIncidentById
    rw [h.incidents, h.edges]
    rfl

theorem runDetectors_returns {names : List String} {results : List ReconciliationResult}
    (hkeyed : Keyed db)
    (h : (runDetectors newIds now organizationId outage names).Returns db results db') :
    Keyed db' ∧ SameSources db db' ∧
      (∀ findingType ∈ succeeded results, ∀ candidate ∈ detector now findingType organizationId db,
        candidate.evidence.Nodup) ∧
      (∀ name ∈ names, ∃ spec, getFindingSpec name = .ok spec ∧
        (outage spec.findingType = none → spec.findingType ∈ succeeded results)) ∧
      book db' = (book db).detectedAll newIds now organizationId
        (fun findingType => detector now findingType organizationId db) (succeeded results) := by
  induction names generalizing db results with
  | nil =>
    simp only [runDetectors, Service.pure_returns] at h
    obtain ⟨rfl, rfl⟩ := h
    exact ⟨hkeyed, .refl db, fun _ hmem => absurd hmem List.not_mem_nil,
      fun _ hmem => absurd hmem List.not_mem_nil, rfl⟩
  | cons name names ih =>
    simp only [runDetectors, Service.bind_returns, Service.ofExcept_returns,
      Service.pure_returns] at h
    obtain ⟨spec, _, ⟨hspec, rfl⟩, result, db₁, hfirst, results', db₂, hrest, rfl, rfl⟩ := h
    cases houtage : outage spec.findingType with
    | some e =>
      obtain ⟨rfl, rfl⟩ := runOneDetector_of_outage houtage hfirst
      obtain ⟨hkeyed', hsources, hnodup, hnames, hbook⟩ := ih hkeyed hrest
      refine ⟨hkeyed', hsources, hnodup, fun other hother => ?_, hbook⟩
      rcases List.mem_cons.mp hother with rfl | hother
      · refine ⟨spec, hspec, fun hnone => ?_⟩
        rw [houtage] at hnone
        cases hnone
      · exact hnames other hother
    | none =>
      obtain ⟨htype, herror, hkeyed₁, hsources₁, hnodup₁, hbook₁⟩ :=
        runOneDetector_of_detected hkeyed houtage hfirst
      obtain ⟨hkeyed', hsources, hnodup, hnames, hbook⟩ := ih hkeyed₁ hrest
      have hsucceeded : succeeded (result :: results') = spec.findingType :: succeeded results' := by
        unfold succeeded
        rw [List.filter_cons_of_pos (by simp [herror]), List.map_cons, htype]
      have hsame : (fun findingType => detector now findingType organizationId db₁) =
          fun findingType => detector now findingType organizationId db := by
        funext findingType
        exact detector_of_sources hsources₁ now findingType
      rw [hsucceeded]
      refine ⟨hkeyed', hsources₁.trans hsources, ?_, fun other hother => ?_, ?_⟩
      · intro findingType hmem candidate hcandidate
        rcases List.mem_cons.mp hmem with rfl | hmem
        · exact hnodup₁ candidate hcandidate
        · rw [← detector_of_sources hsources₁ now findingType] at hcandidate
          exact hnodup findingType hmem candidate hcandidate
      · rcases List.mem_cons.mp hother with rfl | hother
        · exact ⟨spec, hspec, fun _ => List.mem_cons_self⟩
        · obtain ⟨spec', hspec', hmem⟩ := hnames other hother
          exact ⟨spec', hspec', fun hnone => List.mem_cons_of_mem _ (hmem hnone)⟩
      · rw [hbook, hsame, hbook₁]
        rfl

end Runs

/-! ## Running again -/

/-- The same findings, each with the same evidence. -/
structure SameFindings (db db' : ProactiveDb) : Prop where
  rows : db'.proactiveFindings = db.proactiveFindings
  evidence : ∀ findingId, evidenceOf db' findingId = evidenceOf db findingId
  sources : SameSources db db'

namespace SameFindings

variable {db db' db'' : ProactiveDb}

theorem refl (db : ProactiveDb) : SameFindings db db := ⟨rfl, fun _ => rfl, .refl db⟩

theorem trans (h : SameFindings db db') (h' : SameFindings db' db'') : SameFindings db db'' :=
  ⟨h'.rows.trans h.rows, fun findingId => (h'.evidence findingId).trans (h.evidence findingId),
    h.sources.trans h'.sources⟩

theorem book (h : SameFindings db db') : book db' = book db := by
  funext organizationId fingerprint
  unfold Proactive.book Repository.getFindingByFingerprint
  rw [h.rows]
  congr 1
  funext row
  rw [h.evidence]

theorem keyed (h : SameFindings db db') (hkeyed : Keyed db) : Keyed db' := by
  constructor
  · rw [h.rows]
    exact hkeyed.ids
  · rw [h.rows]
    exact hkeyed.identities

end SameFindings

section Again

variable {db : ProactiveDb} {organizationId : Uuid} (newIds : NewIds) (now : Instant)

theorem replaceEvidence_of_nodup (findingId : Uuid) {evidence : List CandidateEvidence}
    (h : evidence.Nodup) :
    ∃ db', (Repository.replaceEvidence findingId evidence).Returns db () db' := by
  refine ⟨_, Service.bind_returns.mpr ⟨(), db, ?_, Service.write_returns.mpr rfl⟩⟩
  exact Service.raiseIf_returns.mpr ⟨by simp [h], rfl⟩

/-- A candidate whose entry is current changes nothing. -/
theorem reconcileCandidate_of_current {spec : FindingSpec} {candidate : CandidateFinding}
    {entry : Entry} (hkeyed : Keyed db) (hvalid : Valid spec candidate)
    (hnodup : candidate.evidence.Nodup)
    (hentry : book db organizationId candidate.fingerprint = some entry)
    (hcurrent : Current candidate entry) :
    ∃ db', (reconcileCandidate newIds now organizationId spec candidate).Returns db .unchanged db' ∧
      SameFindings db db' := by
  obtain ⟨existing, hfound, hof⟩ := Option.map_eq_some_iff.mp hentry
  obtain rfl : existing = entry.row := congrArg Entry.row hof
  obtain ⟨hmem, _, _, hevidence⟩ := book_some hentry
  have hsame : Repository.updateFinding entry.row.id
      (fun row => (Repository.rewrittenFinding row candidate.values now).1) db = db := by
    unfold Repository.updateFinding
    rw [Table.updateWhere_of_fixed fun row hrow hid => ?_]
    obtain rfl := hkeyed.id row hrow entry.row hmem (of_decide_eq_true hid)
    rw [rewrittenFinding_of_current hcurrent]
  have hupsert : (Repository.upsertFinding (newIds candidate.fingerprint) organizationId
      candidate.values now).Returns db (entry.row, .unchanged) db := by
    refine (upsertFinding_of_existing hfound).mpr ⟨?_, hsame.symm⟩
    exact (rewrittenFinding_of_current hcurrent).symm
  obtain ⟨db', hreplace⟩ := replaceEvidence_of_nodup entry.row.id hnodup
  refine ⟨db', ?_, ?_⟩
  · simp only [reconcileCandidate, Service.bind_returns, Service.pure_returns]
    exact ⟨(), db, validateCandidate_returns.mpr ⟨hvalid, rfl⟩, _, db, hupsert, (), db', hreplace,
      rfl, rfl⟩
  · have hstate := (replaceEvidence_returns hreplace).2
    constructor
    · rw [hstate]
    · intro findingId
      rw [evidenceOf_replace hreplace]
      by_cases hid : findingId = entry.row.id
      · rw [if_pos hid, hid, ← hevidence, hcurrent.evidence]
      · rw [if_neg hid]
    · rw [hstate]
      exact ⟨rfl, rfl, rfl⟩

theorem reconcileCandidates_of_current {spec : FindingSpec} {candidates : List CandidateFinding}
    (hkeyed : Keyed db)
    (hall : ∀ candidate ∈ candidates, Valid spec candidate ∧ candidate.evidence.Nodup ∧
      ∃ entry, book db organizationId candidate.fingerprint = some entry ∧ Current candidate entry) :
    ∃ db', (reconcileCandidates newIds now organizationId spec candidates).Returns db
        (List.replicate candidates.length .unchanged) db' ∧ SameFindings db db' := by
  induction candidates generalizing db with
  | nil => exact ⟨db, Service.pure_returns.mpr ⟨rfl, rfl⟩, .refl db⟩
  | cons candidate candidates ih =>
    obtain ⟨hvalid, hnodup, entry, hentry, hcurrent⟩ := hall candidate List.mem_cons_self
    obtain ⟨db₁, hfirst, hsame₁⟩ := reconcileCandidate_of_current newIds now hkeyed hvalid
      hnodup hentry hcurrent
    have hrest : ∀ other ∈ candidates, Valid spec other ∧ other.evidence.Nodup ∧
        ∃ entry, book db₁ organizationId other.fingerprint = some entry ∧ Current other entry := by
      intro other hother
      rw [hsame₁.book]
      exact hall other (List.mem_cons_of_mem _ hother)
    obtain ⟨db₂, hsecond, hsame₂⟩ := ih (hsame₁.keyed hkeyed) hrest
    refine ⟨db₂, ?_, hsame₁.trans hsame₂⟩
    simp only [reconcileCandidates, Service.bind_returns, Service.pure_returns]
    exact ⟨_, db₁, hfirst, _, db₂, hsecond, rfl, rfl⟩

theorem deactivateUnseen_of_seen {seen : List String} {listed : List ProactiveFinding}
    (h : ∀ row ∈ listed, row.fingerprint ∈ seen) :
    (deactivateUnseen now seen listed).Returns db 0 db := by
  induction listed with
  | nil => exact Service.pure_returns.mpr ⟨rfl, rfl⟩
  | cons row listed ih =>
    rw [deactivateUnseen, if_pos (h row List.mem_cons_self)]
    exact ih fun other hother => h other (List.mem_cons_of_mem _ hother)

/-- What a run reports that found nothing to do. -/
structure Quiet (result : ReconciliationResult) : Prop where
  created : result.createdCount = 0
  updated : result.updatedCount = 0
  reactivated : result.reactivatedCount = 0
  deactivated : result.deactivatedCount = 0
  unchanged : result.error = none → result.unchangedCount = result.candidateCount

theorem count_unchanged {action : UpsertAction} (h : action ≠ .unchanged) (n : Nat) :
    (List.replicate n UpsertAction.unchanged).count action = 0 :=
  List.count_eq_zero.mpr fun hmem => h (List.eq_of_mem_replicate hmem)

theorem runOneDetector_of_settled {outage : Outage} {findingType : FindingType} (hkeyed : Keyed db)
    (hsettled : outage findingType = none →
      Settled (book db) organizationId findingType (detector now findingType organizationId db) ∧
      ∀ candidate ∈ detector now findingType organizationId db, candidate.evidence.Nodup) :
    ∃ result db', (runOneDetector newIds now organizationId outage findingType).Returns db result db' ∧
      SameFindings db db' ∧ Quiet result := by
  cases houtage : outage findingType with
  | some e =>
    refine ⟨{ findingType, organizationId, error := some e }, db, ?_, .refl db, ?_⟩
    · rw [runOneDetector, houtage]
      exact Service.pure_returns.mpr ⟨rfl, rfl⟩
    · refine ⟨rfl, rfl, rfl, rfl, fun hnone => ?_⟩
      cases hnone
  | none =>
    obtain ⟨hsettled, hnodup⟩ := hsettled houtage
    have hall : ∀ candidate ∈ detector now findingType organizationId db,
        Valid (FindingType.spec findingType) candidate ∧ candidate.evidence.Nodup ∧
          ∃ entry, book db organizationId candidate.fingerprint = some entry ∧
            Current candidate entry := by
      intro candidate hcandidate
      obtain ⟨entry, hentry, _, hcurrent⟩ := hsettled.current candidate hcandidate
      exact ⟨(detector_found hcandidate).valid, hnodup candidate hcandidate, entry, hentry, hcurrent⟩
    obtain ⟨db', hfirst, hsame⟩ := reconcileCandidates_of_current newIds now hkeyed hall
    have hseen : ∀ row ∈ Repository.listActiveFindingsByType organizationId findingType db',
        row.fingerprint ∈ (detector now findingType organizationId db).map
          CandidateFinding.fingerprint := by
      intro row hrow
      obtain ⟨hmem, hlisted⟩ := List.mem_filter.mp hrow
      obtain ⟨horg, htype, hactive⟩ := of_decide_eq_true hlisted
      rw [hsame.rows] at hmem
      have hentry := book_of_mem hkeyed hmem
      rw [horg] at hentry
      obtain ⟨candidate, hfor⟩ := Option.ne_none_iff_exists'.mp
        (hsettled.quiet row.fingerprint _ hentry htype hactive)
      obtain ⟨hcandidate, hfp⟩ := candidateFor_some hfor
      exact List.mem_map.mpr ⟨candidate, hcandidate, hfp⟩
    have hsecond : (deactivateUnseen now _ _).Returns db' 0 db' :=
      deactivateUnseen_of_seen now hseen
    let actions := List.replicate (detector now findingType organizationId db).length
      UpsertAction.unchanged
    refine ⟨{ findingType
              organizationId
              candidateCount := (detector now findingType organizationId db).length
              createdCount := actions.count .created
              updatedCount := actions.count .updated
              reactivatedCount := actions.count .reactivated
              unchangedCount := actions.count .unchanged }, db', ?_, hsame, ?_⟩
    · rw [runOneDetector, houtage]
      simp only [Service.bind_returns, Service.read_returns, Service.pure_returns]
      exact ⟨_, db, ⟨rfl, rfl⟩, _, db', hfirst, _, db', ⟨rfl, rfl⟩, 0, db', hsecond, rfl, rfl⟩
    · constructor
      · exact count_unchanged (by decide) _
      · exact count_unchanged (by decide) _
      · exact count_unchanged (by decide) _
      · rfl
      · exact fun _ => List.count_replicate_self

theorem runDetectors_of_settled {outage : Outage} {names : List String} (hkeyed : Keyed db)
    (hsettled : ∀ name ∈ names, ∃ spec, getFindingSpec name = .ok spec ∧
      (outage spec.findingType = none →
        Settled (book db) organizationId spec.findingType
          (detector now spec.findingType organizationId db) ∧
        ∀ candidate ∈ detector now spec.findingType organizationId db, candidate.evidence.Nodup)) :
    ∃ results db', (runDetectors newIds now organizationId outage names).Returns db results db' ∧
      SameFindings db db' ∧ ∀ result ∈ results, Quiet result := by
  induction names generalizing db with
  | nil =>
    exact ⟨[], db, Service.pure_returns.mpr ⟨rfl, rfl⟩, .refl db,
      fun _ hmem => absurd hmem List.not_mem_nil⟩
  | cons name names ih =>
    obtain ⟨spec, hspec, hthis⟩ := hsettled name List.mem_cons_self
    obtain ⟨result, db₁, hfirst, hsame₁, hquiet⟩ := runOneDetector_of_settled newIds now hkeyed hthis
    have hrest : ∀ other ∈ names, ∃ spec, getFindingSpec other = .ok spec ∧
        (outage spec.findingType = none →
          Settled (book db₁) organizationId spec.findingType
            (detector now spec.findingType organizationId db₁) ∧
          ∀ candidate ∈ detector now spec.findingType organizationId db₁,
            candidate.evidence.Nodup) := by
      intro other hother
      obtain ⟨spec', hspec', hother'⟩ := hsettled other (List.mem_cons_of_mem _ hother)
      refine ⟨spec', hspec', fun hnone => ?_⟩
      rw [hsame₁.book, detector_of_sources hsame₁.sources]
      exact hother' hnone
    obtain ⟨results, db₂, hsecond, hsame₂, hquiets⟩ := ih (hsame₁.keyed hkeyed) hrest
    refine ⟨result :: results, db₂, ?_, hsame₁.trans hsame₂, ?_⟩
    · simp only [runDetectors, Service.bind_returns, Service.ofExcept_returns,
        Service.pure_returns]
      exact ⟨spec, db, ⟨hspec, rfl⟩, result, db₁, hfirst, results, db₂, hsecond, rfl, rfl⟩
    · intro other hother
      rcases List.mem_cons.mp hother with rfl | hother
      · exact hquiet
      · exact hquiets other hother

/-- A run leaves settled what it covers, so that the same run again is quiet. -/
theorem runDetectors_again {newIds' : NewIds} {outage outage' : Outage} {names : List String}
    {results : List ReconciliationResult} {db' : ProactiveDb} (hkeyed : Keyed db)
    (hnamed : (book db).Named)
    (h : (runDetectors newIds now organizationId outage names).Returns db results db')
    (houtage : ∀ findingType, outage findingType ≠ none → outage' findingType ≠ none) :
    ∃ again db'', (runDetectors newIds' now organizationId outage' names).Returns db' again db'' ∧
      SameFindings db' db'' ∧ ∀ result ∈ again, Quiet result := by
  obtain ⟨hkeyed', hsources, hnodup, hnames, hbook⟩ := runDetectors_returns hkeyed h
  refine runDetectors_of_settled newIds' now hkeyed' fun name hname => ?_
  obtain ⟨spec, hspec, hsucceeded⟩ := hnames name hname
  refine ⟨spec, hspec, fun hnone => ?_⟩
  have hran : outage spec.findingType = none := by
    by_contra hraised
    exact houtage spec.findingType hraised hnone
  rw [hbook, detector_of_sources hsources]
  exact ⟨settled_detectedAll (proposed_detector now organizationId db) hnamed (hsucceeded hran),
    hnodup spec.findingType (hsucceeded hran)⟩

end Again

end Ekip.Core.Proactive
