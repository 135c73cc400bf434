import Mathlib
import Ekip.Core.Proactive.Book

/-!
# What the detectors find

A detector proposes at most one candidate for a pattern, counts exactly the
evidence that it attaches, and never proposes what its own type would refuse.
-/
namespace Ekip.Core.Proactive

open Ekip.Lib Ekip.Database Ekip.Core

/-- A fingerprint gives back what it was made of. -/
theorem fingerprint_inj {findingType findingType' : FindingType} {key key' : Uuid}
    (h : fingerprint findingType key = fingerprint findingType' key') :
    findingType = findingType' ∧ key = key' := by
  have hlists : (fingerprint findingType key).toList = (fingerprint findingType' key').toList := by
    rw [h]
  unfold fingerprint at hlists
  simp only [String.toList_append] at hlists
  have htype : findingType = findingType' := by
    cases findingType <;> cases findingType'
    · rfl
    · simp [FindingType.value] at hlists
    · simp [FindingType.value] at hlists
    · rfl
  subst htype
  have hkeys : (toString key).toList = (toString key').toList :=
    List.append_cancel_left hlists
  exact ⟨rfl, Nat.repr_injective (String.toList_inj.mp hkeys)⟩

structure Found (findingType : FindingType) (candidate : CandidateFinding) : Prop where
  ofType : candidate.findingType = findingType
  named : ∃ key, candidate.fingerprint = fingerprint findingType key
  support : candidate.supportCount = supportOf candidate.evidence
  valid : Valid (FindingType.spec findingType) candidate

theorem unknownRoles_eq_nil {spec : FindingSpec} {candidate : CandidateFinding}
    (h : ∀ item ∈ candidate.evidence, item.role ∈ spec.evidenceRoles) :
    unknownRoles spec candidate = [] := by
  have hnone : ((candidate.evidence.map CandidateEvidence.role).filter fun role =>
      role ∉ spec.evidenceRoles) = [] := by
    refine List.filter_eq_nil_iff.mpr fun role hrole => ?_
    obtain ⟨item, hitem, rfl⟩ := List.mem_map.mp hrole
    simpa using h item hitem
  unfold unknownRoles
  rw [hnone]
  rfl

/-- All items of one role count, or none does. -/
theorem supportOf_map {α : Type} (make : α → CandidateEvidence) {role : String} (items : List α)
    (hrole : ∀ item, (make item).role = role) :
    supportOf (items.map make) = if countsTowardSupport role then items.length else 0 := by
  unfold supportOf
  rw [List.countP_map]
  by_cases hcounts : countsTowardSupport role = true
  · rw [if_pos hcounts]
    refine List.countP_eq_length.mpr fun item _ => ?_
    show countsTowardSupport (make item).role = true
    rw [hrole, hcounts]
  · rw [if_neg hcounts]
    refine List.countP_eq_zero.mpr fun item _ => ?_
    show ¬ countsTowardSupport (make item).role = true
    rw [hrole]
    exact hcounts

theorem found_recurringCandidate {organizationId projectId : Uuid} {group : List Incident}
    (h : recurringSeverityMinSupport ≤ group.length) :
    Found .recurringIncidentSeverity (recurringCandidate organizationId projectId group) where
  ofType := rfl
  named := ⟨projectId, rfl⟩
  support := by
    have hcounts : countsTowardSupport "supporting_incident" = true := by decide
    have hsupport := supportOf_map (fun row : Incident =>
      { entityType := .incident, entityId := row.id, role := "supporting_incident" })
      (group.insertionSort fun a b => a.createdAt ≤ b.createdAt) fun _ => rfl
    rw [if_pos hcounts] at hsupport
    exact hsupport.symm
  valid :=
    { support := by
        show recurringSeverityMinSupport ≤ (group.insertionSort _).length
        rw [List.length_insertionSort]
        exact h
      roles := by
        refine unknownRoles_eq_nil fun item hitem => ?_
        obtain ⟨row, _, rfl⟩ := List.mem_map.mp hitem
        exact List.mem_singleton_self _ }

theorem found_multiDocumentCandidate {organizationId : Uuid} {incident : Incident}
    {documentIds : List Uuid} (h : multiDocumentMinSupport ≤ documentIds.length) :
    Found .incidentMultiDocument (multiDocumentCandidate organizationId incident documentIds) where
  ofType := rfl
  named := ⟨incident.id, rfl⟩
  support := by
    have hcounts : countsTowardSupport "supporting_document" = true := by decide
    have hanchor : countsTowardSupport "anchor_incident" = false := by decide
    have hsupport := supportOf_map (fun documentId : Uuid =>
      { entityType := .document, entityId := documentId, role := "supporting_document" })
      (documentIds.insertionSort (· ≤ ·)) fun _ => rfl
    rw [if_pos hcounts, List.length_insertionSort] at hsupport
    show documentIds.length = List.countP _ (_ :: _)
    rw [List.countP_cons_of_neg (by simp [hanchor])]
    exact hsupport.symm
  valid :=
    { support := h
      roles := by
        refine unknownRoles_eq_nil fun item hitem => ?_
        rcases List.mem_cons.mp hitem with rfl | hitem
        · exact List.mem_cons_self
        · obtain ⟨documentId, _, rfl⟩ := List.mem_map.mp hitem
          exact List.mem_cons_of_mem _ (List.mem_singleton_self _) }

theorem detector_found {now : Instant} {findingType : FindingType} {organizationId : Uuid}
    {db : ProactiveDb} {candidate : CandidateFinding}
    (h : candidate ∈ detector now findingType organizationId db) : Found findingType candidate := by
  cases findingType with
  | recurringIncidentSeverity =>
    obtain ⟨entry, hentry, rfl⟩ := List.mem_map.mp h
    have hlength := (List.mem_filter.mp hentry).2
    exact found_recurringCandidate (of_decide_eq_true hlength)
  | incidentMultiDocument =>
    obtain ⟨entry, hentry, hcandidate⟩ := List.mem_filterMap.mp h
    have hlength := (List.mem_filter.mp hentry).2
    obtain ⟨incident, _, rfl⟩ := Option.map_eq_some_iff.mp hcandidate
    exact found_multiDocumentCandidate (of_decide_eq_true hlength)

/-! ## One candidate for a pattern -/

section Distinct

variable {β : Type} {entries : List (Uuid × β)} {propose : Uuid × β → Option CandidateFinding}

/-- Candidates are as distinct as the keys they are proposed for. -/
theorem nodup_fingerprints (findingType : FindingType) (hkeys : (entries.map Prod.fst).Nodup)
    (hpropose : ∀ entry, ∀ candidate ∈ propose entry,
      candidate.fingerprint = fingerprint findingType entry.1) :
    ((entries.filterMap propose).map CandidateFinding.fingerprint).Nodup := by
  induction entries with
  | nil => exact List.nodup_nil
  | cons entry entries ih =>
    obtain ⟨hnew, hkeys'⟩ := List.nodup_cons.mp hkeys
    have htail := ih hkeys'
    rw [List.filterMap_cons]
    cases hentry : propose entry with
    | none => exact htail
    | some candidate =>
      refine List.nodup_cons.mpr ⟨fun hmem => hnew ?_, htail⟩
      obtain ⟨other, hother, heq⟩ := List.mem_map.mp hmem
      obtain ⟨entry', hentry', hother'⟩ := List.mem_filterMap.mp hother
      have hfp := hpropose entry candidate hentry
      have hfp' := hpropose entry' other hother'
      have hkey : entry'.1 = entry.1 :=
        (fingerprint_inj (hfp'.symm.trans (heq.trans hfp))).2
      exact List.mem_map.mpr ⟨entry', hentry', hkey⟩

/-- A dictionary has each key once, and so has what is selected from it. -/
theorem nodup_keys_filter {keys : List Uuid} (content : Uuid → β) (p : Uuid × β → Bool) :
    (((keys.dedup.map fun key => (key, content key)).filter p).map Prod.fst).Nodup := by
  have hall : ((keys.dedup.map fun key => (key, content key)).map Prod.fst).Nodup := by
    rw [List.map_map]
    exact (List.map_id keys.dedup).symm ▸ List.nodup_dedup keys
  exact hall.sublist (List.filter_sublist.map _)

end Distinct

theorem detector_distinct (now : Instant) (findingType : FindingType) (organizationId : Uuid)
    (db : ProactiveDb) :
    ((detector now findingType organizationId db).map CandidateFinding.fingerprint).Nodup := by
  cases findingType with
  | recurringIncidentSeverity =>
    simp only [detector, detectRecurringIncidentSeverity]
    rw [← List.filterMap_eq_map (f := fun entry : Uuid × List Incident =>
      recurringCandidate organizationId entry.1 entry.2)]
    refine nodup_fingerprints .recurringIncidentSeverity (nodup_keys_filter _ _)
      fun entry candidate hcandidate => ?_
    obtain rfl := Option.some.inj hcandidate
    rfl
  | incidentMultiDocument =>
    refine nodup_fingerprints .incidentMultiDocument (nodup_keys_filter _ _)
      fun entry candidate hcandidate => ?_
    obtain ⟨incident, hincident, rfl⟩ := Option.map_eq_some_iff.mp hcandidate
    have hfound := (Option.filter_eq_some_iff.mp hincident).1
    have hid := (Table.get?_some hfound).2
    show fingerprint .incidentMultiDocument incident.id = _
    rw [hid]

/-!
## A run of a detector as one operation on the book

The loops of `_run_one_detector` visit candidates and rows one by one. What they
leave of the book has a closed form: the entry of each candidate is reconciled,
every other entry of the detector's type is retired.
-/

/-- The entry of a pattern that no candidate supports any more. -/
def retired (now : Instant) (findingType : FindingType) (entry : Entry) : Entry :=
  if entry.row.findingType = findingType then
    { entry with row := Repository.deactivated now entry.row }
  else entry

/-- The candidate of a pattern. -/
def candidateFor (candidates : List CandidateFinding) (fingerprint : String) :
    Option CandidateFinding :=
  candidates.find? fun candidate => candidate.fingerprint = fingerprint

/-- After the first loop. -/
def Book.reconciledAll (newIds : NewIds) (now : Instant) (organizationId : Uuid)
    (candidates : List CandidateFinding) (b : Book) : Book := fun organizationId' fingerprint =>
  if organizationId' = organizationId then
    match candidateFor candidates fingerprint with
    | some candidate =>
      some (reconciled newIds now organizationId candidate (b organizationId fingerprint)).1
    | none => b organizationId fingerprint
  else b organizationId' fingerprint

/-- After both loops. -/
def Book.detected (newIds : NewIds) (now : Instant) (organizationId : Uuid)
    (findingType : FindingType) (candidates : List CandidateFinding) (b : Book) : Book :=
  fun organizationId' fingerprint =>
    if organizationId' = organizationId then
      match candidateFor candidates fingerprint with
      | some candidate =>
        some (reconciled newIds now organizationId candidate (b organizationId fingerprint)).1
      | none => (b organizationId fingerprint).map (retired now findingType)
    else b organizationId' fingerprint

section Candidates

variable {candidate : CandidateFinding} {candidates : List CandidateFinding} {fingerprint : String}

theorem candidateFor_some (h : candidateFor candidates fingerprint = some candidate) :
    candidate ∈ candidates ∧ candidate.fingerprint = fingerprint :=
  ⟨List.mem_of_find?_eq_some h, by simpa using List.find?_some h⟩

theorem candidateFor_none :
    candidateFor candidates fingerprint = none ↔
      ∀ candidate ∈ candidates, candidate.fingerprint ≠ fingerprint := by
  simp [candidateFor]

theorem candidateFor_cons : candidateFor (candidate :: candidates) fingerprint =
    if candidate.fingerprint = fingerprint then some candidate
    else candidateFor candidates fingerprint := by
  unfold candidateFor
  rw [List.find?_cons]
  by_cases h : candidate.fingerprint = fingerprint
  · simp [h]
  · simp [h]

theorem candidateFor_of_mem (hdistinct : (candidates.map CandidateFinding.fingerprint).Nodup)
    (h : candidate ∈ candidates) : candidateFor candidates candidate.fingerprint = some candidate := by
  have hunique := Table.keyUnique_of_nodup hdistinct
  exact Table.get?_of_mem hunique h

end Candidates

/-- What the second loop adds to the first. -/
theorem detected_eq {newIds : NewIds} {now : Instant} {organizationId : Uuid}
    {findingType : FindingType} {candidates : List CandidateFinding} {b : Book}
    (organizationId' : Uuid) (fingerprint : String) :
    b.detected newIds now organizationId findingType candidates organizationId' fingerprint =
      (b.reconciledAll newIds now organizationId candidates organizationId' fingerprint).map
        fun entry =>
          if organizationId' = organizationId ∧ candidateFor candidates fingerprint = none then
            retired now findingType entry
          else entry := by
  unfold Book.detected Book.reconciledAll
  by_cases horg : organizationId' = organizationId
  · rw [if_pos horg, if_pos horg]
    cases hfor : candidateFor candidates fingerprint with
    | some candidate => simp
    | none => simp [horg]
  · simp [horg]

/-! ## The two loops -/

section Loops

variable {db db' : ProactiveDb} {newIds : NewIds} {now : Instant} {organizationId : Uuid}
  {findingType : FindingType} {candidates : List CandidateFinding}

theorem reconcileCandidates_returns {spec : FindingSpec} {actions : List UpsertAction}
    (hkeyed : Keyed db) (hdistinct : (candidates.map CandidateFinding.fingerprint).Nodup)
    (h : (reconcileCandidates newIds now organizationId spec candidates).Returns db actions db') :
    Keyed db' ∧ SameSources db db' ∧
      (∀ candidate ∈ candidates, Valid spec candidate ∧ candidate.evidence.Nodup) ∧
      book db' = (book db).reconciledAll newIds now organizationId candidates := by
  induction candidates generalizing db actions with
  | nil =>
    simp only [reconcileCandidates, Service.pure_returns] at h
    obtain ⟨_, rfl⟩ := h
    refine ⟨hkeyed, .refl db, fun _ hmem => absurd hmem List.not_mem_nil, ?_⟩
    funext organizationId' fingerprint
    unfold Book.reconciledAll
    by_cases horg : organizationId' = organizationId
    · rw [if_pos horg, horg]
      rfl
    · rw [if_neg horg]
  | cons candidate candidates ih =>
    simp only [reconcileCandidates, Service.bind_returns, Service.pure_returns] at h
    obtain ⟨action, db₁, hfirst, actions', db₂, hrest, _, rfl⟩ := h
    obtain ⟨hkeyed₁, hsources₁, hvalid, hnodup, _, hbook₁⟩ :=
      reconcileCandidate_returns hkeyed hfirst
    obtain ⟨hnew, hdistinct'⟩ := List.nodup_cons.mp hdistinct
    obtain ⟨hkeyed₂, hsources₂, hall, hbook₂⟩ := ih hkeyed₁ hdistinct' hrest
    refine ⟨hkeyed₂, hsources₁.trans hsources₂, ?_, ?_⟩
    · intro other hother
      rcases List.mem_cons.mp hother with rfl | hother
      · exact ⟨hvalid, hnodup⟩
      · exact hall other hother
    · rw [hbook₂, hbook₁]
      funext organizationId' fingerprint
      unfold Book.reconciledAll
      by_cases horg : organizationId' = organizationId
      · rw [if_pos horg, if_pos horg, candidateFor_cons]
        by_cases hfp : candidate.fingerprint = fingerprint
        · -- the rest of the list has no candidate for this pattern
          have hnone : candidateFor candidates fingerprint = none := by
            refine candidateFor_none.mpr fun other hother heq => hnew ?_
            exact List.mem_map.mpr ⟨other, hother, heq.trans hfp.symm⟩
          rw [if_pos hfp, hnone]
          simp [Book.set, hfp]
        · have hset (entry : Entry) : (book db).set organizationId candidate.fingerprint entry
              organizationId fingerprint = book db organizationId fingerprint :=
            if_neg fun hboth => hfp hboth.2.symm
          rw [if_neg hfp, hset]
      · rw [if_neg horg, if_neg horg]
        exact if_neg fun hboth => horg hboth.1

/-- Which entries the second loop deactivates. -/
theorem deactivateUnseen_returns {seen : List String} {listed : List ProactiveFinding} {n : Nat}
    (hkeyed : Keyed db) (h : (deactivateUnseen now seen listed).Returns db n db') :
    Keyed db' ∧ SameSources db db' ∧ ∀ organizationId fingerprint,
      book db' organizationId fingerprint = (book db organizationId fingerprint).map fun entry =>
        if ∃ row ∈ listed, row.fingerprint ∉ seen ∧ row.id = entry.row.id then
          { entry with row := Repository.deactivated now entry.row }
        else entry := by
  induction listed generalizing db n with
  | nil =>
    simp only [deactivateUnseen, Service.pure_returns] at h
    obtain ⟨_, rfl⟩ := h
    refine ⟨hkeyed, .refl db, fun organizationId fingerprint => ?_⟩
    simp
  | cons existing rest ih =>
    by_cases hseen : existing.fingerprint ∈ seen
    · rw [deactivateUnseen, if_pos hseen] at h
      obtain ⟨hkeyed', hsources, hbook⟩ := ih hkeyed h
      refine ⟨hkeyed', hsources, fun organizationId fingerprint => ?_⟩
      rw [hbook]
      simp [hseen]
    · rw [deactivateUnseen, if_neg hseen] at h
      simp only [Repository.deactivateFinding, Service.bind_returns, Service.read_returns,
        Service.write_returns, Service.pure_returns] at h
      obtain ⟨_, _, ⟨_, _, ⟨rfl, rfl⟩, _, _, rfl, rfl, rfl⟩, _, _, hrest, _, rfl⟩ := h
      have hkeeps := keepsIdentity_deactivated now
      obtain ⟨hkeyed', hsources, hbook⟩ := ih (keyed_updateFinding hkeyed hkeeps) hrest
      refine ⟨hkeyed', ⟨hsources.incidents, hsources.documents, hsources.edges⟩,
        fun organizationId fingerprint => ?_⟩
      rw [hbook, book_updateFinding hkeeps, Option.map_map]
      congr 1
      funext entry
      have htwice : Repository.deactivated now (Repository.deactivated now entry.row) =
          Repository.deactivated now entry.row := by
        unfold Repository.deactivated
        by_cases hactive : entry.row.status = .active
        · simp [hactive]
        · simp [hactive]
      by_cases hid : entry.row.id = existing.id
      · simp [hid, hseen, hkeeps.id, htwice]
      · simp [hid, Ne.symm hid]

end Loops

/-! ## One detector -/

section Detector

variable {db db' : ProactiveDb} {newIds : NewIds} {now : Instant} {organizationId : Uuid}
  {outage : Outage} {findingType : FindingType} {result : ReconciliationResult}

/-- A detector that raises touches no finding. -/
theorem runOneDetector_of_outage {e : Exn} (houtage : outage findingType = some e)
    (h : (runOneDetector newIds now organizationId outage findingType).Returns db result db') :
    result = { findingType, organizationId, error := some e } ∧ db = db' := by
  rw [runOneDetector, houtage] at h
  obtain ⟨hresult, hdb⟩ := Service.pure_returns.mp h
  exact ⟨hresult.symm, hdb⟩

/-- The rows that the second loop deactivates, entry by entry. -/
theorem listed_iff {fingerprint : String} {entry : Entry} (hkeyed : Keyed db)
    (hentry : book db organizationId fingerprint = some entry) (organizationId' : Uuid)
    (findingType : FindingType) (seen : List String) :
    (∃ row ∈ Repository.listActiveFindingsByType organizationId' findingType db,
        row.fingerprint ∉ seen ∧ row.id = entry.row.id) ↔
      organizationId = organizationId' ∧ entry.row.findingType = findingType ∧
        entry.row.status = .active ∧ fingerprint ∉ seen := by
  obtain ⟨hmem, horg, hfp, _⟩ := book_some hentry
  constructor
  · rintro ⟨row, hrow, hunseen, hid⟩
    obtain ⟨hrow, hlisted⟩ := List.mem_filter.mp hrow
    obtain ⟨horg', htype, hactive⟩ := of_decide_eq_true hlisted
    obtain rfl := hkeyed.id row hrow entry.row hmem hid
    exact ⟨horg.symm.trans horg', htype, hactive, hfp ▸ hunseen⟩
  · rintro ⟨rfl, htype, hactive, hunseen⟩
    refine ⟨entry.row, List.mem_filter.mpr ⟨hmem, ?_⟩, hfp.symm ▸ hunseen, rfl⟩
    exact decide_eq_true ⟨horg, htype, hactive⟩

/-- A row that is not active stays as it is. -/
theorem deactivated_of_inactive {row : ProactiveFinding} (h : row.status ≠ .active) :
    Repository.deactivated now row = row :=
  if_neg h

theorem runOneDetector_of_detected (hkeyed : Keyed db) (houtage : outage findingType = none)
    (h : (runOneDetector newIds now organizationId outage findingType).Returns db result db') :
    result.findingType = findingType ∧ result.error = none ∧ Keyed db' ∧ SameSources db db' ∧
      (∀ candidate ∈ detector now findingType organizationId db, candidate.evidence.Nodup) ∧
      book db' = (book db).detected newIds now organizationId findingType
        (detector now findingType organizationId db) := by
  rw [runOneDetector, houtage] at h
  simp only [Service.bind_returns, Service.read_returns, Service.pure_returns] at h
  obtain ⟨_, _, ⟨rfl, rfl⟩, _, db₁, hfirst, _, _, ⟨rfl, rfl⟩, _, db₂, hsecond, rfl, rfl⟩ := h
  have hdistinct := detector_distinct now findingType organizationId db
  obtain ⟨hkeyed₁, hsources₁, hvalid, hbook₁⟩ :=
    reconcileCandidates_returns hkeyed hdistinct hfirst
  obtain ⟨hkeyed₂, hsources₂, hbook₂⟩ := deactivateUnseen_returns hkeyed₁ hsecond
  refine ⟨rfl, rfl, hkeyed₂, hsources₁.trans hsources₂,
    fun candidate hcandidate => (hvalid candidate hcandidate).2, ?_⟩
  funext organizationId' fingerprint
  rw [hbook₂, detected_eq, ← hbook₁]
  have hunseen : fingerprint ∉ (detector now findingType organizationId db).map
      CandidateFinding.fingerprint ↔
        candidateFor (detector now findingType organizationId db) fingerprint = none := by
    rw [candidateFor_none]
    simp
  cases hentry : book db₁ organizationId' fingerprint with
  | none => rfl
  | some entry =>
    have hlisted := listed_iff hkeyed₁ hentry organizationId findingType
      ((detector now findingType organizationId db).map CandidateFinding.fingerprint)
    rw [Option.map_some, Option.map_some]
    congr 1
    by_cases hother : organizationId' = organizationId ∧
        candidateFor (detector now findingType organizationId db) fingerprint = none
    · rw [if_pos hother]
      unfold retired
      by_cases htype : entry.row.findingType = findingType
      · rw [if_pos htype]
        by_cases hactive : entry.row.status = .active
        · rw [if_pos (hlisted.mpr ⟨hother.1, htype, hactive, hunseen.mpr hother.2⟩)]
        · rw [if_neg fun hrow => hactive (hlisted.mp hrow).2.2.1,
            deactivated_of_inactive hactive]
      · rw [if_neg htype, if_neg fun hrow => htype (hlisted.mp hrow).2.1]
    · rw [if_neg hother]
      refine if_neg fun hrow => hother ?_
      obtain ⟨horg, _, _, hnew⟩ := hlisted.mp hrow
      exact ⟨horg, hunseen.mp hnew⟩

end Detector

end Ekip.Core.Proactive
