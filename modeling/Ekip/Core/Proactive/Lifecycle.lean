import Ekip.Core.Proactive.Reconciliation
import Ekip.Lib.Run

/-!
# Findings stay in step with their evidence

Detection runs and removals follow each other in any order, while the sources
change in between. A run and a removal are each one transaction. The world also
remembers what the last successful run of each detector proposed, less the
evidence that removals took away since.
-/
namespace Ekip.Core.Proactive

open Ekip.Lib Ekip.Database

structure World where
  db : ProactiveDb
  latest : Uuid → FindingType → List CandidateFinding

def World.start : World := { db := {}, latest := fun _ _ => [] }

inductive Operation
  | runDetection (organizationId : Uuid) (requested : Option (List String)) (now : Instant)
      (outage : Outage) (newIds : NewIds)
  | evidenceEntityRemoved (organizationId : Uuid) (entityType : EvidenceEntityType)
      (entityId : Uuid) (now : Instant)
  | sourcesChange (incidents : List Incident) (documents : List Document)
      (edges : List KnowledgeGraphEdge)

/-- A candidate without the evidence that was removed. -/
def CandidateFinding.struck (entityType : EvidenceEntityType) (entityId : Uuid)
    (candidate : CandidateFinding) : CandidateFinding :=
  { candidate with evidence := strike entityType entityId candidate.evidence }

def World.afterDetection (world : World) (now : Instant) (organizationId : Uuid)
    (results : List ReconciliationResult) (db : ProactiveDb) : World :=
  { db
    latest := fun organizationId' findingType =>
      if organizationId' = organizationId ∧ findingType ∈ succeeded results then
        detector now findingType organizationId world.db
      else world.latest organizationId' findingType }

def World.afterRemoval (world : World) (entityType : EvidenceEntityType) (entityId : Uuid)
    (db : ProactiveDb) : World :=
  { db
    latest := fun organizationId findingType =>
      (world.latest organizationId findingType).map (·.struck entityType entityId) }

/-- A call that raises is rolled back. -/
def step (world : World) : Operation → Option World
  | .runDetection organizationId requested now outage newIds =>
    match Service.transaction
        (runDetection newIds now organizationId outage requested) world.db with
    | (.ok results, db) => some (world.afterDetection now organizationId results db)
    | (.error _, db) => some { world with db }
  | .evidenceEntityRemoved organizationId entityType entityId now =>
    match Service.transaction
        (handleEvidenceEntityRemoved now organizationId entityType entityId) world.db with
    | (.ok _, db) => some (world.afterRemoval entityType entityId db)
    | (.error _, db) => some { world with db }
  | .sourcesChange incidents documents edges => some
      { world with
        db := { world.db with incidents, documents, knowledgeGraphEdges := edges } }

/-- A removal is called for the organization whose findings name the entity, as
the entity is that organization's own. -/
def Addressed (world : World) : Operation → Prop
  | .evidenceEntityRemoved organizationId entityType entityId _ =>
    ∀ item ∈ world.db.proactiveFindingEvidence, Repository.names entityType entityId item →
      ∀ row ∈ world.db.proactiveFindings, row.id = item.findingId →
        row.organizationId = organizationId
  | _ => True

instance (world : World) : (operation : Operation) → Decidable (Addressed world operation)
  | .evidenceEntityRemoved organizationId entityType entityId _ =>
    inferInstanceAs (Decidable (∀ item ∈ world.db.proactiveFindingEvidence,
      Repository.names entityType entityId item →
        ∀ row ∈ world.db.proactiveFindings, row.id = item.findingId →
          row.organizationId = organizationId))
  | .runDetection .. => .isTrue trivial
  | .sourcesChange .. => .isTrue trivial

/-! ## The invariant -/

/-- The candidate has its entry, active as long as what is left of its evidence
is enough. -/
def Tracked (b : Book) (organizationId : Uuid) (findingType : FindingType)
    (candidate : CandidateFinding) : Prop :=
  ∃ entry, b organizationId candidate.fingerprint = some entry ∧
    entry.row.findingType = findingType ∧ entry.evidence = candidate.evidence ∧
      (entry.row.status = .active ↔
        (FindingType.spec findingType).minimumSupport ≤ supportOf candidate.evidence)

/-- What holds whoever calls. -/
structure Kept (world : World) : Prop where
  keyed : Keyed world.db
  named : (book world.db).Named

/-- What holds if removals are addressed. -/
structure Inv (world : World) : Prop where
  sound : (book world.db).Sound
  tracked : ∀ organizationId findingType, ∀ candidate ∈ world.latest organizationId findingType,
    Tracked (book world.db) organizationId findingType candidate

theorem kept_start : Kept World.start where
  keyed := ⟨List.nodup_nil, List.nodup_nil⟩
  named _ _ _ hentry := nomatch hentry

theorem inv_start : Inv World.start where
  sound _ _ _ hentry := nomatch hentry
  tracked _ _ _ hmem := nomatch hmem

section Steps

variable {world : World} {organizationId : Uuid}

theorem tracked_of_current {b : Book} {findingType : FindingType} {candidate : CandidateFinding}
    {entry : Entry} (hfound : Found findingType candidate)
    (hentry : b organizationId candidate.fingerprint = some entry)
    (htype : entry.row.findingType = findingType) (hcurrent : Current candidate entry) :
    Tracked b organizationId findingType candidate := by
  refine ⟨entry, hentry, htype, hcurrent.evidence, fun _ => ?_, fun _ => hcurrent.active⟩
  rw [← hfound.support]
  exact hfound.valid.support

section Detection

variable {names : List String} {newIds : NewIds} {now : Instant} {outage : Outage}
  {results : List ReconciliationResult} {db' : ProactiveDb}

theorem kept_runDetection (h : Kept world)
    (hrun : (runDetectors newIds now organizationId outage names).Returns world.db results db') :
    Kept (world.afterDetection now organizationId results db') ∧
      Continues (book world.db) (book db') := by
  obtain ⟨hkeyed, _, _, _, hbook⟩ := runDetectors_returns h.keyed hrun
  refine ⟨⟨hkeyed, ?_⟩, ?_⟩
  · show (book db').Named
    rw [hbook]
    exact named_detectedAll (proposed_detector now organizationId world.db) h.named
  · rw [hbook]
    exact continues_detectedAll

theorem inv_runDetection (hkept : Kept world) (h : Inv world)
    (hrun : (runDetectors newIds now organizationId outage names).Returns world.db results db') :
    Inv (world.afterDetection now organizationId results db') := by
  obtain ⟨_, _, _, _, hbook⟩ := runDetectors_returns hkept.keyed hrun
  have hproposed := proposed_detector now organizationId world.db
  constructor
  · show (book db').Sound
    rw [hbook]
    exact sound_detectedAll hproposed h.sound
  · intro organizationId' findingType candidate hcandidate
    show Tracked (book db') organizationId' findingType candidate
    change candidate ∈ if organizationId' = organizationId ∧ findingType ∈ succeeded results then
      detector now findingType organizationId world.db
      else world.latest organizationId' findingType at hcandidate
    rw [hbook]
    by_cases hran : organizationId' = organizationId ∧ findingType ∈ succeeded results
    · rw [if_pos hran] at hcandidate
      obtain ⟨rfl, hmem⟩ := hran
      obtain ⟨entry, hentry, htype, hcurrent⟩ :=
        (settled_detectedAll hproposed hkept.named hmem).current candidate hcandidate
      exact tracked_of_current (hproposed.found findingType candidate hcandidate) hentry htype
        hcurrent
    · rw [if_neg hran] at hcandidate
      obtain ⟨entry, hentry, htype, hevidence, hactive⟩ :=
        h.tracked organizationId' findingType candidate hcandidate
      refine ⟨entry, ?_, htype, hevidence, hactive⟩
      by_cases horg : organizationId' = organizationId
      · have hnot : entry.row.findingType ∉ succeeded results := by
          rw [htype]
          exact fun hmem => hran ⟨horg, hmem⟩
        exact detectedAll_otherType hproposed (hkept.named _ _ _ hentry) hentry hnot
      · rw [detectedAll_elsewhere horg]
        exact hentry

end Detection

section Removal

variable {entityType : EvidenceEntityType} {entityId : Uuid} {now : Instant}
  {organizationId' : Uuid} {fingerprint : String} {entry : Entry} {n : Nat} {db' : ProactiveDb}

/-- A removal leaves every entry the same finding, for whatever organization it
is called. -/
theorem kept_removal (h : Kept world)
    (hrun : (handleEvidenceEntityRemoved now organizationId entityType entityId).Returns world.db n
      db') :
    Kept (world.afterRemoval entityType entityId db') ∧ Continues (book world.db) (book db') := by
  obtain ⟨hkeyed, _, hbook⟩ := handleEvidenceEntityRemoved_returns h.keyed hrun
  have hcontinues : Continues (book world.db) (book db') := by
    intro organizationId' fingerprint entry hentry
    rw [hbook]
    unfold Book.struck
    rw [hentry]
    refine ⟨_, rfl, ?_⟩
    by_cases hcalled : organizationId' = organizationId ∧
        entry.evidence.any (·.refersTo entityType entityId) = true
    · simp only [if_pos hcalled]
      exact recomputed_sameFinding { entry with evidence := strike entityType entityId entry.evidence }
    · simp only [if_neg hcalled]
      exact .refl _
  refine ⟨⟨hkeyed, ?_⟩, hcontinues⟩
  intro organizationId' fingerprint entry' hentry'
  have hstruck : (book world.db).struck now organizationId entityType entityId organizationId'
      fingerprint = some entry' := by
    rw [← hbook]
    exact hentry'
  obtain ⟨entry, hentry, _⟩ := Option.map_eq_some_iff.mp hstruck
  obtain ⟨entry'', hentry'', hsame⟩ := hcontinues _ _ _ hentry
  obtain rfl : entry'' = entry' := Option.some.inj (hentry''.symm.trans hentry')
  exact (h.named _ _ _ hentry).of_same hsame

/-- The entries that name an entity are those of the organization it is removed for. -/
theorem addressed_entry
    (haddressed : Addressed world (.evidenceEntityRemoved organizationId entityType entityId now))
    (hentry : book world.db organizationId' fingerprint = some entry)
    (hnamed : entry.evidence.any (·.refersTo entityType entityId) = true) :
    organizationId' = organizationId := by
  obtain ⟨hmem, horg, _, hevidence⟩ := book_some hentry
  rw [hevidence] at hnamed
  obtain ⟨item, hitem, hrefers⟩ := List.any_eq_true.mp hnamed
  obtain ⟨row, hrow, rfl⟩ := List.mem_map.mp hitem
  obtain ⟨hrow, hof⟩ := List.mem_filter.mp hrow
  rw [← horg]
  exact haddressed row hrow hrefers entry.row hmem (of_decide_eq_true hof).symm

/-- An entry after a removal, of whatever organization. -/
theorem struck_entry
    (haddressed : Addressed world (.evidenceEntityRemoved organizationId entityType entityId now))
    (hentry : book world.db organizationId' fingerprint = some entry) :
    (book world.db).struck now organizationId entityType entityId organizationId' fingerprint =
      some (if entry.evidence.any (·.refersTo entityType entityId) then
        recomputed now { entry with evidence := strike entityType entityId entry.evidence }
      else entry) := by
  unfold Book.struck
  rw [hentry, Option.map_some]
  congr 1
  by_cases hnamed : entry.evidence.any (·.refersTo entityType entityId) = true
  · rw [if_pos ⟨addressed_entry haddressed hentry hnamed, hnamed⟩, if_pos hnamed]
  · rw [if_neg fun hboth => hnamed hboth.2, if_neg hnamed,
      strike_of_none (Bool.eq_false_iff.mpr hnamed)]

theorem inv_removal (hkept : Kept world) (h : Inv world)
    (haddressed : Addressed world (.evidenceEntityRemoved organizationId entityType entityId now))
    (hrun : (handleEvidenceEntityRemoved now organizationId entityType entityId).Returns world.db n
      db') :
    Inv (world.afterRemoval entityType entityId db') := by
  obtain ⟨_, _, hbook⟩ := handleEvidenceEntityRemoved_returns hkept.keyed hrun
  constructor
  · intro organizationId' fingerprint entry' hentry'
    change book db' organizationId' fingerprint = some entry' at hentry'
    rw [hbook] at hentry'
    obtain ⟨entry, hentry, _⟩ := Option.map_eq_some_iff.mp hentry'
    rw [struck_entry haddressed hentry] at hentry'
    obtain rfl := Option.some.inj hentry'
    have hsound := h.sound _ _ _ hentry
    by_cases hnamed : entry.evidence.any (·.refersTo entityType entityId) = true
    · rw [if_pos hnamed]
      exact sound_recomputed hsound.named
    · rw [if_neg hnamed]
      exact hsound
  · intro organizationId' findingType candidate' hcandidate'
    obtain ⟨candidate, hcandidate, rfl⟩ := List.mem_map.mp hcandidate'
    show Tracked (book db') organizationId' findingType _
    rw [hbook]
    obtain ⟨entry, hentry, htype, hevidence, hactive⟩ :=
      h.tracked organizationId' findingType candidate hcandidate
    refine ⟨_, struck_entry haddressed hentry, ?_⟩
    show _ ∧ _ = strike entityType entityId candidate.evidence ∧
      (_ ↔ _ ≤ supportOf (strike entityType entityId candidate.evidence))
    rw [← hevidence]
    by_cases hnamed : entry.evidence.any (·.refersTo entityType entityId) = true
    · rw [if_pos hnamed]
      refine ⟨(recomputed_sameFinding _).findingType.trans htype, recomputed_evidence, ?_⟩
      rw [recomputed_active_iff, htype]
      -- what is left was there before, so an entry with enough left was active
      have hless := supportOf_strike entityType entityId entry.evidence
      constructor
      · exact fun hboth => hboth.2
      · intro henough
        refine ⟨hactive.mpr ?_, henough⟩
        rw [← hevidence]
        omega
    · rw [if_neg hnamed, strike_of_none (Bool.eq_false_iff.mpr hnamed), hevidence]
      exact ⟨htype, rfl, hactive⟩

end Removal

/-- What an operation can do. -/
theorem step_cases {world' : World} {operation : Operation} (hstep : step world operation = some world') :
    world' = world ∨
      (∃ organizationId requested now outage newIds results db,
        operation = .runDetection organizationId requested now outage newIds ∧
          (runDetection newIds now organizationId outage requested).Returns world.db results db ∧
            world' = world.afterDetection now organizationId results db) ∨
      (∃ organizationId entityType entityId now n db,
        operation = .evidenceEntityRemoved organizationId entityType entityId now ∧
          (handleEvidenceEntityRemoved now organizationId entityType entityId).Returns world.db n db ∧
            world' = world.afterRemoval entityType entityId db) ∨
      ∃ incidents documents edges, world' =
        { world with db := { world.db with incidents, documents, knowledgeGraphEdges := edges } } := by
  cases operation with
  | runDetection organizationId requested now outage newIds =>
    unfold step at hstep
    rcases Service.transaction_cases (runDetection newIds now organizationId outage requested)
        world.db with ⟨results, db', hrun, htransaction⟩ | ⟨e, _, htransaction⟩
    · simp only [htransaction] at hstep
      obtain rfl := Option.some.inj hstep
      exact .inr (.inl ⟨organizationId, requested, now, outage, newIds, results, db', rfl, hrun, rfl⟩)
    · simp only [htransaction] at hstep
      exact .inl (Option.some.inj hstep).symm
  | evidenceEntityRemoved organizationId entityType entityId now =>
    unfold step at hstep
    rcases Service.transaction_cases
        (handleEvidenceEntityRemoved now organizationId entityType entityId)
        world.db with ⟨n, db', hrun, htransaction⟩ | ⟨e, _, htransaction⟩
    · simp only [htransaction] at hstep
      obtain rfl := Option.some.inj hstep
      exact .inr (.inr (.inl ⟨organizationId, entityType, entityId, now, n, db', rfl, hrun, rfl⟩))
    · simp only [htransaction] at hstep
      exact .inl (Option.some.inj hstep).symm
  | sourcesChange incidents documents edges =>
    exact .inr (.inr (.inr ⟨incidents, documents, edges, (Option.some.inj hstep).symm⟩))

/-- One step keeps every finding, whoever calls. -/
theorem step_kept {world' : World} {operation : Operation} (h : Kept world)
    (hstep : step world operation = some world') :
    Kept world' ∧ Continues (book world.db) (book world'.db) := by
  rcases step_cases hstep with rfl | ⟨_, _, _, _, _, _, _, -, hrun, rfl⟩ | ⟨_, _, _, _, _, _, -, hrun, rfl⟩ |
    ⟨_, _, _, rfl⟩
  · exact ⟨h, .refl _⟩
  · exact kept_runDetection h hrun
  · exact kept_removal h hrun
  · exact ⟨⟨⟨h.keyed.ids, h.keyed.identities⟩, h.named⟩, .refl _⟩

theorem step_inv {world' : World} {operation : Operation} (hkept : Kept world) (h : Inv world)
    (haddressed : Addressed world operation) (hstep : step world operation = some world') :
    Inv world' := by
  rcases step_cases hstep with rfl | ⟨_, _, _, _, _, _, _, -, hrun, rfl⟩ |
    ⟨_, _, _, _, _, _, rfl, hrun, rfl⟩ | ⟨_, _, _, rfl⟩
  · exact h
  · exact inv_runDetection hkept h hrun
  · exact inv_removal hkept h haddressed hrun
  · exact ⟨h.sound, h.tracked⟩

end Steps

/-! ## Whole runs -/

section Reachable

variable {world later : World}

theorem kept_of_run (hrun : Run step anyStep world later) (h : Kept world) : Kept later :=
  hrun.invariant (fun _ _ _ hkept _ hstep => (step_kept hkept hstep).1) h

theorem continues_of_run (hrun : Run step anyStep world later) (h : Kept world) :
    Continues (book world.db) (book later.db) := by
  refine hrun.relation (I := Kept) (R := fun s t => Continues (book s.db) (book t.db))
    (fun _ _ _ hkept _ hstep => (step_kept hkept hstep).1)
    (fun s => .refl (book s.db)) (fun _ _ _ hst htu => hst.trans htu) ?_ h
  exact fun _ _ _ hkept _ hstep => (step_kept hkept hstep).2

theorem inv_of_run (hrun : Run step Addressed world later) (hkept : Kept world) (h : Inv world) :
    Inv later := by
  have hboth : Kept later ∧ Inv later := by
    refine hrun.invariant (I := fun world => Kept world ∧ Inv world) ?_ ⟨hkept, h⟩
    intro _ _ _ hboth haddressed hstep
    exact ⟨(step_kept hboth.1 hstep).1, step_inv hboth.1 hboth.2 haddressed hstep⟩
  exact hboth.2

theorem supportOf_evidenceOf (db : ProactiveDb) (findingId : Uuid) :
    supportOf (evidenceOf db findingId) =
      (Repository.listEvidence findingId db).countP fun item => countsTowardSupport item.role := by
  unfold supportOf evidenceOf
  rw [List.countP_map]
  rfl

theorem active_supported (hkept : Kept world) (h : Inv world) {row : ProactiveFinding}
    (hrow : row ∈ world.db.proactiveFindings) (hactive : row.status = .active) :
    row.supportCount = ((Repository.listEvidence row.id world.db).countP fun item =>
        countsTowardSupport item.role) ∧
      (FindingType.spec row.findingType).minimumSupport ≤ row.supportCount := by
  have hsound := h.sound _ _ _ (book_of_mem hkept.keyed hrow)
  rw [← supportOf_evidenceOf]
  exact hsound.supported hactive

theorem found_later (h : Kept world) (hrun : Run step anyStep world later)
    {row : ProactiveFinding} (hrow : row ∈ world.db.proactiveFindings) :
    ∃ row' ∈ later.db.proactiveFindings, SameFinding row row' := by
  obtain ⟨entry', hentry', hsame⟩ := continues_of_run hrun h _ _ _ (book_of_mem h.keyed hrow)
  exact ⟨entry'.row, (book_some hentry').1, hsame⟩

theorem latest_found (h : Inv world) {organizationId : Uuid} {findingType : FindingType}
    {candidate : CandidateFinding} (hcandidate : candidate ∈ world.latest organizationId findingType) :
    ∃ row ∈ world.db.proactiveFindings, row.organizationId = organizationId ∧
      row.fingerprint = candidate.fingerprint ∧ evidenceOf world.db row.id = candidate.evidence ∧
      (row.status = .active ↔
        (FindingType.spec findingType).minimumSupport ≤ supportOf candidate.evidence) := by
  obtain ⟨entry, hentry, _, hevidence, hactive⟩ := h.tracked _ _ _ hcandidate
  obtain ⟨hmem, horg, hfp, hof⟩ := book_some hentry
  exact ⟨entry.row, hmem, horg, hfp, hof.symm.trans hevidence, hactive⟩

end Reachable

/-! ## Findings in step -/

theorem findings_in_step {world : World} (hrun : Run step anyStep World.start world) :
    (∀ organizationId fingerprint, (world.db.proactiveFindings.countP fun row =>
      row.organizationId = organizationId ∧ row.fingerprint = fingerprint) ≤ 1) ∧
    (∀ later, Run step anyStep world later → ∀ row ∈ world.db.proactiveFindings,
      ∃ row' ∈ later.db.proactiveFindings, row'.id = row.id ∧ row'.firstSeenAt = row.firstSeenAt) ∧
    (∀ organizationId requested now outage outage' newIds newIds' results db,
      (runDetection newIds now organizationId outage requested).Returns world.db results db →
      (∀ findingType, outage findingType ≠ none → outage' findingType ≠ none) →
      ∃ again db', (runDetection newIds' now organizationId outage' requested).Returns db again db' ∧
        db'.proactiveFindings = db.proactiveFindings ∧
        (∀ findingId, evidenceOf db' findingId = evidenceOf db findingId) ∧
        ∀ result ∈ again, Quiet result) ∧
    (Run step Addressed World.start world →
      (∀ row ∈ world.db.proactiveFindings, row.status = .active →
        row.supportCount = ((Repository.listEvidence row.id world.db).countP fun item =>
            countsTowardSupport item.role) ∧
          (FindingType.spec row.findingType).minimumSupport ≤ row.supportCount) ∧
      ∀ organizationId findingType, ∀ candidate ∈ world.latest organizationId findingType,
        ∃ row ∈ world.db.proactiveFindings, row.organizationId = organizationId ∧
          row.fingerprint = candidate.fingerprint ∧ evidenceOf world.db row.id = candidate.evidence ∧
          (row.status = .active ↔
            (FindingType.spec findingType).minimumSupport ≤ supportOf candidate.evidence)) := by
  have hkept := kept_of_run hrun kept_start
  refine ⟨fun organizationId fingerprint => ?_, fun later hlater row hrow => ?_, ?_,
    fun haddressed => ?_⟩
  · have hone := Table.countP_le_one hkept.keyed.identities (organizationId, fingerprint)
    have hsame : (fun row : ProactiveFinding => decide (identity row = (organizationId, fingerprint))) =
        fun row => decide (row.organizationId = organizationId ∧ row.fingerprint = fingerprint) := by
      funext row
      simp [identity]
    rw [hsame] at hone
    exact hone
  · obtain ⟨row', hrow', hsame⟩ := found_later hkept hlater hrow
    exact ⟨row', hrow', hsame.id, hsame.firstSeenAt⟩
  · intro organizationId requested now outage outage' newIds newIds' results db hfirst houtage
    obtain ⟨again, db', hagain, hsame, hquiet⟩ :=
      runDetectors_again newIds now hkept.keyed hkept.named hfirst houtage
    exact ⟨again, db', hagain, hsame.rows, hsame.evidence, hquiet⟩
  · have hinv := inv_of_run haddressed kept_start inv_start
    exact ⟨fun row hrow => active_supported hkept hinv hrow,
      fun _ _ _ hcandidate => latest_found hinv hcandidate⟩

/-- Two documents linked to one incident. -/
def linkedSources : Operation :=
  .sourcesChange
    [{ id := 10, organizationId := 1, projectId := 5, title := "Outage", severity := "low"
       reportedBy := 7, createdAt := 0 }] []
    ([21, 22].map fun documentId =>
      { id := documentId + 100, organizationId := 1, sourceEntityId := documentId
        relationshipType := "documents", targetEntityId := 10 })

def detectAll : Operation := .runDetection 1 none 100 (fun _ => none) fun _ => 31

def removeDocument (organizationId : Uuid) : Operation :=
  .evidenceEntityRemoved organizationId .document 21 200

theorem findings_in_step_linked :
    ∃ world, Run step Addressed World.start world ∧ ∃ row ∈ world.db.proactiveFindings,
      row.status = .active ∧ 2 ≤ row.supportCount ∧
        row.supportCount = (Repository.listEvidence row.id world.db).countP fun item =>
          countsTowardSupport item.role := by
  have hexec : ((execWithin step Addressed World.start [linkedSources, detectAll]).any
      fun world => decide (∃ row ∈ world.db.proactiveFindings, row.status = .active ∧
        row.findingType = .incidentMultiDocument)) = true := by
    decide +kernel
  obtain ⟨world, hrun, row, hrow, hactive, htype⟩ := exists_of_execWithin hexec
  obtain ⟨_, _, _, haddressed⟩ := findings_in_step (hrun.weaken fun _ _ _ => trivial)
  obtain ⟨hsupport, hminimum⟩ := (haddressed hrun).1 row hrow hactive
  rw [htype] at hminimum
  exact ⟨world, hrun, row, hrow, hactive, hminimum, hsupport⟩

/-- After a removal the candidate of the latest run is inactive; after a removal
for another organization an active finding counts evidence that it has lost. -/
theorem removal_out_of_step :
    (∃ world, exec step World.start [linkedSources, detectAll, removeDocument 1] = some world ∧
      ∃ row ∈ world.db.proactiveFindings,
        (detector 100 .incidentMultiDocument 1 world.db).map CandidateFinding.fingerprint =
            [row.fingerprint] ∧ row.status = .inactive) ∧
    ∃ world, exec step World.start [linkedSources, detectAll, removeDocument 2] = some world ∧
      ∃ row ∈ world.db.proactiveFindings, row.status = .active ∧
        row.supportCount ≠ (Repository.listEvidence row.id world.db).countP fun item =>
          countsTowardSupport item.role := by
  constructor
  · apply exists_of_exec
    decide +kernel
  · apply exists_of_exec
    decide +kernel

end Ekip.Core.Proactive
