import Ekip.Core.Proactive.Lifecycle

/-!
# What a finding reveals

Two states that look the same to an actor differ in what detection has counted
and written down. What is recomputed for the actor is the same in both; what was
stored at detection is not.
-/
namespace Ekip.Core.Proactive

open Ekip.Lib Ekip.Database Ekip.Shared Ekip.Core

section Views

variable (actor : Identity) (db : ProactiveDb)

/-- The evidence of a finding that the actor may see. -/
def visibleEvidence (findingId : Uuid) : List FindingEvidenceRef :=
  (Repository.listEvidence findingId db).filterMap fun row => resolveEvidence actor row db

def visibleSupport (findingId : Uuid) : Nat :=
  (visibleEvidence actor db findingId).countP fun ref => countsTowardSupport ref.role

/-- The findings that clear their threshold on visible evidence. -/
def shownFindings : List Uuid :=
  (db.proactiveFindings.filter fun row => row.organizationId = actor.organizationId ∧
    (visibleEvidenceAndRecomputedSupport actor row db).isSome).map ProactiveFinding.id

/-- The evidence rows that name something the actor may read. -/
def readableEvidence : List ProactiveFindingEvidence :=
  db.proactiveFindingEvidence.filter fun row => (resolveEvidence actor row db).isSome

end Views

/-- The states agree on the incidents and documents that the actor may read, and
on the evidence that names them. -/
structure Agree (actor : Identity) (db db' : ProactiveDb) : Prop where
  incidents : ∀ incidentId, (Repository.getIncidentById incidentId db).filter (mayReadIncident actor) =
    (Repository.getIncidentById incidentId db').filter (mayReadIncident actor)
  documents : ∀ documentId, (Repository.getDocumentById documentId db).filter (mayReadDocument actor) =
    (Repository.getDocumentById documentId db').filter (mayReadDocument actor)
  evidence : (readableEvidence actor db).Perm (readableEvidence actor db')

section Agreement

variable {actor : Identity} {db db' : ProactiveDb}

theorem resolveEvidence_congr (h : Agree actor db db') (row : ProactiveFindingEvidence) :
    resolveEvidence actor row db = resolveEvidence actor row db' := by
  unfold resolveEvidence
  cases row.entityType with
  | incident =>
    show ((Repository.getIncidentById row.entityId db).filter (mayReadIncident actor)).map _ = _
    rw [h.incidents]
  | document =>
    show ((Repository.getDocumentById row.entityId db).filter (mayReadDocument actor)).map _ = _
    rw [h.documents]

/-- What a finding shows is drawn from the readable rows. -/
theorem visibleEvidence_eq (findingId : Uuid) : visibleEvidence actor db findingId =
    ((readableEvidence actor db).filter fun row => row.findingId = findingId).filterMap
      fun row => resolveEvidence actor row db := by
  have hdrop (rows : List ProactiveFindingEvidence) :
      (rows.filter fun row => (resolveEvidence actor row db).isSome).filterMap
        (fun row => resolveEvidence actor row db) =
      rows.filterMap fun row => resolveEvidence actor row db := by
    induction rows with
    | nil => rfl
    | cons row rows ih =>
      rw [List.filter_cons, List.filterMap_cons]
      cases hrow : resolveEvidence actor row db with
      | none => exact ih
      | some ref =>
        simp only [Option.isSome_some, if_true, List.filterMap_cons, hrow]
        rw [ih]
  have hcomm : (readableEvidence actor db).filter (fun row => row.findingId = findingId) =
      (Repository.listEvidence findingId db).filter
        fun row => (resolveEvidence actor row db).isSome := by
    unfold readableEvidence Repository.listEvidence
    rw [List.filter_filter, List.filter_filter]
    refine List.filter_congr fun row _ => ?_
    exact Bool.and_comm _ _
  rw [hcomm, hdrop]
  rfl

theorem visibleEvidence_perm (h : Agree actor db db') (findingId : Uuid) :
    (visibleEvidence actor db findingId).Perm (visibleEvidence actor db' findingId) := by
  have hresolve : (fun row => resolveEvidence actor row db) =
      fun row => resolveEvidence actor row db' := by
    funext row
    exact resolveEvidence_congr h row
  rw [visibleEvidence_eq, visibleEvidence_eq, hresolve]
  exact (h.evidence.filter _).filterMap _

theorem visibleSupport_congr (h : Agree actor db db') (findingId : Uuid) :
    visibleSupport actor db findingId = visibleSupport actor db' findingId :=
  (visibleEvidence_perm h findingId).countP_eq _

end Agreement

/-! ## The two reads -/

section Reads

variable {actor : Identity} {db : ProactiveDb}

theorem visible_some {row : ProactiveFinding} {resolved : List FindingEvidenceRef × Nat}
    (h : visibleEvidenceAndRecomputedSupport actor row db = some resolved) :
    resolved = (visibleEvidence actor db row.id, visibleSupport actor db row.id) := by
  unfold visibleEvidenceAndRecomputedSupport at h
  by_cases hgate : actor.hasPermission incidentReadPermission row.projectId = true
  · rw [if_pos hgate] at h
    by_cases hbelow : visibleSupport actor db row.id <
        (FindingType.spec row.findingType).minimumSupport
    · have hnone := (if_pos hbelow).symm.trans h
      cases hnone
    · have hsome := (if_neg hbelow).symm.trans h
      exact (Option.some.inj hsome).symm
  · rw [if_neg hgate] at h
    cases h

theorem mem_shownFindings {findingId : Uuid} : findingId ∈ shownFindings actor db ↔
    ∃ row ∈ db.proactiveFindings, row.id = findingId ∧ row.organizationId = actor.organizationId ∧
      visibleEvidenceAndRecomputedSupport actor row db =
        some (visibleEvidence actor db findingId, visibleSupport actor db findingId) := by
  unfold shownFindings
  rw [List.mem_map]
  constructor
  · rintro ⟨row, hrow, rfl⟩
    obtain ⟨hmem, hshown⟩ := List.mem_filter.mp hrow
    obtain ⟨horg, hsome⟩ := of_decide_eq_true hshown
    obtain ⟨resolved, hresolved⟩ := Option.isSome_iff_exists.mp hsome
    refine ⟨row, hmem, rfl, horg, ?_⟩
    rw [hresolved, visible_some hresolved]
  · rintro ⟨row, hmem, rfl, horg, hvisible⟩
    refine ⟨row, List.mem_filter.mpr ⟨hmem, decide_eq_true ⟨horg, ?_⟩⟩, rfl⟩
    rw [hvisible]
    rfl

/-- What `get_finding` returns of a finding that is shown. -/
theorem getFinding_of_shown (hkeyed : Keyed db) {findingId : Uuid}
    (h : findingId ∈ shownFindings actor db) :
    ∃ detail, (getFinding actor findingId).Returns db detail db ∧ detail.finding.id = findingId ∧
      detail.finding.supportCount = visibleSupport actor db findingId ∧
      detail.supportingEntities = visibleEvidence actor db findingId := by
  obtain ⟨row, hmem, rfl, horg, hvisible⟩ := mem_shownFindings.mp h
  have hentry := book_of_mem hkeyed hmem
  have hfound := getFinding_of_entry hkeyed hentry
  rw [horg] at hfound
  refine ⟨{ finding := shown row (visibleSupport actor db row.id)
            supportingEntities := visibleEvidence actor db row.id }, ?_, rfl, rfl, rfl⟩
  simp only [getFinding, Service.bind_returns, Service.read_returns, Service.orRaise_returns,
    Service.pure_returns]
  exact ⟨_, db, ⟨rfl, rfl⟩, row, db, ⟨hfound, rfl⟩, _, db, ⟨rfl, rfl⟩, _, db, ⟨hvisible, rfl⟩,
    rfl, rfl⟩

theorem getFinding_of_hidden {findingId : Uuid} (h : findingId ∉ shownFindings actor db) :
    (getFinding actor findingId).Raises db (findingNotFound findingId) := by
  unfold getFinding
  simp only [Service.bind_raises, Service.read_returns, Service.orRaise_raises,
    Service.orRaise_returns]
  refine .inr ⟨_, db, ⟨rfl, rfl⟩, ?_⟩
  cases hfound : Repository.getFinding findingId actor.organizationId db with
  | none => exact .inl ⟨rfl, trivial⟩
  | some row =>
    have hboth := List.find?_some hfound
    simp only [decide_eq_true_eq] at hboth
    obtain ⟨rfl, horg⟩ := hboth
    refine .inr ⟨row, db, ⟨rfl, rfl⟩, .inr ⟨_, db, ⟨rfl, rfl⟩, .inl ⟨?_, trivial⟩⟩⟩
    cases hvisible : visibleEvidenceAndRecomputedSupport actor row db with
    | none => rfl
    | some resolved =>
      rw [visible_some hvisible] at hvisible
      exact absurd (mem_shownFindings.mpr
        ⟨row, List.mem_of_find?_eq_some hfound, rfl, horg, hvisible⟩) h

/-- Every row that `list_findings` returns shows what the caller may know. -/
theorem listFindings_shows {status findingType : Option String}
    {limit offset : Int} {rows : List ProactiveFinding} {db' : ProactiveDb}
    (h : (listFindings actor status findingType limit offset).Returns db rows db')
    {row : ProactiveFinding} (hrow : row ∈ rows) :
    row.id ∈ shownFindings actor db ∧ row.supportCount = visibleSupport actor db row.id := by
  simp only [listFindings, Service.bind_returns, Service.read_returns, Service.ofExcept_returns] at h
  obtain ⟨_, _, ⟨rfl, rfl⟩, listed, _, ⟨hlisted, rfl⟩, rfl, rfl⟩ := h
  obtain ⟨stored, hstored, hshown⟩ := List.mem_filterMap.mp hrow
  obtain ⟨resolved, hresolved, rfl⟩ := Option.map_eq_some_iff.mp hshown
  have hpage : stored ∈ Repository.listedFindings actor.organizationId status findingType db := by
    obtain ⟨rest, hrest, hcut⟩ := Query.bind_ok.mp hlisted
    exact Query.mem_of_offset hrest (Query.mem_of_limit hcut hstored)
  obtain ⟨hmem, hfilter⟩ := List.mem_filter.mp ((List.mem_insertionSort _).mp hpage)
  have hvisible := hresolved
  rw [visible_some hresolved] at hvisible ⊢
  refine ⟨mem_shownFindings.mpr ⟨stored, hmem, rfl, ?_, hvisible⟩, rfl⟩
  exact (of_decide_eq_true hfilter).1

/-- Where no filter is set and no page is cut, every finding that is shown is listed. -/
theorem listFindings_uncut (actor : Identity) {limit : Int}
    (hlimit : db.proactiveFindings.length ≤ limit) :
    ∃ rows, (listFindings actor none none limit 0).Returns db rows db ∧
      ∀ findingId, findingId ∈ shownFindings actor db → ∃ row ∈ rows, row.id = findingId := by
  have hlength : (Repository.listedFindings actor.organizationId none none db).length ≤
      db.proactiveFindings.length := by
    unfold Repository.listedFindings
    rw [List.length_insertionSort]
    exact List.length_filter_le _ _
  have hall : Repository.listFindings actor.organizationId none none limit 0 db =
      .ok (Repository.listedFindings actor.organizationId none none db) := by
    refine Query.bind_ok.mpr ⟨_, rfl, ?_⟩
    have hnonneg : ¬ limit < 0 := by omega
    have htake : (Repository.listedFindings actor.organizationId none none db).length ≤
        limit.toNat := by omega
    unfold Query.limit
    rw [if_neg hnonneg]
    exact congrArg Except.ok (List.take_of_length_le htake)
  refine ⟨(Repository.listedFindings actor.organizationId none none db).filterMap fun row =>
    (visibleEvidenceAndRecomputedSupport actor row db).map fun resolved => shown row resolved.2,
    ?_, fun findingId hshown => ?_⟩
  · simp only [listFindings, Service.bind_returns, Service.read_returns, Service.ofExcept_returns]
    exact ⟨_, db, ⟨rfl, rfl⟩, _, db, ⟨hall, rfl⟩, rfl, rfl⟩
  · obtain ⟨row, hmem, rfl, horg, hvisible⟩ := mem_shownFindings.mp hshown
    refine ⟨shown row (visibleSupport actor db row.id), List.mem_filterMap.mpr ⟨row, ?_, ?_⟩, rfl⟩
    · refine (List.mem_insertionSort _).mpr (List.mem_filter.mpr ⟨hmem, ?_⟩)
      simp [horg]
    · rw [hvisible]
      rfl

end Reads

/-! ## Two states that look the same -/

theorem findings_reveal_visible {world world' : World} (hrun : Run step anyStep World.start world)
    (hrun' : Run step anyStep World.start world') (actor : Identity)
    (hagree : Agree actor world.db world'.db)
    (hsame : ∀ findingId,
      findingId ∈ shownFindings actor world.db ↔ findingId ∈ shownFindings actor world'.db) :
    (∀ findingId,
      (∃ detail detail', (getFinding actor findingId).Returns world.db detail world.db ∧
        (getFinding actor findingId).Returns world'.db detail' world'.db ∧
        detail.finding.supportCount = detail'.finding.supportCount ∧
        detail.supportingEntities.Perm detail'.supportingEntities ∧
        detail.finding.supportCount =
          detail.supportingEntities.countP fun ref => countsTowardSupport ref.role) ∨
      ((getFinding actor findingId).Raises world.db (findingNotFound findingId) ∧
        (getFinding actor findingId).Raises world'.db (findingNotFound findingId))) ∧
    (∀ status status' findingType findingType' limit limit' offset offset' rows rows' db db',
      (listFindings actor status findingType limit offset).Returns world.db rows db →
      (listFindings actor status' findingType' limit' offset').Returns world'.db rows' db' →
      ∀ row ∈ rows, ∀ row' ∈ rows', row.id = row'.id → row.supportCount = row'.supportCount) ∧
    ∀ limit limit' : Int, world.db.proactiveFindings.length ≤ limit →
      world'.db.proactiveFindings.length ≤ limit' →
      ∃ rows rows', (listFindings actor none none limit 0).Returns world.db rows world.db ∧
        (listFindings actor none none limit' 0).Returns world'.db rows' world'.db ∧
        ∀ findingId, (∃ row ∈ rows, row.id = findingId) ↔ ∃ row' ∈ rows', row'.id = findingId := by
  have hkeyed := (kept_of_run hrun kept_start).keyed
  have hkeyed' := (kept_of_run hrun' kept_start).keyed
  refine ⟨fun findingId => ?_, ?_, fun limit limit' hlimit hlimit' => ?_⟩
  · by_cases hshown : findingId ∈ shownFindings actor world.db
    · obtain ⟨detail, hreturns, _, hcount, hentities⟩ := getFinding_of_shown hkeyed hshown
      obtain ⟨detail', hreturns', _, hcount', hentities'⟩ :=
        getFinding_of_shown hkeyed' ((hsame findingId).mp hshown)
      refine .inl ⟨detail, detail', hreturns, hreturns', ?_, ?_, ?_⟩
      · rw [hcount, hcount', visibleSupport_congr hagree]
      · rw [hentities, hentities']
        exact visibleEvidence_perm hagree findingId
      · rw [hcount, hentities]
        rfl
    · have hhidden : findingId ∉ shownFindings actor world'.db :=
        fun hshown' => hshown ((hsame findingId).mpr hshown')
      exact .inr ⟨getFinding_of_hidden hshown, getFinding_of_hidden hhidden⟩
  · intro _ _ _ _ _ _ _ _ rows rows' db db' hrows hrows' row hrow row' hrow' hid
    have hcount := (listFindings_shows hrows hrow).2
    have hcount' := (listFindings_shows hrows' hrow').2
    rw [hcount, hcount', hid, visibleSupport_congr hagree]
  · obtain ⟨rows, hrows, hlisted⟩ := listFindings_uncut actor hlimit
    obtain ⟨rows', hrows', hlisted'⟩ := listFindings_uncut actor hlimit'
    refine ⟨rows, rows', hrows, hrows', fun findingId => ⟨?_, ?_⟩⟩
    · rintro ⟨row, hrow, rfl⟩
      exact hlisted' row.id ((hsame row.id).mp (listFindings_shows hrows hrow).1)
    · rintro ⟨row', hrow', rfl⟩
      exact hlisted row'.id ((hsame row'.id).mpr (listFindings_shows hrows' hrow').1)

/-! ## Two states to compare -/

theorem agree_of_tables {actor : Identity} {db db' : ProactiveDb}
    (hkeys : (db.incidents.map Incident.id).Nodup ∧ (db.documents.map Document.id).Nodup)
    (hkeys' : (db'.incidents.map Incident.id).Nodup ∧ (db'.documents.map Document.id).Nodup)
    (hincidents : db.incidents.filter (mayReadIncident actor) =
      db'.incidents.filter (mayReadIncident actor))
    (hdocuments : db.documents.filter (mayReadDocument actor) =
      db'.documents.filter (mayReadDocument actor))
    (hevidence : readableEvidence actor db = readableEvidence actor db') : Agree actor db db' where
  incidents incidentId := by
    unfold Repository.getIncidentById
    rw [Table.filter_get? (Table.keyUnique_of_nodup hkeys.1),
      Table.filter_get? (Table.keyUnique_of_nodup hkeys'.1), hincidents]
  documents documentId := by
    unfold Repository.getDocumentById
    rw [Table.filter_get? (Table.keyUnique_of_nodup hkeys.2),
      Table.filter_get? (Table.keyUnique_of_nodup hkeys'.2), hdocuments]
  evidence := by rw [hevidence]

/-- May read incidents, except those of project 6, and only published documents. -/
def reader : Identity :=
  { kind := .user, subject := "reader", organizationId := 1
    permissions := {incidentReadPermission}
    projectPermissions := AList.singleton 6 ∅ }

def reportedIncident (id projectId : Uuid) : Incident :=
  { id, organizationId := 1, projectId, title := "Outage", severity := "low", reportedBy := 7
    createdAt := 0 }

def writtenDocument (status : DocumentStatus) (id : Uuid) : Document :=
  { id, organizationId := 1, projectId := 5, source := "manual", externalId := toString id
    contentHash := "", title := none, status }

def linkedTo (incidentId documentId : Uuid) : KnowledgeGraphEdge :=
  { id := 100 * incidentId + documentId, organizationId := 1, sourceEntityId := documentId
    relationshipType := "documents", targetEntityId := incidentId }

/-- The documents linked to incident 10, and to incident 11 of project 6. -/
def linked (proposed other : List Uuid) : Operation :=
  .sourcesChange [reportedIncident 10 5, reportedIncident 11 6]
    ([21, 22].map (writtenDocument .published) ++ (proposed ++ other).map (writtenDocument .proposed))
    (([21, 22] ++ proposed).map (linkedTo 10) ++ other.map (linkedTo 11))

def detectAt (now : Instant) : Operation :=
  .runDetection 1 none now (fun _ => none) fun fingerprint =>
    if fingerprint = Proactive.fingerprint .incidentMultiDocument 10 then 31 else 32

/-- What can be computed of two states that look the same to the reader. -/
def LooksSame (db db' : ProactiveDb) : Prop :=
  ((db.incidents.map Incident.id).Nodup ∧ (db.documents.map Document.id).Nodup) ∧
  ((db'.incidents.map Incident.id).Nodup ∧ (db'.documents.map Document.id).Nodup) ∧
  db.incidents.filter (mayReadIncident reader) = db'.incidents.filter (mayReadIncident reader) ∧
  db.documents.filter (mayReadDocument reader) = db'.documents.filter (mayReadDocument reader) ∧
  readableEvidence reader db = readableEvidence reader db' ∧
  shownFindings reader db = shownFindings reader db'

instance (db db' : ProactiveDb) : Decidable (LooksSame db db') :=
  inferInstanceAs (Decidable (_ ∧ _))

theorem LooksSame.agree {db db' : ProactiveDb} (h : LooksSame db db') : Agree reader db db' :=
  agree_of_tables h.1 h.2.1 h.2.2.1 h.2.2.2.1 h.2.2.2.2.1

theorem LooksSame.shown {db db' : ProactiveDb} (h : LooksSame db db') (findingId : Uuid) :
    findingId ∈ shownFindings reader db ↔ findingId ∈ shownFindings reader db' := by
  rw [h.2.2.2.2.2]

theorem findings_reveal_visible_draft :
    ∃ world world', Run step anyStep World.start world ∧ Run step anyStep World.start world' ∧
      world.db.documents.length = 3 ∧ world'.db.documents.length = 2 ∧
      ∀ rows rows' db db', (listFindings reader).Returns world.db rows db →
        (listFindings reader).Returns world'.db rows' db' →
        ∀ row ∈ rows, ∀ row' ∈ rows', row.id = row'.id → row.supportCount = row'.supportCount := by
  have hexec : ((exec step World.start [linked [23] [], detectAt 100]).any fun world =>
      (exec step World.start [linked [] [], detectAt 100]).any fun world' =>
        decide (LooksSame world.db world'.db ∧ world.db.documents.length = 3 ∧
          world'.db.documents.length = 2)) = true := by
    decide +kernel
  obtain ⟨world, world', hworld, hworld', hsame, hthree, htwo⟩ := exists_of_exec_pair hexec
  have hrun := run_of_exec hworld
  have hrun' := run_of_exec hworld'
  obtain ⟨_, hcounts, _⟩ := findings_reveal_visible hrun hrun' reader hsame.agree hsame.shown
  refine ⟨world, world', hrun, hrun', hthree, htwo, fun rows rows' db db' hrows hrows' => ?_⟩
  exact hcounts none none none none 50 50 0 0 rows rows' db db' hrows hrows'

/-- The title counts a document that the reader may not see; and a finding that
the reader may not see takes the place of one on the page. -/
theorem title_and_page_reveal :
    (∃ world world', exec step World.start [linked [23] [], detectAt 100] = some world ∧
      exec step World.start [linked [] [], detectAt 100] = some world' ∧
      Agree reader world.db world'.db ∧
      shownFindings reader world.db = shownFindings reader world'.db ∧
      ((getFinding reader 31) world.db).1.toOption.map
          (fun detail => (detail.finding.title, detail.finding.supportCount)) =
        some ("3 documents linked to 'Outage'", 2) ∧
      ((getFinding reader 31) world'.db).1.toOption.map
          (fun detail => (detail.finding.title, detail.finding.supportCount)) =
        some ("2 documents linked to 'Outage'", 2)) ∧
    ∃ world world', exec step World.start
        [linked [] [], detectAt 100, linked [] [24, 25], detectAt 200] = some world ∧
      exec step World.start [linked [] [], detectAt 100] = some world' ∧
      Agree reader world.db world'.db ∧
      shownFindings reader world.db = shownFindings reader world'.db ∧
      ((listFindings reader none none 1) world.db).1.toOption.map List.length = some 0 ∧
      ((listFindings reader none none 1) world'.db).1.toOption.map List.length = some 1 := by
  constructor
  · have hexec : ((exec step World.start [linked [23] [], detectAt 100]).any fun world =>
        (exec step World.start [linked [] [], detectAt 100]).any fun world' =>
          decide (LooksSame world.db world'.db ∧
            ((getFinding reader 31) world.db).1.toOption.map
                (fun detail => (detail.finding.title, detail.finding.supportCount)) =
              some ("3 documents linked to 'Outage'", 2) ∧
            ((getFinding reader 31) world'.db).1.toOption.map
                (fun detail => (detail.finding.title, detail.finding.supportCount)) =
              some ("2 documents linked to 'Outage'", 2))) = true := by
      decide +kernel
    obtain ⟨world, world', hworld, hworld', hsame, htitles⟩ := exists_of_exec_pair hexec
    exact ⟨world, world', hworld, hworld', hsame.agree, hsame.2.2.2.2.2, htitles⟩
  · have hexec : ((exec step World.start
        [linked [] [], detectAt 100, linked [] [24, 25], detectAt 200]).any fun world =>
        (exec step World.start [linked [] [], detectAt 100]).any fun world' =>
          decide (LooksSame world.db world'.db ∧
            ((listFindings reader none none 1) world.db).1.toOption.map List.length = some 0 ∧
            ((listFindings reader none none 1) world'.db).1.toOption.map List.length =
              some 1)) = true := by
      decide +kernel
    obtain ⟨world, world', hworld, hworld', hsame, hpages⟩ := exists_of_exec_pair hexec
    exact ⟨world, world', hworld, hworld', hsame.agree, hsame.2.2.2.2.2, hpages⟩

end Ekip.Core.Proactive
