import Ekip.Core.Proactive.Service

/-!
# The findings as a book of patterns

A pattern is known by its organization and its fingerprint. The book says, for
each, what the organization holds of it: one row with its evidence, or nothing.
The statements on the two tables are then operations on single entries.
-/
namespace Ekip.Core.Proactive

open Ekip.Lib Ekip.Database

/-- What a row of evidence refers to. -/
def reference (row : ProactiveFindingEvidence) : CandidateEvidence :=
  { entityType := row.entityType, entityId := row.entityId, role := row.role }

/-- The references that count. -/
def supportOf (evidence : List CandidateEvidence) : Nat :=
  evidence.countP fun item => countsTowardSupport item.role

structure Entry where
  row : ProactiveFinding
  evidence : List CandidateEvidence

abbrev Book := Uuid → String → Option Entry

def evidenceOf (db : ProactiveDb) (findingId : Uuid) : List CandidateEvidence :=
  (Repository.listEvidence findingId db).map reference

/-- The book that the tables keep. -/
def book (db : ProactiveDb) : Book := fun organizationId fingerprint =>
  (Repository.getFindingByFingerprint organizationId fingerprint db).map fun row =>
    { row, evidence := evidenceOf db row.id }

/-- What makes a pattern one. -/
def identity (row : ProactiveFinding) : Uuid × String := (row.organizationId, row.fingerprint)

/-- The keys of `proactive_findings`: no two rows under one. -/
structure Keyed (db : ProactiveDb) : Prop where
  ids : (db.proactiveFindings.map ProactiveFinding.id).Nodup
  identities : (db.proactiveFindings.map identity).Nodup

theorem Keyed.id {db : ProactiveDb} (h : Keyed db) :
    Table.KeyUnique ProactiveFinding.id db.proactiveFindings :=
  Table.keyUnique_of_nodup h.ids

theorem Keyed.identity {db : ProactiveDb} (h : Keyed db) :
    Table.KeyUnique identity db.proactiveFindings :=
  Table.keyUnique_of_nodup h.identities

/-- Detection and removal write the two tables of findings only. -/
structure SameSources (db db' : ProactiveDb) : Prop where
  incidents : db'.incidents = db.incidents
  documents : db'.documents = db.documents
  edges : db'.knowledgeGraphEdges = db.knowledgeGraphEdges

theorem SameSources.refl (db : ProactiveDb) : SameSources db db := ⟨rfl, rfl, rfl⟩

theorem SameSources.trans {db db' db'' : ProactiveDb} (h : SameSources db db')
    (h' : SameSources db' db'') : SameSources db db'' :=
  ⟨h'.incidents.trans h.incidents, h'.documents.trans h.documents, h'.edges.trans h.edges⟩

section Lookup

variable {db : ProactiveDb} {organizationId : Uuid} {fingerprint : String} {entry : Entry}

theorem book_some (h : book db organizationId fingerprint = some entry) :
    entry.row ∈ db.proactiveFindings ∧ entry.row.organizationId = organizationId ∧
      entry.row.fingerprint = fingerprint ∧ entry.evidence = evidenceOf db entry.row.id := by
  obtain ⟨row, hrow, rfl⟩ := Option.map_eq_some_iff.mp h
  have hboth := List.find?_some hrow
  simp only [decide_eq_true_eq] at hboth
  exact ⟨List.mem_of_find?_eq_some hrow, hboth.1, hboth.2, rfl⟩

theorem book_of_mem (hkeyed : Keyed db) {row : ProactiveFinding}
    (hrow : row ∈ db.proactiveFindings) :
    book db row.organizationId row.fingerprint = some { row, evidence := evidenceOf db row.id } := by
  have hfind : Repository.getFindingByFingerprint row.organizationId row.fingerprint db =
      some row := by
    cases hfound : Repository.getFindingByFingerprint row.organizationId row.fingerprint db with
    | none =>
      have hnone := List.find?_eq_none.mp hfound row hrow
      simp at hnone
    | some found =>
      have hboth := List.find?_some hfound
      simp only [decide_eq_true_eq] at hboth
      have hsame := hkeyed.identity found (List.mem_of_find?_eq_some hfound) row hrow
        (Prod.ext hboth.1 hboth.2)
      rw [hsame]
  unfold book
  rw [hfind]
  rfl

/-- Entries of different patterns have different rows. -/
theorem pattern_of_id (hkeyed : Keyed db) {organizationId' : Uuid} {fingerprint' : String}
    {entry' : Entry} (h : book db organizationId fingerprint = some entry)
    (h' : book db organizationId' fingerprint' = some entry') (hid : entry.row.id = entry'.row.id) :
    organizationId = organizationId' ∧ fingerprint = fingerprint' := by
  obtain ⟨hmem, horg, hfp, _⟩ := book_some h
  obtain ⟨hmem', horg', hfp', _⟩ := book_some h'
  have hsame := hkeyed.id _ hmem _ hmem' hid
  exact ⟨by rw [← horg, hsame, horg'], by rw [← hfp, hsame, hfp']⟩

end Lookup

/-! ## Single statements -/

section Statements

variable {db : ProactiveDb} {findingId organizationId : Uuid} {fingerprint : String}

/-- Rewriting a row by its id, where the change leaves its identity alone. -/
structure KeepsIdentity (change : ProactiveFinding → ProactiveFinding) : Prop where
  id : ∀ row, (change row).id = row.id
  organizationId : ∀ row, (change row).organizationId = row.organizationId
  fingerprint : ∀ row, (change row).fingerprint = row.fingerprint
  findingType : ∀ row, (change row).findingType = row.findingType
  firstSeenAt : ∀ row, (change row).firstSeenAt = row.firstSeenAt

theorem keyed_updateFinding (hkeyed : Keyed db) {change : ProactiveFinding → ProactiveFinding}
    (hchange : KeepsIdentity change) : Keyed (Repository.updateFinding findingId change db) where
  ids := by
    show ((Table.updateWhere db.proactiveFindings _ change).map ProactiveFinding.id).Nodup
    rw [Table.map_key_updateWhere hchange.id]
    exact hkeyed.ids
  identities := by
    show ((Table.updateWhere db.proactiveFindings _ change).map identity).Nodup
    rw [Table.map_key_updateWhere fun row =>
      Prod.ext (hchange.organizationId row) (hchange.fingerprint row)]
    exact hkeyed.identities

/-- `UPDATE … WHERE id`, seen entry by entry. -/
theorem book_updateFinding {change : ProactiveFinding → ProactiveFinding}
    (hchange : KeepsIdentity change) :
    book (Repository.updateFinding findingId change db) organizationId fingerprint =
      (book db organizationId fingerprint).map fun entry =>
        if entry.row.id = findingId then { entry with row := change entry.row } else entry := by
  have hsame : ((fun row : ProactiveFinding => decide (row.organizationId = organizationId ∧
      row.fingerprint = fingerprint)) ∘ fun row =>
        if decide (row.id = findingId) = true then change row else row) =
      fun row => decide (row.organizationId = organizationId ∧ row.fingerprint = fingerprint) := by
    funext row
    by_cases hid : row.id = findingId
    · simp [hid, hchange.organizationId, hchange.fingerprint]
    · simp [hid]
  unfold book Repository.getFindingByFingerprint Repository.updateFinding Table.updateWhere
  rw [List.find?_map, hsame, Option.map_map, Option.map_map]
  congr 1
  funext row
  by_cases hid : row.id = findingId
  · simp only [Function.comp, hid, decide_true, if_true, hchange.id]
    rfl
  · simp only [Function.comp, hid, decide_false, Bool.false_eq_true, if_false]
    rfl

theorem keepsIdentity_rewritten (values : Repository.FindingValues) (seenAt : Instant) :
    KeepsIdentity fun row => (Repository.rewrittenFinding row values seenAt).1 := by
  constructor <;> intro row <;> unfold Repository.rewrittenFinding <;> split <;> rfl

theorem keepsIdentity_deactivated (deactivatedAt : Instant) :
    KeepsIdentity (Repository.deactivated deactivatedAt) := by
  constructor <;> intro row <;> unfold Repository.deactivated <;> split <;> rfl

theorem keepsIdentity_support (supportCount : Nat) (seenAt : Instant) :
    KeepsIdentity fun row => { row with supportCount, lastSeenAt := seenAt } :=
  ⟨fun _ => rfl, fun _ => rfl, fun _ => rfl, fun _ => rfl, fun _ => rfl⟩

/-- `INSERT`, for a pattern that is new. -/
theorem insertFinding_returns {row : ProactiveFinding} {db' : ProactiveDb} {u : Unit}
    (hkeyed : Keyed db) (h : (Repository.insertFinding row).Returns db u db') :
    Keyed db' ∧ db' = { db with proactiveFindings := db.proactiveFindings ++ [row] } ∧
      ∀ other ∈ db.proactiveFindings, other.id ≠ row.id := by
  simp only [Repository.insertFinding, Service.bind_returns, Service.read_returns,
    Service.raiseIf_returns, Service.write_returns] at h
  obtain ⟨_, _, ⟨rfl, rfl⟩, _, _, ⟨hfree, rfl⟩, rfl⟩ := h
  have hnew : ∀ other ∈ db.proactiveFindings, other.id ≠ row.id ∧
      ¬ (other.organizationId = row.organizationId ∧ other.fingerprint = row.fingerprint) := by
    intro other hother
    have hfalse := List.any_eq_false.mp hfree other hother
    simpa [not_or] using hfalse
  refine ⟨⟨?_, ?_⟩, rfl, fun other hother => (hnew other hother).1⟩
  · exact Table.nodup_keys_append hkeyed.ids fun other hother => (hnew other hother).1
  · refine Table.nodup_keys_append hkeyed.identities fun other hother heq => ?_
    exact (hnew other hother).2 ⟨congrArg Prod.fst heq, congrArg Prod.snd heq⟩

theorem getFindingByFingerprint_append {row : ProactiveFinding} :
    Repository.getFindingByFingerprint organizationId fingerprint
        { db with proactiveFindings := db.proactiveFindings ++ [row] } =
      (Repository.getFindingByFingerprint organizationId fingerprint db).or
        (if row.organizationId = organizationId ∧ row.fingerprint = fingerprint then some row
          else none) := by
  unfold Repository.getFindingByFingerprint
  rw [List.find?_append]
  congr 1
  by_cases hrow : row.organizationId = organizationId ∧ row.fingerprint = fingerprint
  · simp [hrow]
  · simp [hrow]

/-- The evidence of one finding is replaced, that of the others stays. -/
theorem evidenceOf_replace {evidence : List CandidateEvidence} {db' : ProactiveDb} {u : Unit}
    (h : (Repository.replaceEvidence findingId evidence).Returns db u db') (other : Uuid) :
    evidenceOf db' other = if other = findingId then evidence else evidenceOf db other := by
  simp only [Repository.replaceEvidence, Service.bind_returns, Service.raiseIf_returns,
    Service.write_returns] at h
  obtain ⟨_, _, ⟨_, rfl⟩, rfl⟩ := h
  unfold evidenceOf Repository.listEvidence
  rw [List.filter_append, List.map_append]
  by_cases hother : other = findingId
  · subst hother
    have hgone : (db.proactiveFindingEvidence.filter fun row => row.findingId ≠ other).filter
        (fun row => row.findingId = other) = [] := by
      refine List.filter_eq_nil_iff.mpr fun row hrow => ?_
      have hne := (List.mem_filter.mp hrow).2
      simpa using hne
    have hnew : (evidence.map (Repository.evidenceRow other)).filter
        (fun row => row.findingId = other) = evidence.map (Repository.evidenceRow other) := by
      refine List.filter_eq_self.mpr fun row hrow => ?_
      obtain ⟨item, _, rfl⟩ := List.mem_map.mp hrow
      simp [Repository.evidenceRow]
    rw [hgone, hnew, if_pos rfl, List.map_nil, List.nil_append, List.map_map]
    exact List.map_id _
  · have hold : (db.proactiveFindingEvidence.filter fun row => row.findingId ≠ findingId).filter
        (fun row => row.findingId = other) =
        db.proactiveFindingEvidence.filter fun row => row.findingId = other := by
      rw [List.filter_filter]
      refine List.filter_congr fun row _ => ?_
      by_cases hrow : row.findingId = other
      · simp [hrow, hother]
      · simp [hrow]
    have hnew : (evidence.map (Repository.evidenceRow findingId)).filter
        (fun row => row.findingId = other) = [] := by
      refine List.filter_eq_nil_iff.mpr fun row hrow => ?_
      obtain ⟨item, _, rfl⟩ := List.mem_map.mp hrow
      show ¬ decide (findingId = other) = true
      simpa using Ne.symm hother
    rw [hold, hnew, if_neg hother, List.map_nil, List.append_nil]

theorem replaceEvidence_returns {evidence : List CandidateEvidence} {db' : ProactiveDb} {u : Unit}
    (h : (Repository.replaceEvidence findingId evidence).Returns db u db') :
    evidence.Nodup ∧
      db' = { db with proactiveFindingEvidence := db'.proactiveFindingEvidence } := by
  simp only [Repository.replaceEvidence, Service.bind_returns, Service.raiseIf_returns,
    Service.write_returns] at h
  obtain ⟨_, _, ⟨hnodup, rfl⟩, rfl⟩ := h
  exact ⟨by simpa using hnodup, rfl⟩

end Statements

/-! ## One candidate -/

section Reconcile

variable {db db' : ProactiveDb} {newIds : NewIds} {now : Instant} {organizationId : Uuid}
  {candidate : CandidateFinding}

/-- What becomes of the entry of a candidate's pattern. -/
def reconciled (newIds : NewIds) (now : Instant) (organizationId : Uuid)
    (candidate : CandidateFinding) : Option Entry → Entry × UpsertAction
  | none =>
    ({ row := Repository.createdFinding (newIds candidate.fingerprint) organizationId
        candidate.values now
       evidence := candidate.evidence }, .created)
  | some entry =>
    ({ row := (Repository.rewrittenFinding entry.row candidate.values now).1
       evidence := candidate.evidence },
      (Repository.rewrittenFinding entry.row candidate.values now).2)

/-- A book with one entry replaced. -/
def Book.set (b : Book) (organizationId : Uuid) (fingerprint : String) (entry : Entry) : Book :=
  fun organizationId' fingerprint' =>
    if organizationId' = organizationId ∧ fingerprint' = fingerprint then some entry
    else b organizationId' fingerprint'

theorem upsertFinding_of_new {newId : Uuid} {values : Repository.FindingValues}
    {row : ProactiveFinding} {action : UpsertAction} (hkeyed : Keyed db)
    (hnone : Repository.getFindingByFingerprint organizationId values.fingerprint db = none)
    (h : (Repository.upsertFinding newId organizationId values now).Returns db (row, action) db') :
    Keyed db' ∧ row = Repository.createdFinding newId organizationId values now ∧
      action = .created ∧
      db' = { db with proactiveFindings := db.proactiveFindings ++ [row] } ∧
      ∀ other ∈ db.proactiveFindings, other.id ≠ row.id := by
  simp only [Repository.upsertFinding, Service.bind_returns, Service.read_returns] at h
  obtain ⟨_, _, ⟨rfl, rfl⟩, h⟩ := h
  rw [hnone] at h
  simp only [Service.bind_returns, Service.pure_returns, Prod.mk.injEq] at h
  obtain ⟨_, _, hinsert, ⟨rfl, rfl⟩, rfl⟩ := h
  obtain ⟨hkeyed', hstate, hfresh⟩ := insertFinding_returns hkeyed hinsert
  exact ⟨hkeyed', rfl, rfl, hstate, hfresh⟩

theorem upsertFinding_of_existing {newId : Uuid} {values : Repository.FindingValues}
    {existing row : ProactiveFinding} {action : UpsertAction}
    (hsome : Repository.getFindingByFingerprint organizationId values.fingerprint db = some existing) :
    (Repository.upsertFinding newId organizationId values now).Returns db (row, action) db' ↔
      (row, action) = Repository.rewrittenFinding existing values now ∧
        db' = Repository.updateFinding existing.id
          (fun row => (Repository.rewrittenFinding row values now).1) db := by
  simp only [Repository.upsertFinding, Service.bind_returns, Service.read_returns]
  constructor
  · rintro ⟨_, _, ⟨rfl, rfl⟩, h⟩
    rw [hsome] at h
    simp only [Service.bind_returns, Service.write_returns, Service.pure_returns] at h
    obtain ⟨_, _, rfl, hpair, rfl⟩ := h
    exact ⟨hpair.symm, rfl⟩
  · rintro ⟨hpair, rfl⟩
    refine ⟨_, _, ⟨rfl, rfl⟩, ?_⟩
    rw [hsome]
    simp only [Service.bind_returns, Service.write_returns, Service.pure_returns]
    exact ⟨(), _, rfl, hpair.symm, rfl⟩

theorem book_replaceEvidence {findingId : Uuid} {evidence : List CandidateEvidence} {u : Unit}
    (h : (Repository.replaceEvidence findingId evidence).Returns db u db') (organizationId : Uuid)
    (fingerprint : String) :
    book db' organizationId fingerprint = (book db organizationId fingerprint).map fun entry =>
      if entry.row.id = findingId then { entry with evidence } else entry := by
  have hrows : Repository.getFindingByFingerprint organizationId fingerprint db' =
      Repository.getFindingByFingerprint organizationId fingerprint db := by
    rw [(replaceEvidence_returns h).2]
    rfl
  unfold book
  rw [hrows, Option.map_map]
  congr 1
  funext row
  show ({ row, evidence := evidenceOf db' row.id } : Entry) =
    if row.id = findingId then { row, evidence } else { row, evidence := evidenceOf db row.id }
  rw [evidenceOf_replace h]
  by_cases hid : row.id = findingId
  · rw [if_pos hid, if_pos hid]
  · rw [if_neg hid, if_neg hid]

theorem book_append {row : ProactiveFinding}
    (hnone : book db row.organizationId row.fingerprint = none) :
    book { db with proactiveFindings := db.proactiveFindings ++ [row] } =
      (book db).set row.organizationId row.fingerprint
        { row, evidence := evidenceOf db row.id } := by
  funext organizationId' fingerprint'
  unfold Book.set
  show (Repository.getFindingByFingerprint organizationId' fingerprint'
    { db with proactiveFindings := db.proactiveFindings ++ [row] }).map _ = _
  rw [getFindingByFingerprint_append]
  by_cases hkey : organizationId' = row.organizationId ∧ fingerprint' = row.fingerprint
  · obtain ⟨rfl, rfl⟩ := hkey
    have hfree : Repository.getFindingByFingerprint row.organizationId row.fingerprint db = none :=
      Option.map_eq_none_iff.mp hnone
    rw [hfree, if_pos ⟨rfl, rfl⟩, if_pos ⟨rfl, rfl⟩]
    rfl
  · have hkey' : ¬ (row.organizationId = organizationId' ∧ row.fingerprint = fingerprint') :=
      fun h => hkey ⟨h.1.symm, h.2.symm⟩
    rw [if_neg hkey, if_neg hkey', Option.or_none]
    rfl

/-- The candidate passes its own check. -/
structure Valid (spec : FindingSpec) (candidate : CandidateFinding) : Prop where
  support : spec.minimumSupport ≤ candidate.supportCount
  roles : unknownRoles spec candidate = []

theorem validateCandidate_returns {spec : FindingSpec} {u : Unit} :
    (validateCandidate spec candidate).Returns db u db' ↔ Valid spec candidate ∧ db = db' := by
  simp only [validateCandidate, Service.bind_returns, Service.raiseIf_returns,
    decide_eq_false_iff_not, not_lt, ne_eq, Decidable.not_not]
  constructor
  · rintro ⟨_, _, ⟨hsupport, rfl⟩, hroles, rfl⟩
    exact ⟨⟨hsupport, hroles⟩, rfl⟩
  · rintro ⟨hvalid, rfl⟩
    exact ⟨(), _, ⟨hvalid.support, rfl⟩, hvalid.roles, rfl⟩

/-- One round of the loop replaces the entry of the candidate's pattern. -/
theorem reconcileCandidate_returns {spec : FindingSpec} {action : UpsertAction} (hkeyed : Keyed db)
    (h : (reconcileCandidate newIds now organizationId spec candidate).Returns db action db') :
    Keyed db' ∧ SameSources db db' ∧ Valid spec candidate ∧ candidate.evidence.Nodup ∧
      action = (reconciled newIds now organizationId candidate
        (book db organizationId candidate.fingerprint)).2 ∧
      book db' = (book db).set organizationId candidate.fingerprint
        (reconciled newIds now organizationId candidate
          (book db organizationId candidate.fingerprint)).1 := by
  simp only [reconcileCandidate, Service.bind_returns, validateCandidate_returns] at h
  obtain ⟨_, _, ⟨hvalid, rfl⟩, ⟨row, action'⟩, db₁, hupsert, h⟩ := h
  obtain ⟨_, _, hreplace, rfl, rfl⟩ := h
  obtain ⟨hnodup, hstate'⟩ := replaceEvidence_returns hreplace
  have hbook' := book_replaceEvidence hreplace
  have hkeyed_of (hkeyed₁ : Keyed db₁) : Keyed db' := by
    rw [hstate']
    exact ⟨hkeyed₁.ids, hkeyed₁.identities⟩
  cases hfound : Repository.getFindingByFingerprint organizationId candidate.fingerprint db with
  | none =>
    have hnone : book db organizationId candidate.fingerprint = none := by
      unfold book
      rw [hfound]
      rfl
    obtain ⟨hkeyed₁, rfl, rfl, hstate, hfresh⟩ := upsertFinding_of_new hkeyed hfound hupsert
    have hsources : SameSources db db' := by
      rw [hstate', hstate]
      exact ⟨rfl, rfl, rfl⟩
    have hbook₁ : book db₁ = (book db).set organizationId candidate.fingerprint
        { row := Repository.createdFinding (newIds candidate.fingerprint) organizationId
            candidate.values now
          evidence := evidenceOf db (newIds candidate.fingerprint) } := by
      rw [hstate]
      exact book_append hnone
    refine ⟨hkeyed_of hkeyed₁, hsources, hvalid, hnodup, by rw [hnone]; rfl, ?_⟩
    funext organizationId' fingerprint'
    rw [hbook', hbook₁, hnone]
    unfold Book.set
    by_cases hkey : organizationId' = organizationId ∧ fingerprint' = candidate.fingerprint
    · rw [if_pos hkey, if_pos hkey]
      simp [reconciled]
    · rw [if_neg hkey, if_neg hkey]
      cases hentry : book db organizationId' fingerprint' with
      | none => rfl
      | some entry =>
        obtain ⟨hmem, _⟩ := book_some hentry
        rw [Option.map_some, if_neg (hfresh entry.row hmem)]
  | some existing =>
    have hsome : book db organizationId candidate.fingerprint =
        some { row := existing, evidence := evidenceOf db existing.id } := by
      unfold book
      rw [hfound]
      rfl
    obtain ⟨hpair, hstate⟩ := (upsertFinding_of_existing hfound).mp hupsert
    have hrow : row = (Repository.rewrittenFinding existing candidate.values now).1 :=
      congrArg Prod.fst hpair
    have hid : row.id = existing.id := by
      rw [hrow]
      exact (keepsIdentity_rewritten candidate.values now).id existing
    have hsources : SameSources db db' := by
      rw [hstate', hstate]
      exact ⟨rfl, rfl, rfl⟩
    have hkeyed₁ : Keyed db₁ := by
      rw [hstate]
      exact keyed_updateFinding hkeyed (keepsIdentity_rewritten _ _)
    refine ⟨hkeyed_of hkeyed₁, hsources, hvalid, hnodup,
      by rw [hsome]; exact congrArg Prod.snd hpair, ?_⟩
    funext organizationId' fingerprint'
    rw [hbook', hstate, book_updateFinding (keepsIdentity_rewritten _ _), hsome]
    unfold Book.set
    by_cases hkey : organizationId' = organizationId ∧ fingerprint' = candidate.fingerprint
    · obtain ⟨rfl, rfl⟩ := hkey
      rw [if_pos ⟨rfl, rfl⟩, hsome]
      simp only [Option.map_some, if_true, hid, (keepsIdentity_rewritten _ _).id]
      rfl
    · rw [if_neg hkey]
      cases hentry : book db organizationId' fingerprint' with
      | none => rfl
      | some entry =>
        have hne : entry.row.id ≠ existing.id := fun heq =>
          hkey (pattern_of_id hkeyed hentry hsome heq)
        simp only [Option.map_some, if_neg hne, hid]

end Reconcile

end Ekip.Core.Proactive
