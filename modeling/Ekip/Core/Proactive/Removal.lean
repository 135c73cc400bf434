import Ekip.Core.Proactive.Book

/-!
# The removal of an entity as one operation on the book

Every entry loses the evidence that names the entity. The entries of the calling
organization that lost some are recomputed, once for each row they lost; doing
it twice changes nothing more.
-/
namespace Ekip.Core.Proactive

open Ekip.Lib Ekip.Database

/-- The item refers to the entity. -/
def CandidateEvidence.refersTo (entityType : EvidenceEntityType) (entityId : Uuid)
    (item : CandidateEvidence) : Bool :=
  item.entityType = entityType ∧ item.entityId = entityId

/-- What a removal leaves of a set of evidence. -/
def strike (entityType : EvidenceEntityType) (entityId : Uuid)
    (evidence : List CandidateEvidence) : List CandidateEvidence :=
  evidence.filter fun item => !item.refersTo entityType entityId

/-- An entry whose row follows its evidence. -/
def recomputed (now : Instant) (entry : Entry) : Entry :=
  if supportOf entry.evidence < (FindingType.spec entry.row.findingType).minimumSupport then
    { entry with row := Repository.deactivated now entry.row }
  else if entry.row.supportCount ≠ supportOf entry.evidence then
    { entry with row :=
        { entry.row with supportCount := supportOf entry.evidence, lastSeenAt := now } }
  else entry

def Book.struck (now : Instant) (organizationId : Uuid) (entityType : EvidenceEntityType)
    (entityId : Uuid) (b : Book) : Book := fun organizationId' fingerprint =>
  (b organizationId' fingerprint).map fun entry =>
    if organizationId' = organizationId ∧ entry.evidence.any (·.refersTo entityType entityId) then
      recomputed now { entry with evidence := strike entityType entityId entry.evidence }
    else { entry with evidence := strike entityType entityId entry.evidence }

theorem strike_of_none {entityType : EvidenceEntityType} {entityId : Uuid}
    {evidence : List CandidateEvidence}
    (h : evidence.any (·.refersTo entityType entityId) = false) :
    strike entityType entityId evidence = evidence := by
  refine List.filter_eq_self.mpr fun item hitem => ?_
  have hother := List.any_eq_false.mp h item hitem
  simpa using hother

theorem deactivated_twice (now : Instant) (row : ProactiveFinding) :
    Repository.deactivated now (Repository.deactivated now row) =
      Repository.deactivated now row := by
  unfold Repository.deactivated
  by_cases hactive : row.status = .active
  · simp [hactive]
  · simp [hactive]

section Recomputed

variable {now : Instant} {entry : Entry}

theorem recomputed_id : (recomputed now entry).row.id = entry.row.id := by
  unfold recomputed
  split
  · exact (keepsIdentity_deactivated now).id entry.row
  · split <;> rfl

theorem recomputed_evidence : (recomputed now entry).evidence = entry.evidence := by
  unfold recomputed
  split
  · rfl
  · split <;> rfl

theorem recomputed_twice : recomputed now (recomputed now entry) = recomputed now entry := by
  by_cases hbelow : supportOf entry.evidence <
      (FindingType.spec entry.row.findingType).minimumSupport
  · have hfirst : recomputed now entry =
        { entry with row := Repository.deactivated now entry.row } := if_pos hbelow
    have htype := (keepsIdentity_deactivated now).findingType entry.row
    rw [hfirst]
    unfold recomputed
    rw [if_pos (by rw [htype]; exact hbelow), deactivated_twice]
  · by_cases hcount : entry.row.supportCount ≠ supportOf entry.evidence
    · have hfirst : recomputed now entry =
          { entry with row :=
              { entry.row with supportCount := supportOf entry.evidence, lastSeenAt := now } } := by
        unfold recomputed
        rw [if_neg hbelow, if_pos hcount]
      rw [hfirst]
      unfold recomputed
      rw [if_neg hbelow, if_neg (fun h => h rfl)]
    · have hfirst : recomputed now entry = entry := by
        unfold recomputed
        rw [if_neg hbelow, if_neg hcount]
      rw [hfirst, hfirst]

end Recomputed

/-! ## The statements of the hook -/

section Hook

variable {db db' : ProactiveDb} {now : Instant} {organizationId findingId : Uuid}
  {entityType : EvidenceEntityType} {entityId : Uuid}

theorem evidenceOf_remove (other : Uuid) :
    evidenceOf { db with
        proactiveFindingEvidence := db.proactiveFindingEvidence.filter fun row =>
          !Repository.names entityType entityId row } other =
      strike entityType entityId (evidenceOf db other) := by
  unfold evidenceOf strike Repository.listEvidence
  rw [List.filter_map, List.filter_filter, List.filter_filter]
  congr 1
  refine List.filter_congr fun row _ => ?_
  exact Bool.and_comm _ _

/-- The evidence goes first, from every finding of every organization. -/
theorem removeEvidenceForEntity_returns {findingIds : List Uuid} (hkeyed : Keyed db)
    (h : (Repository.removeEvidenceForEntity entityType entityId).Returns db findingIds db') :
    Keyed db' ∧ SameSources db db' ∧
      (∀ findingId, findingId ∈ findingIds ↔
        (evidenceOf db findingId).any (·.refersTo entityType entityId) = true) ∧
      ∀ organizationId fingerprint, book db' organizationId fingerprint =
        (book db organizationId fingerprint).map fun entry =>
          { entry with evidence := strike entityType entityId entry.evidence } := by
  simp only [Repository.removeEvidenceForEntity, Service.bind_returns, Service.read_returns,
    Service.write_returns, Service.pure_returns] at h
  obtain ⟨_, _, ⟨rfl, rfl⟩, _, _, rfl, rfl, rfl⟩ := h
  refine ⟨⟨hkeyed.ids, hkeyed.identities⟩, ⟨rfl, rfl, rfl⟩, fun findingId => ?_,
    fun organizationId fingerprint => ?_⟩
  · unfold evidenceOf Repository.listEvidence
    rw [List.any_map, List.any_filter, List.any_eq_true, List.mem_map]
    constructor
    · rintro ⟨row, hrow, rfl⟩
      obtain ⟨hmem, hnames⟩ := List.mem_filter.mp hrow
      refine ⟨row, hmem, ?_⟩
      rw [decide_eq_true rfl, Bool.true_and]
      exact hnames
    · rintro ⟨row, hmem, hboth⟩
      obtain ⟨hfinding, hnames⟩ := (Bool.and_eq_true _ _).mp hboth
      exact ⟨row, List.mem_filter.mpr ⟨hmem, hnames⟩, of_decide_eq_true hfinding⟩
  · unfold book
    rw [Option.map_map]
    congr 1
    funext row
    show ({ row, evidence := evidenceOf _ row.id } : Entry) =
      { row, evidence := strike entityType entityId (evidenceOf db row.id) }
    rw [evidenceOf_remove]

/-- The row that `get_finding` reads for an entry of the book. -/
theorem getFinding_of_entry (hkeyed : Keyed db) {fingerprint : String} {entry : Entry}
    (hentry : book db organizationId fingerprint = some entry) :
    Repository.getFinding entry.row.id organizationId db = some entry.row := by
  obtain ⟨hmem, horg, _, _⟩ := book_some hentry
  cases hfound : Repository.getFinding entry.row.id organizationId db with
  | none =>
    have hnone := List.find?_eq_none.mp hfound entry.row hmem
    simp [horg] at hnone
  | some found =>
    have hboth := List.find?_some hfound
    simp only [decide_eq_true_eq] at hboth
    rw [hkeyed.id found (List.mem_of_find?_eq_some hfound) entry.row hmem hboth.1]

theorem updateFinding_self : Repository.updateFinding findingId (fun row => row) db = db := by
  unfold Repository.updateFinding
  rw [Table.updateWhere_of_fixed fun _ _ _ => rfl]

/-- At most one statement is issued, on the row of the finding. -/
theorem recomputeFinding_writes {n : Nat}
    (h : (recomputeFinding now organizationId findingId).Returns db n db') :
    ∃ change, KeepsIdentity change ∧ db' = Repository.updateFinding findingId change db ∧
      (Repository.getFinding findingId organizationId db = none → ∀ row, change row = row) ∧
      ∀ finding, Repository.getFinding findingId organizationId db = some finding →
        change finding =
          (recomputed now { row := finding, evidence := evidenceOf db findingId }).row := by
  simp only [recomputeFinding, Service.bind_returns, Service.read_returns] at h
  obtain ⟨_, _, ⟨rfl, rfl⟩, h⟩ := h
  have hkept : KeepsIdentity fun row : ProactiveFinding => row :=
    ⟨fun _ => rfl, fun _ => rfl, fun _ => rfl, fun _ => rfl, fun _ => rfl⟩
  cases hfound : Repository.getFinding findingId organizationId db with
  | none =>
    rw [hfound] at h
    obtain ⟨_, rfl⟩ := Service.pure_returns.mp h
    refine ⟨fun row => row, hkept, updateFinding_self.symm, fun _ _ => rfl, fun finding hfinding => ?_⟩
    cases hfinding
  | some finding =>
    rw [hfound] at h
    simp only [Service.bind_returns, Service.read_returns, Service.ite_returns,
      Service.pure_returns] at h
    obtain ⟨_, _, ⟨rfl, rfl⟩, h⟩ := h
    have hsupport : (Repository.listEvidence findingId db).countP
        (fun row => countsTowardSupport row.role) = supportOf (evidenceOf db findingId) := by
      unfold supportOf evidenceOf
      rw [List.countP_map]
      rfl
    rw [hsupport] at h
    rcases h with ⟨hbelow, ⟨hactive, h⟩ | ⟨hinactive, _, rfl⟩⟩ | ⟨henough, ⟨hcount, h⟩ | ⟨hsame, _, rfl⟩⟩
    · simp only [Repository.deactivateFinding, Service.bind_returns, Service.read_returns,
        Service.write_returns, Service.pure_returns] at h
      obtain ⟨_, _, ⟨_, _, ⟨rfl, rfl⟩, _, _, rfl, rfl, rfl⟩, _, rfl⟩ := h
      refine ⟨_, keepsIdentity_deactivated now, rfl, fun hnone => ?_, fun other hother => ?_⟩
      · cases hnone
      obtain rfl := Option.some.inj hother
      unfold recomputed
      rw [if_pos hbelow]
    · refine ⟨fun row => row, hkept, updateFinding_self.symm, fun _ _ => rfl,
        fun other hother => ?_⟩
      obtain rfl := Option.some.inj hother
      unfold recomputed
      rw [if_pos hbelow]
      exact (if_neg hinactive).symm
    · simp only [Repository.updateSupport, Service.write_returns] at h
      obtain ⟨_, _, rfl, _, rfl⟩ := h
      refine ⟨_, keepsIdentity_support _ now, rfl, fun hnone => ?_, fun other hother => ?_⟩
      · cases hnone
      obtain rfl := Option.some.inj hother
      unfold recomputed
      rw [if_neg henough, if_pos hcount]
    · refine ⟨fun row => row, hkept, updateFinding_self.symm, fun _ _ => rfl,
        fun other hother => ?_⟩
      obtain rfl := Option.some.inj hother
      unfold recomputed
      rw [if_neg henough, if_neg hsame]

theorem recomputeFinding_returns {n : Nat} (hkeyed : Keyed db)
    (h : (recomputeFinding now organizationId findingId).Returns db n db') :
    Keyed db' ∧ SameSources db db' ∧ ∀ organizationId' fingerprint,
      book db' organizationId' fingerprint =
        (book db organizationId' fingerprint).map fun entry =>
          if organizationId' = organizationId ∧ entry.row.id = findingId then recomputed now entry
          else entry := by
  obtain ⟨change, hkeeps, rfl, hnone, hsome⟩ := recomputeFinding_writes h
  refine ⟨keyed_updateFinding hkeyed hkeeps, ⟨rfl, rfl, rfl⟩, fun organizationId' fingerprint => ?_⟩
  rw [book_updateFinding hkeeps]
  cases hentry : book db organizationId' fingerprint with
  | none => rfl
  | some entry =>
    rw [Option.map_some, Option.map_some]
    congr 1
    by_cases hid : entry.row.id = findingId
    · subst hid
      rw [if_pos rfl]
      by_cases horg : organizationId' = organizationId
      · subst horg
        have hrow := hsome entry.row (getFinding_of_entry hkeyed hentry)
        have hevidence := (book_some hentry).2.2.2
        rw [← hevidence] at hrow
        have hkeep : (recomputed now entry).evidence = entry.evidence := recomputed_evidence
        rw [if_pos ⟨rfl, rfl⟩, hrow]
        show ({ row := (recomputed now entry).row, evidence := entry.evidence } : Entry) = _
        rw [← hkeep]
      · -- the row is another organization's, so the statement found none
        have hmissing : Repository.getFinding entry.row.id organizationId db = none := by
          refine List.find?_eq_none.mpr fun row hrow hboth => horg ?_
          obtain ⟨hsame, hof⟩ := of_decide_eq_true hboth
          obtain ⟨hmem, horg', _, _⟩ := book_some hentry
          obtain rfl := hkeyed.id row hrow entry.row hmem hsame
          exact horg'.symm.trans hof
        rw [if_neg fun hboth => horg hboth.1, hnone hmissing]
    · rw [if_neg hid, if_neg fun hboth => hid hboth.2]

theorem recomputeFindings_returns {findingIds : List Uuid} {n : Nat} (hkeyed : Keyed db)
    (h : (recomputeFindings now organizationId findingIds).Returns db n db') :
    Keyed db' ∧ SameSources db db' ∧ ∀ organizationId' fingerprint,
      book db' organizationId' fingerprint =
        (book db organizationId' fingerprint).map fun entry =>
          if organizationId' = organizationId ∧ entry.row.id ∈ findingIds then recomputed now entry
          else entry := by
  induction findingIds generalizing db n with
  | nil =>
    simp only [recomputeFindings, Service.pure_returns] at h
    obtain ⟨_, rfl⟩ := h
    refine ⟨hkeyed, .refl db, fun organizationId' fingerprint => ?_⟩
    simp
  | cons findingId findingIds ih =>
    simp only [recomputeFindings, Service.bind_returns, Service.pure_returns] at h
    obtain ⟨_, db₁, hfirst, _, db₂, hrest, _, rfl⟩ := h
    obtain ⟨hkeyed₁, hsources₁, hbook₁⟩ := recomputeFinding_returns hkeyed hfirst
    obtain ⟨hkeyed₂, hsources₂, hbook₂⟩ := ih hkeyed₁ hrest
    refine ⟨hkeyed₂, hsources₁.trans hsources₂, fun organizationId' fingerprint => ?_⟩
    rw [hbook₂, hbook₁, Option.map_map]
    congr 1
    funext entry
    show (if organizationId' = organizationId ∧ (if _ then recomputed now entry else entry).row.id ∈
      findingIds then _ else _) = _
    by_cases horg : organizationId' = organizationId
    · by_cases hfirst : entry.row.id = findingId
      · simp [horg, hfirst, recomputed_id, recomputed_twice]
      · simp [horg, hfirst]
    · simp [horg]

/-- The hook as a whole. -/
theorem handleEvidenceEntityRemoved_returns {n : Nat} (hkeyed : Keyed db)
    (h : (handleEvidenceEntityRemoved now organizationId entityType entityId).Returns db n db') :
    Keyed db' ∧ SameSources db db' ∧
      book db' = (book db).struck now organizationId entityType entityId := by
  simp only [handleEvidenceEntityRemoved, Service.bind_returns] at h
  obtain ⟨findingIds, db₁, hremove, hrecompute⟩ := h
  obtain ⟨hkeyed₁, hsources₁, hids, hbook₁⟩ := removeEvidenceForEntity_returns hkeyed hremove
  obtain ⟨hkeyed₂, hsources₂, hbook₂⟩ := recomputeFindings_returns hkeyed₁ hrecompute
  refine ⟨hkeyed₂, hsources₁.trans hsources₂, ?_⟩
  funext organizationId' fingerprint
  rw [hbook₂, hbook₁, Option.map_map]
  unfold Book.struck
  cases hentry : book db organizationId' fingerprint with
  | none => rfl
  | some entry =>
    rw [Option.map_some, Option.map_some]
    congr 1
    have hnamed : entry.row.id ∈ findingIds ↔
        entry.evidence.any (·.refersTo entityType entityId) = true := by
      rw [hids, (book_some hentry).2.2.2]
    show (if organizationId' = organizationId ∧ entry.row.id ∈ findingIds then _ else _) = _
    simp only [hnamed]

end Hook

end Ekip.Core.Proactive
