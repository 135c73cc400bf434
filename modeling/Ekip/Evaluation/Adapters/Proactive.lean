import Mathlib.Algebra.Field.Rat
import Mathlib.Algebra.Order.Ring.Rat
import Mathlib.Logic.Equiv.List
import Ekip.Core.Proactive.Service
import Ekip.Evaluation.Adapters.Memory

/-!
# The two adapters for findings: `evaluation/adapters/proactive.py`

The fixture decides by the project of the finding what production decides by the project and
organization of each piece of evidence.
-/
namespace Ekip.Evaluation

open Ekip.Lib Ekip.Database Ekip.Shared Ekip.Core

/-! ## `evaluation/fixtures/proactive_corpus.py` -/

def orgPrimary : String := "eval-org"
def projectPlatform : Uuid := 0x44444444444454448444444444444444

structure FindingFixture where
  label : String
  organizationId : String := orgPrimary
  projectId : Option Uuid := some projectPlatform
  findingType : FindingType := .recurringIncidentSeverity
  status : FindingStatus := .active

structure EvidenceFixture where
  findingLabel : String
  entityType : EvidenceEntityType
  role : String
  documentStatus : DocumentStatus := .published
  deleted : Bool := false

/-! ## `FixtureProactiveAdapter` -/

namespace FixtureProactiveAdapter

def documentVisible (evidence : EvidenceFixture) (identity : Identity)
    (projectUuid : Option Uuid) : Bool :=
  if evidence.deleted then false
  else if evidence.documentStatus = .published then true
  else identity.hasPermission "knowledge:review" projectUuid

def incidentVisible (evidence : EvidenceFixture) : Bool := !evidence.deleted

def evidenceVisible (identity : Identity) (projectUuid : Option Uuid) (item : EvidenceFixture) :
    Bool :=
  match item.entityType with
  | .document => documentVisible item identity projectUuid
  | .incident => incidentVisible item

def support (evidence : List EvidenceFixture) (identity : Identity) (finding : FindingFixture) :
    Nat :=
  evidence.countP fun item => decide (item.findingLabel = finding.label) &&
    (evidenceVisible identity finding.projectId item && Proactive.countsTowardSupport item.role)

def visible (naming : Naming) (evidence : List EvidenceFixture) (case : EvaluationCase)
    (finding : FindingFixture) : Bool :=
  if finding.organizationId ≠ case.organizationId then false
  else if finding.status ≠ .active then false
  else
    let identity := case.identity.toIdentity (naming.organizationUuid case.organizationId)
    if !identity.hasPermission "incident:read" finding.projectId then false
    else
      let spec := Proactive.FindingType.spec finding.findingType
      decide (spec.minimumSupport ≤ support evidence identity finding)

def listFindings (naming : Naming) (findings : List FindingFixture)
    (evidence : List EvidenceFixture) (case : EvaluationCase) : List String :=
  ((findings.filter (visible naming evidence case)).map FindingFixture.label).insertionSort
    fun a b => a ≤ b

end FixtureProactiveAdapter

/-! ## `RealProactiveAdapter` -/

namespace RealProactiveAdapter

def listFindings (naming : Naming) (case : EvaluationCase) : Proactive.ProactiveM (List String) := do
  let actor := case.identity.toIdentity (naming.organizationUuid case.organizationId)
  let findings ← Proactive.listFindings actor
  pure (findings.map fun finding => toString finding.id)

end RealProactiveAdapter

/-! ## One corpus, stored -/

structure FindingFixture.StoredAs (naming : Naming) (finding : FindingFixture)
    (row : ProactiveFinding) : Prop where
  id : row.id = naming.findingId finding.label
  organization : row.organizationId = naming.organizationUuid finding.organizationId
  project : row.projectId = finding.projectId
  findingType : row.findingType = finding.findingType
  status : row.status = finding.status

/-- A piece of evidence, and where the entity lives that it refers to. -/
structure PlacedEvidence extends EvidenceFixture where
  entityId : Uuid
  organizationId : String
  projectId : Uuid

def PlacedEvidence.row (naming : Naming) (item : PlacedEvidence) : ProactiveFindingEvidence :=
  { findingId := naming.findingId item.findingLabel
    entityType := item.entityType
    entityId := item.entityId
    role := item.role }

/-- The row of the entity stays where it was deleted, with the time of its deletion. -/
structure PlacedEvidence.StoredIn (naming : Naming) (db : ProactiveDb) (item : PlacedEvidence) :
    Prop where
  incident : item.entityType = .incident →
    ∃ row, Proactive.Repository.getIncidentById item.entityId db = some row ∧
      row.organizationId = naming.organizationUuid item.organizationId ∧
      row.projectId = item.projectId ∧ row.deletedAt.isSome = item.deleted
  document : item.entityType = .document →
    ∃ row, Proactive.Repository.getDocumentById item.entityId db = some row ∧
      row.organizationId = naming.organizationUuid item.organizationId ∧
      row.projectId = item.projectId ∧ row.deletedAt.isSome = item.deleted ∧
      row.status = item.documentStatus

/-- Findings with a label of their own, and the database that holds them. -/
structure FindingCorpus (naming : Naming) where
  findings : List FindingFixture
  evidence : List PlacedEvidence
  labels_nodup : (findings.map FindingFixture.label).Nodup
  row : FindingFixture → ProactiveFinding
  db : ProactiveDb
  findings_stored : ∀ finding ∈ findings, finding.StoredAs naming (row finding)
  finding_rows : db.proactiveFindings = findings.map row
  evidence_stored : ∀ item ∈ evidence, item.StoredIn naming db
  evidence_rows : db.proactiveFindingEvidence = evidence.map (PlacedEvidence.row naming)

namespace FindingCorpus

variable {naming : Naming} (corpus : FindingCorpus naming) (case : EvaluationCase)

def fixtures : List EvidenceFixture := corpus.evidence.map PlacedEvidence.toEvidenceFixture

def FindingsAgree : Prop :=
  ∃ listed, (RealProactiveAdapter.listFindings naming case).Returns corpus.db listed corpus.db ∧
    listed.Perm ((FixtureProactiveAdapter.listFindings naming corpus.findings corpus.fixtures
      case).map fun label => toString (naming.findingId label))

/-! ## How the two judge a piece of evidence -/

/-- The identity that both adapters build. -/
abbrev actor (naming : Naming) (case : EvaluationCase) : Identity :=
  case.identity.toIdentity (naming.organizationUuid case.organizationId)

/-- By the finding's project. -/
def counted (naming : Naming) (finding : FindingFixture) (item : PlacedEvidence) : Bool :=
  FixtureProactiveAdapter.evidenceVisible (actor naming case) finding.projectId
    item.toEvidenceFixture

/-- By the organization and project of the entity; of an incident it does not matter whether
it was deleted. -/
def readable (naming : Naming) (item : PlacedEvidence) : Bool :=
  decide (item.organizationId = case.organizationId) &&
    match item.entityType with
    | .incident => (actor naming case).hasPermission "incident:read" (some item.projectId)
    | .document => !item.deleted && (decide (item.documentStatus = .published) ||
        (actor naming case).hasPermission "knowledge:review" (some item.projectId))

def supporting (finding : FindingFixture) : List PlacedEvidence :=
  corpus.evidence.filter fun item => decide (item.findingLabel = finding.label) &&
    Proactive.countsTowardSupport item.role

def agreed (finding : FindingFixture) : Nat :=
  (corpus.supporting finding).countP fun item =>
    counted case naming finding item && readable case naming item

def onlyCounted (finding : FindingFixture) : Nat :=
  (corpus.supporting finding).countP fun item =>
    counted case naming finding item && !readable case naming item

def onlyReadable (finding : FindingFixture) : Nat :=
  (corpus.supporting finding).countP fun item =>
    !counted case naming finding item && readable case naming item

def minimum (finding : FindingFixture) : Nat :=
  (Proactive.FindingType.spec finding.findingType).minimumSupport

/-- An inactive finding has too little support that is readable. What is judged in two ways
does not carry the support of an active one across the threshold. -/
structure ThresholdKept (finding : FindingFixture) : Prop where
  inactive : finding.status = .inactive →
    corpus.agreed case finding + corpus.onlyReadable case finding < minimum finding
  active : finding.status = .active →
    (minimum finding ≤ corpus.agreed case finding + corpus.onlyCounted case finding ↔
      minimum finding ≤ corpus.agreed case finding + corpus.onlyReadable case finding)

/-- It is asked of the findings of the organization whose incidents the identity may read. -/
def ThresholdsKept : Prop :=
  ∀ finding ∈ corpus.findings, finding.organizationId = case.organizationId →
    (actor naming case).hasPermission "incident:read" finding.projectId = true →
    corpus.ThresholdKept case finding

variable {corpus case} {finding : FindingFixture}

/-! ## What the two adapters count -/

/-- Counted, by whether it is also judged otherwise. -/
theorem countP_split {α : Type} (p q : α → Bool) (l : List α) :
    l.countP p = l.countP (fun a => p a && q a) + l.countP fun a => p a && !q a := by
  rw [List.countP_eq_countP_filter_add (p := p) (q := q), List.countP_filter, List.countP_filter]

theorem fixture_support (corpus : FindingCorpus naming) (case : EvaluationCase)
    (finding : FindingFixture) :
    FixtureProactiveAdapter.support corpus.fixtures (actor naming case) finding =
      corpus.agreed case finding + corpus.onlyCounted case finding := by
  have hsplit := countP_split (counted case naming finding) (readable case naming)
    (corpus.supporting finding)
  unfold agreed onlyCounted
  rw [← hsplit]
  unfold FixtureProactiveAdapter.support fixtures supporting
  rw [List.countP_map, List.countP_filter]
  refine List.countP_congr ?_
  intro item _
  simp only [Function.comp, counted, Bool.and_eq_true]
  constructor
  · rintro ⟨hlabel, hcounted, hrole⟩
    exact ⟨hcounted, hlabel, hrole⟩
  · rintro ⟨hcounted, hlabel, hrole⟩
    exact ⟨hlabel, hcounted, hrole⟩

theorem fixture_visible_iff :
    FixtureProactiveAdapter.visible naming corpus.fixtures case finding = true ↔
      finding.organizationId = case.organizationId ∧ finding.status = .active ∧
      (actor naming case).hasPermission "incident:read" finding.projectId = true ∧
      minimum finding ≤ corpus.agreed case finding + corpus.onlyCounted case finding := by
  have hsupport := fixture_support corpus case finding
  unfold FixtureProactiveAdapter.visible
  by_cases horganization : finding.organizationId = case.organizationId
  · by_cases hactive : finding.status = .active
    · by_cases hread : (actor naming case).hasPermission "incident:read" finding.projectId = true
      · simp [horganization, hactive, hread, hsupport, minimum]
      · simp [horganization, hactive, hread]
    · simp [hactive]
  · simp [horganization]

theorem same_organization {item : PlacedEvidence} {organizationId : Uuid}
    (h : organizationId = naming.organizationUuid item.organizationId) :
    organizationId = (actor naming case).organizationId ↔
      item.organizationId = case.organizationId := by
  rw [h]
  exact naming.organizationUuid_injective.eq_iff

theorem mayReadIncident_eq {item : PlacedEvidence} {row : Incident}
    (htype : item.entityType = .incident)
    (horganization : row.organizationId = naming.organizationUuid item.organizationId)
    (hproject : row.projectId = item.projectId) :
    Proactive.mayReadIncident (actor naming case) row = readable case naming item := by
  rw [Bool.eq_iff_iff]
  unfold Proactive.mayReadIncident readable Proactive.incidentReadPermission
  rw [htype, hproject]
  simp only [decide_eq_true_eq, Bool.and_eq_true, same_organization horganization]

theorem mayReadDocument_eq {item : PlacedEvidence} {row : Document}
    (htype : item.entityType = .document)
    (horganization : row.organizationId = naming.organizationUuid item.organizationId)
    (hproject : row.projectId = item.projectId) (hdeleted : row.deletedAt.isSome = item.deleted)
    (hstatus : row.status = item.documentStatus) :
    Proactive.mayReadDocument (actor naming case) row = readable case naming item := by
  have hlive : row.deletedAt = none ↔ item.deleted = false := by
    rw [← hdeleted, Option.isSome_eq_false_iff, Option.isNone_iff_eq_none]
  rw [Bool.eq_iff_iff]
  unfold Proactive.mayReadDocument readable Proactive.reviewPermission
  rw [htype, hproject, hstatus]
  simp only [decide_eq_true_eq, Bool.and_eq_true, Bool.or_eq_true, Bool.not_eq_true',
    same_organization horganization, hlive]

/-- What resolution lets through is decided by where the entity lives; the role stays. -/
theorem resolveEvidence_eq (case : EvaluationCase) {item : PlacedEvidence} (hmem : item ∈ corpus.evidence) :
    ((Proactive.resolveEvidence (actor naming case) (item.row naming) corpus.db).map
        Proactive.FindingEvidenceRef.role) =
      if readable case naming item then some item.role else none := by
  have hstored := corpus.evidence_stored item hmem
  unfold Proactive.resolveEvidence PlacedEvidence.row
  cases htype : item.entityType with
  | incident =>
    obtain ⟨row, hrow, horganization, hproject, -⟩ := hstored.incident htype
    rw [← mayReadIncident_eq htype horganization hproject]
    simp only [hrow, Option.filter_some, Option.map_map]
    split <;> rfl
  | document =>
    obtain ⟨row, hrow, horganization, hproject, hdeleted, hstatus⟩ := hstored.document htype
    rw [← mayReadDocument_eq htype horganization hproject hdeleted hstatus]
    simp only [hrow, Option.filter_some, Option.map_map]
    split <;> rfl

theorem real_support (case : EvaluationCase) (hmem : finding ∈ corpus.findings) :
    ((Proactive.Repository.listEvidence (corpus.row finding).id corpus.db).filterMap fun row =>
        Proactive.resolveEvidence (actor naming case) row corpus.db).countP
          (fun ref => Proactive.countsTowardSupport ref.role) =
      corpus.agreed case finding + corpus.onlyReadable case finding := by
  have hsplit := countP_split (readable case naming) (counted case naming finding)
    (corpus.supporting finding)
  have hboth : corpus.agreed case finding + corpus.onlyReadable case finding =
      (corpus.supporting finding).countP (readable case naming) := by
    rw [hsplit]
    unfold agreed onlyReadable
    congr 1
    · exact List.countP_congr fun item _ => by simp only [Bool.and_comm]
    · exact List.countP_congr fun item _ => by simp only [Bool.and_comm]
  have hid := (corpus.findings_stored finding hmem).id
  rw [hboth, List.countP_filterMap]
  unfold Proactive.Repository.listEvidence supporting
  rw [corpus.evidence_rows, List.filter_map, List.countP_map, List.countP_filter,
    List.countP_filter]
  refine List.countP_congr ?_
  intro item hitem
  have hrole := congrArg (Option.map Proactive.countsTowardSupport)
    (resolveEvidence_eq case hitem)
  rw [Option.map_map] at hrole
  have hlabel : naming.findingId item.findingLabel = naming.findingId finding.label ↔
      item.findingLabel = finding.label := naming.findingId_injective.eq_iff
  show ((Option.map (fun ref => Proactive.countsTowardSupport ref.role)
    (Proactive.resolveEvidence (actor naming case) (item.row naming) corpus.db)).getD false &&
      decide ((item.row naming).findingId = (corpus.row finding).id)) = true ↔ _
  have hcounts : Option.map (fun ref => Proactive.countsTowardSupport ref.role)
      (Proactive.resolveEvidence (actor naming case) (item.row naming) corpus.db) =
        Option.map Proactive.countsTowardSupport
          (if readable case naming item then some item.role else none) := hrole
  have hkey : (item.row naming).findingId = (corpus.row finding).id ↔
      item.findingLabel = finding.label := by
    rw [hid]
    exact hlabel
  rw [hcounts]
  by_cases hreadable : readable case naming item = true
  · rw [if_pos hreadable]
    simp only [Option.map_some, Option.getD_some, Bool.and_eq_true, decide_eq_true_eq, hkey,
      hreadable, true_and, and_comm]
  · rw [if_neg hreadable]
    simp [hreadable]

/-- The finding is shown, with its id, where production finds support enough. -/
def shownBy (corpus : FindingCorpus naming) (case : EvaluationCase) (finding : FindingFixture) :
    Bool :=
  decide (finding.organizationId = case.organizationId) &&
    ((actor naming case).hasPermission "incident:read" finding.projectId &&
      decide (minimum finding ≤ corpus.agreed case finding + corpus.onlyReadable case finding))

theorem visibleEvidence_id (hmem : finding ∈ corpus.findings)
    (horganization : finding.organizationId = case.organizationId) :
    ((Proactive.visibleEvidenceAndRecomputedSupport (actor naming case) (corpus.row finding)
        corpus.db).map fun resolved =>
          toString (Proactive.shown (corpus.row finding) resolved.2).id) =
      if shownBy corpus case finding then some (toString (naming.findingId finding.label))
      else none := by
  have hstored := corpus.findings_stored finding hmem
  have hsupport := real_support case hmem
  unfold Proactive.visibleEvidenceAndRecomputedSupport
  dsimp only
  rw [hsupport, hstored.project, hstored.findingType]
  unfold shownBy minimum Proactive.incidentReadPermission Proactive.shown
  generalize (Proactive.FindingType.spec finding.findingType).minimumSupport = needed
  generalize corpus.agreed case finding + corpus.onlyReadable case finding = support
  by_cases hread : (actor naming case).hasPermission "incident:read" finding.projectId = true
  · by_cases hlow : support < needed
    · have hnot : ¬ needed ≤ support := by omega
      rw [if_pos hread, if_pos hlow]
      simp [hnot]
    · have henough : needed ≤ support := by omega
      rw [if_pos hread, if_neg hlow]
      simp [hread, horganization, henough, hstored.id]
  · rw [if_neg hread]
    simp [hread]

/-- At most 50 findings in the organization are not cut off. -/
theorem real_listFindings_returns
    (hfew : (corpus.findings.filter fun finding =>
      finding.organizationId = case.organizationId).length ≤ 50) :
    ∃ listed, (RealProactiveAdapter.listFindings naming case).Returns corpus.db listed corpus.db ∧
      listed.Perm ((corpus.findings.filter (shownBy corpus case)).map fun finding =>
        toString (naming.findingId finding.label)) := by
  let inside := corpus.findings.filter fun finding =>
    finding.organizationId = case.organizationId
  have hinside : (corpus.db.proactiveFindings.filter fun row =>
      decide (row.organizationId = (actor naming case).organizationId ∧
        (∀ wanted ∈ (none : Option String), row.status.value = wanted) ∧
          ∀ wanted ∈ (none : Option String), row.findingType.value = wanted)) =
      inside.map corpus.row := by
    rw [corpus.finding_rows, List.filter_map]
    refine congrArg (List.map corpus.row) (List.filter_congr ?_)
    intro finding hmem
    have hstored := corpus.findings_stored finding hmem
    have hsame : (corpus.row finding).organizationId = (actor naming case).organizationId ↔
        finding.organizationId = case.organizationId := by
      rw [hstored.organization]
      exact naming.organizationUuid_injective.eq_iff
    simp [hsame]
  have hperm : (Proactive.Repository.listedFindings (actor naming case).organizationId none none
      corpus.db).Perm (inside.map corpus.row) := by
    unfold Proactive.Repository.listedFindings
    rw [hinside]
    exact List.perm_insertionSort _ _
  have hlength : (Proactive.Repository.listedFindings (actor naming case).organizationId none none
      corpus.db).length ≤ 50 := by
    rw [hperm.length_eq, List.length_map]
    exact hfew
  have hpage : Proactive.Repository.listFindings (actor naming case).organizationId none none 50 0
      corpus.db = .ok (Proactive.Repository.listedFindings (actor naming case).organizationId none
        none corpus.db) := by
    refine Query.bind_ok.mpr ⟨_, rfl, ?_⟩
    unfold Query.limit
    rw [if_neg (by omega)]
    exact congrArg Except.ok (List.take_of_length_le hlength)
  let rows := Proactive.Repository.listedFindings (actor naming case).organizationId none none
    corpus.db
  let visible := rows.filterMap fun row =>
    (Proactive.visibleEvidenceAndRecomputedSupport (actor naming case) row corpus.db).map
      fun resolved => Proactive.shown row resolved.2
  refine ⟨visible.map fun row => toString row.id, Service.bind_returns.mpr
    ⟨visible, corpus.db, ?_, Service.pure_returns.mpr ⟨rfl, rfl⟩⟩, ?_⟩
  · unfold Proactive.listFindings
    simp only [Service.bind_returns, Service.read_returns, Service.ofExcept_returns]
    exact ⟨_, _, ⟨rfl, rfl⟩, _, _, ⟨hpage, rfl⟩, rfl, rfl⟩
  · rw [List.map_filterMap]
    refine (hperm.filterMap _).trans (List.Perm.of_eq ?_)
    rw [List.filterMap_map]
    have hshown : ∀ finding ∈ inside, (fun finding : FindingFixture =>
        Option.map (fun row : ProactiveFinding => toString row.id)
          ((Proactive.visibleEvidenceAndRecomputedSupport (actor naming case) (corpus.row finding)
            corpus.db).map fun resolved => Proactive.shown (corpus.row finding) resolved.2)) finding =
        if shownBy corpus case finding then some (toString (naming.findingId finding.label))
        else none := by
      intro finding hfinding
      obtain ⟨hmem, horganization⟩ := List.mem_filter.mp hfinding
      have hid := visibleEvidence_id hmem (of_decide_eq_true horganization)
      rw [← hid]
      exact Option.map_map _ _ _
    refine (List.filterMap_congr hshown).trans ?_
    rw [← List.filterMap_filter (f := fun finding : FindingFixture =>
      some (toString (naming.findingId finding.label))), List.filter_filter]
    refine (congrFun List.filterMap_eq_map _).trans ?_
    refine congrArg (List.map _) (List.filter_congr ?_)
    intro finding _
    unfold shownBy
    by_cases horganization : finding.organizationId = case.organizationId <;> simp [horganization]

/-- The two show the same of a finding where its threshold is kept. -/
theorem visible_eq_iff :
    FixtureProactiveAdapter.visible naming corpus.fixtures case finding =
        shownBy corpus case finding ↔
      (finding.organizationId = case.organizationId →
        (actor naming case).hasPermission "incident:read" finding.projectId = true →
        corpus.ThresholdKept case finding) := by
  rw [Bool.eq_iff_iff, fixture_visible_iff]
  unfold shownBy
  simp only [Bool.and_eq_true, decide_eq_true_eq]
  constructor
  · intro h horganization hread
    constructor
    · intro hinactive
      by_contra hlow
      have hactive := (h.mpr ⟨horganization, hread, by omega⟩).2.1
      rw [hactive] at hinactive
      cases hinactive
    · intro hactive
      constructor
      · intro hcounted
        exact (h.mp ⟨horganization, hactive, hread, hcounted⟩).2.2
      · intro hreadable
        exact (h.mpr ⟨horganization, hread, hreadable⟩).2.2.2
  · intro h
    constructor
    · rintro ⟨horganization, hactive, hread, hcounted⟩
      exact ⟨horganization, hread, ((h horganization hread).active hactive).mp hcounted⟩
    · rintro ⟨horganization, hread, hreadable⟩
      have hkept := h horganization hread
      cases hstatus : finding.status with
      | active => exact ⟨horganization, rfl, hread, (hkept.active hstatus).mpr hreadable⟩
      | inactive =>
        have hlow := hkept.inactive hstatus
        omega

theorem findingsAgree_iff
    (hfew : (corpus.findings.filter fun finding =>
      finding.organizationId = case.organizationId).length ≤ 50) :
    corpus.FindingsAgree case ↔ corpus.ThresholdsKept case := by
  let idText := fun finding : FindingFixture => toString (naming.findingId finding.label)
  have hinj : ∀ finding ∈ corpus.findings, ∀ finding' ∈ corpus.findings,
      idText finding = idText finding' → finding = finding' := by
    intro finding hfinding finding' hfinding' hid
    exact List.inj_on_of_nodup_map corpus.labels_nodup hfinding hfinding'
      (naming.findingId_injective (Joined.toString_inj.mp hid))
  have hfixture : ((FixtureProactiveAdapter.listFindings naming corpus.findings corpus.fixtures
      case).map fun label => toString (naming.findingId label)).Perm
        ((corpus.findings.filter (FixtureProactiveAdapter.visible naming corpus.fixtures
          case)).map idText) := by
    unfold FixtureProactiveAdapter.listFindings
    refine ((List.perm_insertionSort _ _).map _).trans (List.Perm.of_eq ?_)
    rw [List.map_map]
    rfl
  obtain ⟨shown, hreturns, hshown⟩ := real_listFindings_returns hfew
  have hmem : ∀ (p : FindingFixture → Bool), ∀ finding ∈ corpus.findings,
      (idText finding ∈ (corpus.findings.filter p).map idText ↔ p finding = true) := by
    intro p finding hfinding
    constructor
    · intro h
      obtain ⟨finding', hfinding', hid⟩ := List.mem_map.mp h
      obtain ⟨hmem', hp⟩ := List.mem_filter.mp hfinding'
      rwa [hinj finding' hmem' finding hfinding hid] at hp
    · intro hp
      exact List.mem_map_of_mem (List.mem_filter.mpr ⟨hfinding, hp⟩)
  constructor
  · rintro ⟨listed, hlisted, hperm⟩
    obtain rfl := (Service.Returns.unique hlisted hreturns).1
    have hsame := hshown.symm.trans (hperm.trans hfixture)
    intro finding hfinding
    refine visible_eq_iff.mp ?_
    rw [Bool.eq_iff_iff, ← hmem _ finding hfinding, ← hmem _ finding hfinding]
    exact hsame.symm.mem_iff
  · intro hkept
    have hfilters : corpus.findings.filter (shownBy corpus case) =
        corpus.findings.filter (FixtureProactiveAdapter.visible naming corpus.fixtures case) :=
      List.filter_congr fun finding hfinding => (visible_eq_iff.mpr (hkept finding hfinding)).symm
    rw [hfilters] at hshown
    exact ⟨shown, hreturns, hshown.trans hfixture.symm⟩

end FindingCorpus

/-! ## Both gates -/

/-- The gates see what production serves exactly where the memories in reach belong to projects
and fit the budget, and where no threshold depends on how a piece of evidence is judged. -/
theorem gates_see_production_iff {K : Type} [Field K] [LinearOrder K] [IsStrictOrderedRing K]
    {dimension : Nat} {fakeEmbed : String → UnitVector K dimension} {naming : Naming}
    (case : EvaluationCase) (settings : Memory.Settings K) (production : UnitEngine fakeEmbed)
    (draw : Memory.Draw) (memories : MemoryCorpus fakeEmbed naming case.organizationId)
    (findings : FindingCorpus naming)
    (hfew : (findings.findings.filter fun finding =>
      finding.organizationId = case.organizationId).length ≤ 50) :
    (memories.MemoriesAgree settings production draw ↔ memories.ServedInFull settings) ∧
      (findings.FindingsAgree case ↔ findings.ThresholdsKept case) :=
  ⟨MemoryCorpus.memoriesAgree_iff production draw, FindingCorpus.findingsAgree_iff hfew⟩

/-! ## A corpus on which they differ, and one on which they agree -/

def axis : UnitVector Rat 1 := { coordinates := [1], length_eq := rfl, unit := by decide +kernel }

/-- Every text lies on the one axis. -/
def embedOnAxis (_ : String) : UnitVector Rat 1 := axis

def axisEngine : UnitEngine embedOnAxis where
  engine :=
    { embedQuery := fun _ => .ok axis.coordinates
      zeroVector := [0]
      cosineDistance := fun a b => 1 - (List.zipWith (fun x y => x * y) a b).sum
      le := fun a b => decide (a ≤ b)
      relevance := fun distance => 1 - distance
      lt := fun a b => decide (a < b) }
  embedQuery _ := rfl
  cosineDistance _ _ := rfl
  le := rfl
  relevance _ := rfl
  lt := rfl

def number (name : String) : Uuid := Encodable.encode (name.toList.map Char.toNat)

theorem number_injective : Function.Injective number := by
  intro name name' h
  have hcodes := Encodable.encode_injective h
  have hletters := List.map_injective_iff.mpr (fun _ _ hc => Char.toNat_inj.mp hc) hcodes
  exact String.toList_inj.mp hletters

/-- Every name has its own id. -/
def numbered : Naming where
  organizationUuid := number
  userId := number
  memoryId := number
  findingId := number
  organizationUuid_injective := number_injective
  memoryId_injective := number_injective
  findingId_injective := number_injective

def storedMemory (organizationId : String) (fixture : MemoryFixture Rat 1) :
    AgentMemory (List Rat) :=
  { id := numbered.memoryId fixture.label
    organizationId := numbered.organizationUuid organizationId
    scope := fixture.scope
    ownerUserId := fixture.ownerUserId.map numbered.userId
    projectId := fixture.projectId
    memoryType := fixture.memoryType
    content := fixture.content
    embedding := (fixture.vector embedOnAxis).coordinates
    createdBy := "user:eval"
    status := fixture.status
    createdAt := 0
    updatedAt := 0 }

def remembered (memories : List (MemoryFixture Rat 1))
    (labels_nodup : (memories.map MemoryFixture.label).Nodup) (organizationId : String) :
    MemoryCorpus embedOnAxis numbered organizationId where
  memories
  labels_nodup
  row := storedMemory organizationId
  stored _ _ := ⟨rfl, rfl, rfl, rfl, rfl, rfl, rfl, rfl, rfl⟩

def alicePoolFact : MemoryFixture Rat 1 :=
  { label := "alice-pool-fact"
    content := "The database connection pool was exhausted during the incident" }

def platformDecision : MemoryFixture Rat 1 :=
  { label := "platform-rollback-decision"
    content := "The team decided rollback requires a postgres snapshot first"
    scope := .project
    ownerUserId := none
    projectId := some projectPlatform }

def platformFreeze : MemoryFixture Rat 1 :=
  { platformDecision with
    label := "platform-freeze"
    content := "No deployment of the database on a Friday" }

/-- Alice is a member of the project and may read incidents everywhere. -/
def aliceAsks : EvaluationCase :=
  { id := "alice"
    category := .memory
    query := "database pool"
    identity :=
      { userId := alice
        permissions := {"incident:read"}
        projectPermissions := AList.singleton projectPlatform {"incident:read"} }
    stage_meaningful := by simp }

def aliceMemories : MemoryCorpus embedOnAxis numbered aliceAsks.organizationId :=
  remembered [alicePoolFact] (List.nodup_singleton _) aliceAsks.organizationId

def platformMemories : MemoryCorpus embedOnAxis numbered aliceAsks.organizationId :=
  remembered [platformDecision, platformFreeze] (by decide) aliceAsks.organizationId

def productionSettings : Memory.Settings Rat := { memoryRelevanceThreshold := 7 / 20 }

def noDraw : Memory.Draw := { memoryId := 0, now := 0 }

def recurring (status : FindingStatus) : FindingFixture :=
  { label := "recurring-severity-platform", status }

def recurringRow (finding : FindingFixture) : ProactiveFinding :=
  { id := numbered.findingId finding.label
    organizationId := numbered.organizationUuid finding.organizationId
    projectId := finding.projectId
    findingType := finding.findingType
    status := finding.status
    title := ""
    summary := ""
    fingerprint := ""
    supportCount := 3
    detectorName := ""
    firstSeenAt := 0
    lastSeenAt := 0 }

def platformIncident (entityId : Uuid) : PlacedEvidence :=
  { findingLabel := "recurring-severity-platform"
    entityType := .incident
    role := "supporting_incident"
    entityId
    organizationId := orgPrimary
    projectId := projectPlatform }

def incidentRow (id : Uuid) : Incident :=
  { id, organizationId := numbered.organizationUuid orgPrimary, projectId := projectPlatform
    title := "Outage", severity := "high", reportedBy := 7, createdAt := 0 }

/-- One incident is left of its evidence. -/
def subsided : FindingFixture := { label := "recurring-severity-subsided", status := .inactive }

def subsidedIncident : PlacedEvidence :=
  { platformIncident 1 with findingLabel := "recurring-severity-subsided" }

/-- A finding of three incidents in one project, and an inactive one. -/
def recurringIn (status : FindingStatus) : FindingCorpus numbered where
  findings := [recurring status, subsided]
  evidence := [platformIncident 1, platformIncident 2, platformIncident 3, subsidedIncident]
  labels_nodup := by simp [recurring, subsided]
  row := recurringRow
  db :=
    { incidents := [incidentRow 1, incidentRow 2, incidentRow 3]
      proactiveFindings := [recurring status, subsided].map recurringRow
      proactiveFindingEvidence :=
        [platformIncident 1, platformIncident 2, platformIncident 3, subsidedIncident].map
          (PlacedEvidence.row numbered) }
  findings_stored _ _ := ⟨rfl, rfl, rfl, rfl, rfl⟩
  finding_rows := rfl
  evidence_stored := by
    intro item hitem
    simp only [List.mem_cons, List.not_mem_nil, or_false] at hitem
    obtain rfl | rfl | rfl | rfl := hitem
    · exact ⟨fun _ => ⟨incidentRow 1, rfl, rfl, rfl, rfl⟩, fun h => by cases h⟩
    · exact ⟨fun _ => ⟨incidentRow 2, rfl, rfl, rfl, rfl⟩, fun h => by cases h⟩
    · exact ⟨fun _ => ⟨incidentRow 3, rfl, rfl, rfl, rfl⟩, fun h => by cases h⟩
    · exact ⟨fun _ => ⟨incidentRow 1, rfl, rfl, rfl, rfl⟩, fun h => by cases h⟩
  evidence_rows := rfl

/-- The case's own user is nobody in production, so that a memory of Alice's is served to her
by the fixture alone; an inactive finding is listed by production alone. -/
theorem alice_and_inactive_differ :
    ¬ aliceMemories.MemoriesAgree productionSettings axisEngine noDraw ∧
      ¬ (recurringIn .inactive).FindingsAgree aliceAsks := by
  constructor
  · rw [MemoryCorpus.memoriesAgree_iff]
    intro h
    have hnot : (aliceMemories.withinReach productionSettings).all
        (fun fixture => decide (fixture.scope = .project)) = false := by
      decide +kernel
    have hall := List.all_eq_true.mpr fun fixture hfixture =>
      decide_eq_true (h.shared fixture hfixture)
    rw [hall] at hnot
    cases hnot
  · rw [FindingCorpus.findingsAgree_iff (by decide +kernel)]
    intro h
    have hlow := (h (recurring .inactive) List.mem_cons_self rfl
      (by decide +kernel)).inactive rfl
    revert hlow
    decide +kernel

theorem gates_see_production_platform :
    platformMemories.MemoriesAgree productionSettings axisEngine noDraw ∧
      (recurringIn .active).FindingsAgree aliceAsks := by
  obtain ⟨hmemories, hfindings⟩ := gates_see_production_iff aliceAsks productionSettings axisEngine
    noDraw platformMemories (recurringIn .active)
    (by decide +kernel)
  refine ⟨hmemories.mpr ⟨?_, by decide +kernel⟩, hfindings.mpr ?_⟩
  · have hall : (platformMemories.withinReach productionSettings).all
        (fun fixture => decide (fixture.scope = .project)) = true := by
      decide +kernel
    intro fixture hfixture
    exact of_decide_eq_true (List.all_eq_true.mp hall fixture hfixture)
  · intro finding hfinding _ _
    rcases List.mem_pair.mp hfinding with rfl | rfl
    · constructor
      · intro hinactive
        cases hinactive
      · intro _
        decide +kernel
    · constructor
      · intro _
        decide +kernel
      · intro hactive
        cases hactive

end Ekip.Evaluation
