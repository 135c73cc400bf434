import Ekip.Ingestion.PageWalk
import Ekip.Ingestion.Connectors.Incidents

/-!
# A walk over the incidents while they are edited

The pages are slices of the incidents in the order of their last modification, which
every edit of an incident or of its reviewed postmortem moves to the current time. An
edit of an incident that was fetched already takes it out of the pages before the
offset, and the first incident after the offset slips into its place.
-/
namespace Ekip.Ingestion.Incidents

open Ekip.Lib Ekip.Lib.Paging Ekip.Database Ekip.Core.Incidents Ekip.Ingestion.PageWalk

variable {ε : Type}

/-! ## Edits -/

inductive Edit
  /-- An incident takes over what an edit may change. -/
  | incident (now : Instant) (patched : IncidentRow)
  | postmortem (now : Instant) (patched : Postmortem)

/-- The statuses that the join asks for. -/
def reviewed (status : PostmortemStatus) : Bool := status = .approved ∨ status = .published

def editIncident (now : Instant) (patched row : IncidentRow) : IncidentRow :=
  { row with
    title := patched.title
    description := patched.description
    severity := patched.severity
    status := patched.status
    ownerTeam := patched.ownerTeam
    resolvedAt := patched.resolvedAt
    updatedAt := now }

def editPostmortem (now : Instant) (patched row : Postmortem) : Postmortem :=
  { row with status := patched.status, rootCause := patched.rootCause, updatedAt := now }

/-- No row was modified later. -/
def NotBefore (db : IncidentDb ε) (now : Instant) : Prop :=
  (∀ row ∈ db.incidents, row.updatedAt ≤ now) ∧ ∀ row ∈ db.postmortems, row.updatedAt ≤ now

instance (db : IncidentDb ε) (now : Instant) : Decidable (NotBefore db now) :=
  inferInstanceAs (Decidable ((∀ _ ∈ _, _) ∧ ∀ _ ∈ _, _))

/-- A reviewed postmortem is closed: it may be published, but is no draft again. -/
def edit (db : IncidentDb ε) : Edit → Option (IncidentDb ε)
  | .incident now patched =>
    if NotBefore db now then
      some { db with
        incidents := Table.updateWhere db.incidents (fun row => row.id = patched.id)
          (editIncident now patched) }
    else none
  | .postmortem now patched =>
    if NotBefore db now ∧ ∀ row ∈ db.postmortems, row.id = patched.id →
        reviewed row.status = true → reviewed patched.status = true then
      some { db with
        postmortems := Table.updateWhere db.postmortems (fun row => row.id = patched.id)
          (editPostmortem now patched) }
    else none

/-- The incidents whose last modification the edit moves: a postmortem counts once it
is reviewed. -/
def touched (db : IncidentDb ε) : Edit → List Uuid
  | .incident _ patched => [patched.id]
  | .postmortem _ patched =>
    if reviewed patched.status then
      (db.postmortems.filter fun row => row.id = patched.id).map Postmortem.incidentId
    else []

/-! ## The list behind the pages -/

/-- Ids are unique, and an incident has at most one postmortem. -/
structure Keyed (db : IncidentDb ε) : Prop where
  incidents : (db.incidents.map fun row => row.id).Nodup
  postmortems : (db.postmortems.map Postmortem.id).Nodup
  perIncident : (db.postmortems.map Postmortem.incidentId).Nodup

abbrev Pair := IncidentRow × Option Postmortem

def resolutionOf (db : IncidentDb ε) (incident : IncidentRow) : Option Postmortem :=
  (Repository.reviewedPostmortems db incident).head?

def eligible (organizationId : Uuid) (row : IncidentRow) : Bool :=
  row.organizationId = organizationId ∧ row.deletedAt = none

def pairs (db : IncidentDb ε) (organizationId : Uuid) : List Pair :=
  (db.incidents.filter (eligible organizationId)).map fun row => (row, resolutionOf db row)

def admits (since : Option Instant) (pair : Pair) : Bool :=
  since.all fun t => t ≤ Repository.lastModified pair

def pairId (pair : Pair) : Uuid := pair.1.id

/-- The ids in the order of the pages. -/
def listedIds (organizationId : Uuid) (since : Option Instant) (db : IncidentDb ε) : List Uuid :=
  (ordered Repository.lastModified ((pairs db organizationId).filter (admits since))).map pairId

variable {db db' : IncidentDb ε} {organizationId : Uuid} {since : Option Instant}

theorem withResolution_eq (hkeyed : Keyed db) (incident : IncidentRow) :
    Repository.withResolution db incident = [(incident, resolutionOf db incident)] := by
  have hnodup : ((Repository.reviewedPostmortems db incident).map Postmortem.incidentId).Nodup :=
    hkeyed.perIncident.sublist (List.filter_sublist.map _)
  have hsame : ∀ p ∈ Repository.reviewedPostmortems db incident, p.incidentId = incident.id := by
    intro p hp
    exact (of_decide_eq_true (List.mem_filter.mp hp).2).1
  unfold Repository.withResolution resolutionOf
  cases hreviewed : Repository.reviewedPostmortems db incident with
  | nil => rfl
  | cons p rest =>
    rw [hreviewed] at hnodup hsame
    cases rest with
    | nil => rfl
    | cons q rest =>
      have hpq : p.incidentId = q.incidentId :=
        (hsame p (by simp)).trans (hsame q (by simp)).symm
      rw [List.map_cons, List.map_cons, hpq] at hnodup
      exact absurd List.mem_cons_self (List.nodup_cons.mp hnodup).1

/-- The repository lists a slice of the pairs in their order. -/
theorem listIncidentsForIngestion_eq (hkeyed : Keyed db) (offset limit : Nat) :
    Repository.listIncidentsForIngestion db organizationId since offset limit =
      (slice offset limit (ordered Repository.lastModified
        ((pairs db organizationId).filter (admits since)))).map fun pair =>
          (pair.1, pair.2.bind Postmortem.rootCause) := by
  have hpairs : (db.incidents.filter (eligible organizationId)).flatMap
      (Repository.withResolution db) = pairs db organizationId := by
    unfold pairs
    rw [List.map_eq_flatMap]
    congr 1
    funext row
    exact withResolution_eq hkeyed row
  unfold Repository.listIncidentsForIngestion
  dsimp only
  rw [show (db.incidents.filter fun row => decide (row.organizationId = organizationId ∧
    row.deletedAt = none)) = db.incidents.filter (eligible organizationId) from rfl, hpairs]
  rfl

/-! ## What an edit keeps -/

theorem pairs_ids (hkeyed : Keyed db) : ((pairs db organizationId).map pairId).Nodup := by
  unfold pairs
  rw [List.map_map]
  exact hkeyed.incidents.sublist (List.filter_sublist.map _)

theorem resolutionOf_congr {incident incident' : IncidentRow}
    (hpostmortems : db'.postmortems = db.postmortems) (hid : incident'.id = incident.id) :
    resolutionOf db' incident' = resolutionOf db incident := by
  unfold resolutionOf Repository.reviewedPostmortems
  rw [hpostmortems, hid]

/-- The pair of one incident is replaced. -/
def onPair (id : Uuid) (f : Pair → Pair) (pair : Pair) : Pair := if pair.1.id = id then f pair else pair

theorem pairs_incident (now : Instant) (patched : IncidentRow)
    (hincidents : db'.incidents = Table.updateWhere db.incidents (fun row => row.id = patched.id)
      (editIncident now patched)) (hpostmortems : db'.postmortems = db.postmortems) :
    pairs db' organizationId = (pairs db organizationId).map (onPair patched.id fun pair =>
      (editIncident now patched pair.1, pair.2)) := by
  unfold pairs Table.updateWhere at *
  rw [hincidents, List.filter_map, List.map_map, List.map_map]
  have hfilter : (db.incidents.filter (eligible organizationId ∘ fun row =>
      if decide (row.id = patched.id) = true then editIncident now patched row else row)) =
        db.incidents.filter (eligible organizationId) := by
    apply List.filter_congr
    intro row _
    show eligible organizationId (if _ then _ else _) = _
    split
    · rfl
    · rfl
  rw [hfilter]
  apply List.map_congr_left
  intro row _
  show ((if decide (row.id = patched.id) = true then editIncident now patched row else row),
    resolutionOf db' (if decide (row.id = patched.id) = true then editIncident now patched row
      else row)) = onPair patched.id _ (row, resolutionOf db row)
  unfold onPair
  by_cases hid : row.id = patched.id
  · rw [if_pos (decide_eq_true hid), if_pos hid]
    exact congrArg (Prod.mk _) (resolutionOf_congr hpostmortems rfl)
  · rw [if_neg (by simpa using hid), if_neg hid, resolutionOf_congr hpostmortems rfl]

/-- What is left of the edits of a postmortem: the pair of its incident. -/
theorem pairs_postmortem {incidentId : Uuid} (hincidents : db'.incidents = db.incidents)
    (hothers : ∀ incident : IncidentRow, incident.id ≠ incidentId →
      resolutionOf db' incident = resolutionOf db incident) :
    pairs db' organizationId = (pairs db organizationId).map (onPair incidentId fun pair =>
      (pair.1, resolutionOf db' pair.1)) := by
  unfold pairs
  rw [hincidents, List.map_map]
  apply List.map_congr_left
  intro row _
  show (row, resolutionOf db' row) = onPair incidentId _ (row, resolutionOf db row)
  unfold onPair
  by_cases hid : row.id = incidentId
  · rw [if_pos hid]
  · rw [if_neg hid, hothers row hid]

/-- An edit of one pair that raises its last modification keeps what is ahead of the
offset, if the pair was not fetched before, or nothing is ahead. -/
theorem listedIds_keeps {incidentId : Uuid} {f : Pair → Pair} {offset : Nat} (hkeyed : Keyed db)
    (hpairs : pairs db' organizationId = (pairs db organizationId).map (onPair incidentId f))
    (hid : ∀ pair ∈ pairs db organizationId, (f pair).1.id = pair.1.id)
    (hraise : ∀ pair ∈ pairs db organizationId, pair.1.id = incidentId →
      Repository.lastModified pair ≤ Repository.lastModified (f pair))
    (hfetched : incidentId ∈ (listedIds organizationId since db).take offset →
      (listedIds organizationId since db).drop offset = []) :
    Keeps offset (listedIds organizationId since db) (listedIds organizationId since db') := by
  have hle : ∀ pair ∈ pairs db organizationId,
      Repository.lastModified pair ≤ Repository.lastModified (onPair incidentId f pair) := by
    intro pair hpair
    unfold onPair
    by_cases hincident : pair.1.id = incidentId
    · rw [if_pos hincident]
      exact hraise pair hpair hincident
    · rw [if_neg hincident]
  unfold listedIds
  rw [hpairs]
  refine keeps_touched (y := incidentId) (admits since) (pairs_ids hkeyed) ?_ ?_ hle ?_ hfetched
  · intro pair hpair
    unfold onPair pairId
    by_cases hincident : pair.1.id = incidentId
    · rw [if_pos hincident]
      exact hid pair hpair
    · rw [if_neg hincident]
  · intro pair _ hincident
    exact if_neg hincident
  · intro pair hpair hadmitted
    unfold admits at *
    cases since with
    | none => rfl
    | some t =>
      simp only [Option.all_some, decide_eq_true_eq] at hadmitted ⊢
      exact Nat.le_trans hadmitted (hle pair hpair)

theorem reviewedPostmortems_others {patched row : Postmortem} {now : Instant}
    (hkeyed : Keyed db) (hrow : row ∈ db.postmortems) (hid : row.id = patched.id)
    (hpostmortems : db'.postmortems = Table.updateWhere db.postmortems
      (fun row => row.id = patched.id) (editPostmortem now patched)) {incident : IncidentRow}
    (hincident : incident.id ≠ row.incidentId) :
    Repository.reviewedPostmortems db' incident = Repository.reviewedPostmortems db incident := by
  unfold Repository.reviewedPostmortems
  rw [hpostmortems]
  apply Table.filter_updateWhere
  intro other hother hsame
  have heq : other = row := List.inj_on_of_nodup_map hkeyed.postmortems hother hrow
    ((of_decide_eq_true hsame).trans hid.symm)
  have hne : other.incidentId ≠ incident.id := by
    rw [heq]
    exact hincident.symm
  have hne' : (editPostmortem now patched other).incidentId ≠ incident.id := hne
  simp [hne, hne']

/-- A reviewed postmortem is still the resolution of its incident after the edit. -/
theorem resolutionOf_edited {patched row : Postmortem} {now : Instant} (hkeyed : Keyed db')
    (hrow : row ∈ db.postmortems) (hid : row.id = patched.id)
    (hpostmortems : db'.postmortems = Table.updateWhere db.postmortems
      (fun row => row.id = patched.id) (editPostmortem now patched))
    (hreviewed : reviewed patched.status = true) {incident : IncidentRow}
    (hincident : incident.id = row.incidentId) :
    resolutionOf db' incident = some (editPostmortem now patched row) := by
  have hedited : editPostmortem now patched row ∈ Repository.reviewedPostmortems db' incident := by
    unfold Repository.reviewedPostmortems
    rw [hpostmortems]
    refine List.mem_filter.mpr ⟨Table.mem_updateWhere.mpr ⟨row, hrow, if_pos (by simpa using hid)⟩, ?_⟩
    exact decide_eq_true ⟨hincident.symm, of_decide_eq_true hreviewed⟩
  have hsingle := withResolution_eq hkeyed incident
  unfold Repository.withResolution at hsingle
  cases hlist : Repository.reviewedPostmortems db' incident with
  | nil =>
    rw [hlist] at hedited
    cases hedited
  | cons p rest =>
    rw [hlist] at hsingle hedited
    have hrest : rest = [] := by simpa using congrArg List.length hsingle
    rw [hrest] at hedited
    unfold resolutionOf
    rw [hlist, List.mem_singleton.mp hedited]
    rfl

theorem Keyed.edited {e : Edit} (hkeyed : Keyed db) (h : edit db e = some db') : Keyed db' := by
  cases e with
  | incident now patched =>
    simp only [edit, Option.ite_none_right_eq_some, Option.some.injEq] at h
    obtain ⟨-, rfl⟩ := h
    refine ⟨?_, hkeyed.postmortems, hkeyed.perIncident⟩
    have hids : (Table.updateWhere db.incidents (fun row => row.id = patched.id)
        (editIncident now patched)).map (fun row => row.id) = db.incidents.map fun row => row.id :=
      Table.map_key_updateWhere fun _ => rfl
    exact hids ▸ hkeyed.incidents
  | postmortem now patched =>
    simp only [edit, Option.ite_none_right_eq_some, Option.some.injEq] at h
    obtain ⟨-, rfl⟩ := h
    have hids : (Table.updateWhere db.postmortems (fun row => row.id = patched.id)
        (editPostmortem now patched)).map Postmortem.id = db.postmortems.map Postmortem.id :=
      Table.map_key_updateWhere fun _ => rfl
    have hincidents : (Table.updateWhere db.postmortems (fun row => row.id = patched.id)
        (editPostmortem now patched)).map Postmortem.incidentId =
          db.postmortems.map Postmortem.incidentId :=
      Table.map_key_updateWhere fun _ => rfl
    exact ⟨hkeyed.incidents, hids ▸ hkeyed.postmortems, hincidents ▸ hkeyed.perIncident⟩

/-- An edit keeps what is ahead, unless it touches a fetched incident while others are. -/
theorem edit_keeps {e : Edit} {offset : Nat} (hkeyed : Keyed db) (h : edit db e = some db')
    (hquiet : ∀ id ∈ touched db e, id ∈ (listedIds organizationId since db).take offset →
      (listedIds organizationId since db).drop offset = []) :
    Keeps offset (listedIds organizationId since db) (listedIds organizationId since db') := by
  have hkeyed' := hkeyed.edited h
  cases e with
  | incident now patched =>
    simp only [edit, Option.ite_none_right_eq_some, Option.some.injEq] at h
    obtain ⟨hnow, rfl⟩ := h
    refine listedIds_keeps hkeyed (pairs_incident now patched rfl rfl) (fun _ _ => rfl) ?_
      (hquiet patched.id (List.mem_singleton_self _))
    intro pair hpair _
    obtain ⟨row, hrow, rfl⟩ := List.mem_map.mp hpair
    have hle : row.updatedAt ≤ now := hnow.1 row (List.mem_filter.mp hrow).1
    unfold Repository.lastModified
    cases resolutionOf db row with
    | none => exact hle
    | some p => exact max_le_max_right _ hle
  | postmortem now patched =>
    simp only [edit, Option.ite_none_right_eq_some, Option.some.injEq] at h
    obtain ⟨⟨hnow, hclosed⟩, hdb⟩ := h
    have hincidents : db'.incidents = db.incidents := by rw [← hdb]
    have hpostmortems : db'.postmortems = Table.updateWhere db.postmortems
        (fun row => row.id = patched.id) (editPostmortem now patched) := by rw [← hdb]
    by_cases hshown : reviewed patched.status = true ∧ ∃ row ∈ db.postmortems, row.id = patched.id
    · obtain ⟨hreviewed, row, hmem, hid⟩ := hshown
      have hothers : ∀ incident : IncidentRow, incident.id ≠ row.incidentId →
          resolutionOf db' incident = resolutionOf db incident := by
        intro incident hincident
        unfold resolutionOf
        rw [reviewedPostmortems_others hkeyed hmem hid hpostmortems hincident]
      refine listedIds_keeps hkeyed (pairs_postmortem hincidents hothers) (fun _ _ => rfl) ?_ ?_
      · intro pair hpair hincident
        obtain ⟨incident, -, rfl⟩ := List.mem_map.mp hpair
        show Repository.lastModified (incident, resolutionOf db incident) ≤
          Repository.lastModified (incident, resolutionOf db' incident)
        rw [resolutionOf_edited hkeyed' hmem hid hpostmortems hreviewed hincident]
        unfold Repository.lastModified
        cases hold : resolutionOf db incident with
        | none => exact Nat.le_max_left _ _
        | some q =>
          have hq : q ∈ db.postmortems :=
            (List.mem_filter.mp (List.mem_of_mem_head? hold)).1
          exact max_le_max_left _ (hnow.2 q hq)
      · apply hquiet
        simp only [touched, hreviewed, if_true]
        exact List.mem_map_of_mem (List.mem_filter.mpr ⟨hmem, by simpa using hid⟩)
    · -- the join does not show a draft
      have hsame : ∀ incident, Repository.reviewedPostmortems db' incident =
          Repository.reviewedPostmortems db incident := by
        intro incident
        unfold Repository.reviewedPostmortems
        rw [hpostmortems]
        apply Table.filter_updateWhere
        intro other hother hid
        have hdraft : reviewed patched.status ≠ true := fun hreviewed =>
          hshown ⟨hreviewed, other, hother, of_decide_eq_true hid⟩
        have hopen : reviewed other.status ≠ true := fun hreviewed =>
          hdraft (hclosed other hother (of_decide_eq_true hid) hreviewed)
        constructor
        · apply decide_eq_false
          intro hseen
          exact hopen (decide_eq_true hseen.2)
        · apply decide_eq_false
          intro hseen
          exact hdraft (decide_eq_true hseen.2)
      have hpairs : pairs db' organizationId = pairs db organizationId := by
        unfold pairs resolutionOf
        rw [hincidents]
        simp only [hsame]
      unfold listedIds
      rw [hpairs]
      exact Keeps.refl

/-! ## The walk -/

structure Tables (ε : Type) extends IncidentDb ε where
  keyed : Keyed toIncidentDb

def editTables (tables : Tables ε) (e : Edit) : Option (Tables ε) :=
  match h : edit tables.toIncidentDb e with
  | some db => some { toIncidentDb := db, keyed := tables.keyed.edited h }
  | none => none

theorem editTables_some {tables tables' : Tables ε} {e : Edit}
    (h : editTables tables e = some tables') :
    edit tables.toIncidentDb e = some tables'.toIncidentDb := by
  unfold editTables at h
  split at h
  · rename_i db hedit
    cases h
    exact hedit
  · cases h

abbrev IncidentsWalk (ε : Type) := Walk (Tables ε) RawIncident Nat

def fetch (organizationId : Uuid) (since : Option Instant) (tables : Tables ε) (cursor : Option Nat) :
    FetchResult RawIncident Nat Unit :=
  fetchBatch tables.toIncidentDb organizationId since cursor

/-- No incident on the pages that were fetched is touched while others are ahead. -/
def Undisturbed (organizationId : Uuid) (since : Option Instant) (w : IncidentsWalk ε) :
    Label Edit → Prop
  | .changed e => ∀ id ∈ touched w.source.toIncidentDb e,
      id ∈ (listedIds organizationId since w.source.toIncidentDb).take (w.cursor.getD 0) →
        (listedIds organizationId since w.source.toIncidentDb).drop (w.cursor.getD 0) = []
  | .fetched => True

instance (organizationId : Uuid) (since : Option Instant) (w : IncidentsWalk ε) :
    DecidablePred (Undisturbed organizationId since w)
  | .changed e => inferInstanceAs (Decidable (∀ id ∈ touched w.source.toIncidentDb e, _ → _ = []))
  | .fetched => isTrue trivial

def layout (organizationId : Uuid) (since : Option Instant) :
    Layout (Tables ε) RawIncident Nat Uuid where
  containers := 1
  place cursor := (0, cursor.getD 0)
  listed tables _ := listedIds organizationId since tables.toIncidentDb
  shows _ id raw := raw.id = id

theorem fetch_items (organizationId : Uuid) (since : Option Instant) (tables : Tables ε)
    (cursor : Option Nat) :
    (fetch organizationId since tables cursor).items.map RawIncident.id =
      slice (cursor.getD 0) pageSize (listedIds organizationId since tables.toIncidentDb) := by
  show ((Repository.listIncidentsForIngestion _ _ _ _ _).map rawIncident).map RawIncident.id = _
  rw [listIncidentsForIngestion_eq tables.keyed, List.map_map, List.map_map]
  unfold listedIds
  rw [← map_slice]
  rfl

theorem layout_pages (organizationId : Uuid) (since : Option Instant) :
    (layout organizationId since).Pages (fetch (ε := ε) organizationId since) where
  start := rfl
  covers tables cursor id hahead := by
    have hitems := fetch_items organizationId since tables cursor
    have hlength : (fetch organizationId since tables cursor).items.length =
        (slice (cursor.getD 0) pageSize (listedIds organizationId since tables.toIncidentDb)).length := by
      rw [← hitems, List.length_map]
    have hshown : ∀ id ∈ slice (cursor.getD 0) pageSize
        (listedIds organizationId since tables.toIncidentDb),
        ∃ raw ∈ (fetch organizationId since tables cursor).items, raw.id = id := by
      intro id hid
      rw [← hitems] at hid
      exact List.mem_map.mp hid
    by_cases hfull : (fetch organizationId since tables cursor).items.length = pageSize
    · rcases mem_slice_or_ahead_of_length pageSize hahead with hslice | hnext
      · exact .inl (hshown id hslice)
      · refine .inr ⟨decide_eq_true hfull, rfl, ?_⟩
        have hcursor : (fetch organizationId since tables cursor).nextCursor =
            some (cursor.getD 0 + (fetch organizationId since tables cursor).items.length) :=
          if_pos hfull
        show id ∈ (listedIds _ _ _).drop ((fetch organizationId since tables cursor).nextCursor.getD 0)
        rw [hcursor, hlength]
        exact hnext
    · refine .inl (hshown id (mem_slice_of_short ?_ hahead))
      have hle : (slice (cursor.getD 0) pageSize
          (listedIds organizationId since tables.toIncidentDb)).length ≤ pageSize := by
        unfold slice
        rw [List.length_take]
        exact Nat.min_le_left _ _
      omega
  onward tables cursor i hlater hi := by
    have hzero : i < 1 := hi
    have hpos : 0 < i := hlater
    omega

theorem edit_quiet {tables' : Tables ε} {w : IncidentsWalk ε} {e : Edit}
    (hundisturbed : Undisturbed organizationId since w (.changed e))
    (h : editTables w.source e = some tables') :
    (layout organizationId since).Quiet w.cursor w.source tables' := by
  have hedit := editTables_some h
  refine ⟨?_, edit_keeps w.source.keyed hedit hundisturbed⟩
  intro _ id hid
  have hall : Keeps 0 (listedIds organizationId since w.source.toIncidentDb)
      (listedIds organizationId since tables'.toIncidentDb) :=
    edit_keeps w.source.keyed hedit fun id _ hnone => by cases hnone
  exact hall id hid

/-- Every incident that satisfies the filter when the walk begins is returned by its end,
if no edit touches an incident of the fetched pages while others are ahead. Incidents of
one time are taken to come in the order of the table, which `ORDER BY` does not promise. -/
theorem walk_complete (organizationId : Uuid) (since : Option Instant) {tables : Tables ε}
    {w : IncidentsWalk ε}
    (hrun : Run (step (fetch organizationId since) editTables) (Undisturbed organizationId since)
      { source := tables } w) (hend : w.hasMore = false) {incident : IncidentRow}
    (hincident : incident ∈ tables.incidents) (horganization : incident.organizationId = organizationId)
    (hlive : incident.deletedAt = none)
    (hsince : since.all fun t =>
      t ≤ Repository.lastModified (incident, resolutionOf tables.toIncidentDb incident)) :
    ∃ raw ∈ w.returned, raw.id = incident.id := by
  refine returned_of_quiet (layout_pages organizationId since)
    (fun w e tables' hok h => edit_quiet hok h) hrun hend Nat.zero_lt_one ?_
  refine List.mem_map.mpr ⟨(incident, resolutionOf tables.toIncidentDb incident), ?_, rfl⟩
  refine (mem_ordered _).mpr (List.mem_filter.mpr ⟨List.mem_map_of_mem ?_, hsince⟩)
  exact List.mem_filter.mpr ⟨hincident, decide_eq_true ⟨horganization, hlive⟩⟩

/-! ## One incident more than a page holds -/

/-- The incident that was reported at that time. -/
def outage (reportedAt : Nat) : IncidentRow :=
  { id := reportedAt, organizationId := 1, projectId := 5, title := "Outage", severity := "high"
    reportedBy := 7, createdAt := reportedAt, description := "Errors", updatedAt := reportedAt }

def outages : Tables Unit where
  toIncidentDb := { incidents := (List.range 51).map outage }
  keyed :=
    { incidents := by decide +kernel
      postmortems := List.nodup_nil
      perIncident := List.nodup_nil }

/-- The oldest incident is edited after the first page. -/
def editedWalk : List (Label Edit) := [.fetched, .changed (.incident 100 (outage 0)), .fetched]

/-- The newest incident is edited after the first page: it is ahead. -/
def editedAhead : List (Label Edit) := [.fetched, .changed (.incident 100 (outage 50)), .fetched]

theorem walk_complete_undisturbed :
    ∃ w, execWithin (step (fetch 1 none) editTables) (Undisturbed 1 none) { source := outages }
        editedAhead = some w ∧ ∃ raw ∈ w.returned, raw.id = (outage 50).id := by
  have hwalk : ((execWithin (step (fetch 1 none) editTables) (Undisturbed 1 none)
      { source := outages } editedAhead).any fun w => !w.hasMore) = true := by
    decide +kernel
  obtain ⟨w, hexec, hend⟩ := (Option.any_eq_true _ _).mp hwalk
  exact ⟨w, hexec, walk_complete 1 none (run_of_execWithin hexec) (by simpa using hend)
    (List.mem_map_of_mem (List.mem_range.mpr (by decide))) rfl rfl rfl⟩

/-- The last incident is on no page. -/
theorem walk_skips :
    ∃ w, Run (step (fetch 1 none) editTables) anyStep { source := outages } w ∧
      w.hasMore = false ∧ outage 50 ∈ outages.incidents ∧ (outage 50).organizationId = 1 ∧
      (outage 50).deletedAt = none ∧ ∀ raw ∈ w.returned, raw.id ≠ (outage 50).id := by
  have hwalk : ∃ w, exec (step (fetch 1 none) editTables) { source := outages } editedWalk = some w ∧
      (w.hasMore = false ∧ ∀ raw ∈ w.returned, raw.id ≠ (outage 50).id) :=
    exists_of_exec (by decide +kernel)
  obtain ⟨w, hexec, hend, hskipped⟩ := hwalk
  exact ⟨w, run_of_exec hexec, hend, List.mem_map_of_mem (List.mem_range.mpr (by decide)), rfl, rfl,
    hskipped⟩

end Ekip.Ingestion.Incidents
