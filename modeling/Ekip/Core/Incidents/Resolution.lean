import Ekip.Lib.Run
import Ekip.Core.Incidents.Service

/-!
# The time of resolution

Runs of creations and updates of incidents, each in a transaction of its own. The
stamp is computed from the patch and from the stamp before it, and still says in
every state whether the incident is resolved.
-/
namespace Ekip.Core.Incidents.Resolution

open Ekip.Lib Ekip.Database Ekip.Shared Ekip.Core

variable {ε : Type}

/-! ## Requests -/

inductive Request
  | createIncident (data : IncidentCreate)
  | updateIncident (incidentId : Uuid) (patch : IncidentUpdate)

structure Call where
  draw : Draw
  actor : Identity
  organizationId : Uuid
  request : Request

def perform (call : Call) : IncidentM ε IncidentRow :=
  match call.request with
  | .createIncident data => createIncident call.draw call.actor call.organizationId data
  | .updateIncident incidentId patch =>
    updateIncident call.draw call.actor call.organizationId incidentId patch

/-- The session scope around the request: a raise rolls it back. -/
def respond (call : Call) (db : IncidentDb ε) : Except Exn IncidentRow × IncidentDb ε :=
  Service.transaction (perform call) db

def next (db : IncidentDb ε) (call : Call) : Option (IncidentDb ε) := some (respond call db).2

/-! ## What a row says -/

def IsResolved (row : IncidentRow) : Prop := row.status = .resolved ∨ row.status = .closed

def Stamped (row : IncidentRow) : Prop := row.resolvedAt.isSome = true ↔ IsResolved row

def AllStamped (db : IncidentDb ε) : Prop := ∀ row ∈ db.incidents, Stamped row

/-- Something is committed only by a call that returns. -/
theorem respond_cases (call : Call) (db : IncidentDb ε) :
    (∃ row db', (perform call).Returns db row db' ∧ respond call db = (.ok row, db')) ∨
      ∃ exc, respond call db = (.error exc, db) := by
  rcases Service.transaction_cases (perform call) db with ⟨row, db', hreturns, h⟩ | ⟨exc, -, h⟩
  · exact .inl ⟨row, db', hreturns, h⟩
  · exact .inr ⟨exc, h⟩

/-! ## One call -/

variable {draw : Draw} {existing patched : IncidentRow} {patch : IncidentUpdate}

theorem notNull_ok {α : Type} {column : String} {current value : α} {named : Option (Option α)}
    (h : notNull column current named = .ok value) : value = named.join.getD current := by
  unfold notNull at h
  split at h
  · cases h
    rfl
  · cases h
    rfl
  · cases h

theorem patchFields_columns (h : patchFields draw existing patch = .ok patched) :
    patched.status = patch.status.join.getD existing.status ∧
      patched.resolvedAt = resolution draw existing patch.status.join := by
  unfold patchFields at h
  obtain ⟨status, hstatus, h⟩ := Query.bind_ok.mp h
  obtain ⟨severity, -, h⟩ := Query.bind_ok.mp h
  cases h
  exact ⟨notNull_ok hstatus, rfl⟩

/-- The resulting stamp fits the resulting status, though it is computed of the patch. -/
theorem patchFields_stamped (hexisting : Stamped existing)
    (h : patchFields draw existing patch = .ok patched) : Stamped patched := by
  obtain ⟨hstatus, hresolved⟩ := patchFields_columns h
  unfold Stamped IsResolved at hexisting ⊢
  rw [hstatus, hresolved]
  cases hpatch : patch.status.join with
  | none => exact hexisting
  | some status =>
    cases status with
    | «open» | investigating | resolved | closed => simp [resolution]

/-- A row that is resolved before and after keeps its stamp. -/
theorem patchFields_kept (hexisting : Stamped existing) (hbefore : IsResolved existing)
    (h : patchFields draw existing patch = .ok patched) (hafter : IsResolved patched) :
    patched.resolvedAt = existing.resolvedAt := by
  obtain ⟨hstatus, hresolved⟩ := patchFields_columns h
  have hset : existing.resolvedAt.isSome = true := hexisting.mpr hbefore
  obtain ⟨stamp, hstamp⟩ := Option.isSome_iff_exists.mp hset
  unfold IsResolved at hafter
  rw [hstatus] at hafter
  rw [hresolved]
  cases hpatch : patch.status.join with
  | none => rfl
  | some status =>
    rw [hpatch] at hafter
    cases status with
    | «open» | investigating => simp at hafter
    | resolved | closed => simp [resolution, hstamp]

theorem patchFields_key {db : IncidentDb ε} {incidentId : Uuid}
    (hexisting : Repository.getIncidentById db incidentId = some existing)
    (h : patchFields draw existing patch = .ok patched) (now : Instant) :
    ∀ row : IncidentRow, row.id = incidentId → (Repository.touch now row patched).id = incidentId := by
  have hid : patched.id = incidentId :=
    (patchFields_ok h).1.trans (Repository.getIncidentById_some hexisting).2
  intro row hrow
  unfold Repository.touch
  split
  · exact hrow
  · exact hid

theorem touch_columns (now : Instant) (old new : IncidentRow) :
    (Repository.touch now old new).status = new.status ∧
      (Repository.touch now old new).resolvedAt = new.resolvedAt := by
  unfold Repository.touch
  split
  · rename_i hsame
    rw [hsame]
    exact ⟨rfl, rfl⟩
  · exact ⟨rfl, rfl⟩

theorem touch_stamped (now : Instant) (old : IncidentRow) {new : IncidentRow} (h : Stamped new) :
    Stamped (Repository.touch now old new) := by
  obtain ⟨hstatus, hresolved⟩ := touch_columns now old new
  unfold Stamped IsResolved at h ⊢
  rwa [hstatus, hresolved]

theorem insertIncident_open {db db' : IncidentDb ε} {id organizationId projectId reportedBy : Uuid}
    {now : Instant} {title description severity : String} {row : IncidentRow}
    (h : (Repository.insertIncident id now organizationId projectId title description severity
      reportedBy).Returns db row db') : row.status = .open ∧ row.resolvedAt = none := by
  simp only [Repository.insertIncident, Service.bind_returns, Service.pure_returns] at h
  obtain ⟨_, _, -, _, _, -, _, _, -, _, _, -, _, _, -, rfl, -⟩ := h
  exact ⟨rfl, rfl⟩

theorem createIncident_open {db db' : IncidentDb ε} {actor : Identity} {organizationId : Uuid}
    {data : IncidentCreate} {row : IncidentRow}
    (h : (createIncident draw actor organizationId data).Returns db row db') :
    row.status = .open ∧ row.resolvedAt = none := by
  simp only [createIncident, Service.bind_returns] at h
  obtain ⟨_, _, -, _, _, -, _, _, -, _, _, -, hinsert⟩ := h
  exact insertIncident_open hinsert

/-- What a call leaves behind: the table as it was, a new row, or one row patched. -/
theorem perform_cases {call : Call} {db db' : IncidentDb ε} {row : IncidentRow}
    (h : (perform call).Returns db row db') :
    db' = db ∨
    ((∀ other ∈ db.incidents, other.id ≠ row.id) ∧ row.status = .open ∧ row.resolvedAt = none ∧
      db' = { db with incidents := db.incidents ++ [row] }) ∨
    ∃ incidentId patch existing patched, Repository.getIncidentById db incidentId = some existing ∧
      patchFields call.draw existing patch = .ok patched ∧
      db' = { db with
        incidents := Table.updateWhere db.incidents (fun row => row.id = incidentId)
          (fun row => Repository.touch call.draw.now row patched) } := by
  unfold perform at h
  split at h
  · rename_i data _
    obtain ⟨-, hfresh, hid, -, -, -, hdb⟩ := createIncident_returns h
    obtain ⟨hopen, hnone⟩ := createIncident_open h
    rw [← hid] at hfresh
    exact .inr (.inl ⟨hfresh, hopen, hnone, hdb⟩)
  · rename_i incidentId patch _
    rcases updateIncident_patched h with hsame | ⟨existing, patched, hexisting, hpatched, hdb⟩
    · exact .inl hsame
    · exact .inr (.inr ⟨incidentId, patch, existing, patched, hexisting, hpatched, hdb⟩)

/-! ## Every run -/

theorem next_stamped {db db' : IncidentDb ε} {call : Call} (hdb : AllStamped db)
    (h : next db call = some db') : AllStamped db' := by
  obtain rfl := Option.some.inj h
  rcases respond_cases call db with ⟨row, db', hreturns, hrespond⟩ | ⟨exc, hrespond⟩
  · rw [hrespond]
    rcases perform_cases hreturns with rfl | ⟨-, hopen, hnone, rfl⟩ |
        ⟨incidentId, patch, existing, patched, hexisting, hpatched, rfl⟩
    · exact hdb
    · intro other hother
      rcases List.mem_append.mp hother with hother | hother
      · exact hdb other hother
      · obtain rfl := List.mem_singleton.mp hother
        simp [Stamped, IsResolved, hopen, hnone]
    · have hbefore := hdb existing (Repository.getIncidentById_some hexisting).1
      have hafter := patchFields_stamped hbefore hpatched
      intro other hother
      obtain ⟨stored, hstored, rfl⟩ := Table.mem_updateWhere.mp hother
      split
      · exact touch_stamped _ _ hafter
      · exact hdb stored hstored
  · rw [hrespond]
    exact hdb

/-- The incident is resolved before the call and after it. -/
def StaysResolved (incidentId : Uuid) (db : IncidentDb ε) (call : Call) : Prop :=
  (∃ row, Repository.getIncidentById db incidentId = some row ∧ IsResolved row) ∧
    ∃ row, Repository.getIncidentById (respond call db).2 incidentId = some row ∧ IsResolved row

def resolvedAt (db : IncidentDb ε) (incidentId : Uuid) : Option Instant :=
  (Repository.getIncidentById db incidentId).bind IncidentRow.resolvedAt

theorem next_kept {db db' : IncidentDb ε} {call : Call} {incidentId : Uuid} (hdb : AllStamped db)
    (hstays : StaysResolved incidentId db call) (h : next db call = some db') :
    resolvedAt db' incidentId = resolvedAt db incidentId := by
  obtain rfl := Option.some.inj h
  obtain ⟨⟨before, hbefore, hresolved⟩, after, hafter, hstill⟩ := hstays
  unfold resolvedAt
  rcases respond_cases call db with ⟨row, db', hreturns, hrespond⟩ | ⟨exc, hrespond⟩
  · rw [hrespond] at hafter ⊢
    rcases perform_cases hreturns with rfl | ⟨hfresh, -, -, rfl⟩ |
        ⟨other, patch, existing, patched, hexisting, hpatched, rfl⟩
    · rfl
    · have hsame : Repository.getIncidentById { db with incidents := db.incidents ++ [row] } incidentId =
          some before := by
        unfold Repository.getIncidentById Table.get? at hbefore ⊢
        rw [List.find?_append, hbefore, Option.some_or]
      rw [hsame, hbefore]
    · have hkey := patchFields_key hexisting hpatched call.draw.now
      by_cases hid : incidentId = other
      · subst hid
        obtain rfl := Option.some.inj (hexisting.symm.trans hbefore)
        have hget := Table.get?_updateWhere_of_matching (t := db.incidents) hkey
        unfold Repository.getIncidentById at hafter hexisting ⊢
        rw [hget, hexisting] at hafter
        obtain rfl := Option.some.inj hafter
        obtain ⟨hstatus, hstamp⟩ := touch_columns call.draw.now existing patched
        unfold IsResolved at hstill
        rw [hstatus] at hstill
        have hkept := patchFields_kept (hdb existing (Table.get?_some hexisting).1) hresolved hpatched
          hstill
        rw [hget, hexisting]
        exact hstamp.trans hkept
      · have hget := Table.get?_updateWhere_of_ne (t := db.incidents) hid hkey
        unfold Repository.getIncidentById
        rw [hget]
  · rw [hrespond]

/-- In every state that creations and updates reach, an incident has a time of
resolution exactly where it is resolved or closed; the time stays as long as the
incident does; and a call that raises changes nothing. -/
theorem resolution_follows {db : IncidentDb ε} (hempty : db.incidents = []) :
    (∀ db', Run next anyStep db db' → AllStamped db' ∧
      (∀ incidentId db'', Run next (StaysResolved incidentId) db' db'' →
        resolvedAt db'' incidentId = resolvedAt db' incidentId)) ∧
    ∀ (db' : IncidentDb ε) (call : Call) (exc : Exn),
      (respond call db').1 = .error exc → (respond call db').2 = db' := by
  have hfirst : AllStamped db := by
    intro row hrow
    rw [hempty] at hrow
    cases hrow
  constructor
  · intro db' hrun
    have hstamped : AllStamped db' :=
      hrun.invariant (fun db call db' hdb _ h => next_stamped hdb h) hfirst
    refine ⟨hstamped, ?_⟩
    intro incidentId db'' hstays
    exact hstays.relation (I := AllStamped)
      (R := fun s t => resolvedAt t incidentId = resolvedAt s incidentId)
      (fun db call db' hdb _ h => next_stamped hdb h) (fun _ => rfl)
      (fun _ _ _ hst htu => htu.trans hst) (fun db call db' hdb hok h => next_kept hdb hok h) hstamped
  · intro db' call exc hraise
    rcases respond_cases call db' with ⟨row, db'', -, hrespond⟩ | ⟨exc', hrespond⟩
    · rw [hrespond] at hraise
      cases hraise
    · rw [hrespond]

/-- One project, and a user who may write its incidents. -/
def onCallDb : IncidentDb Unit :=
  { projects := [{ id := 7, organizationId := 5, name := "Payments" }] }

def onCall : Identity :=
  { kind := .user, subject := "1", organizationId := 5, userId := some 1
    permissions := {incidentWritePermission} }

def report : Call where
  draw := { incidentId := 9, now := 100 }
  actor := onCall
  organizationId := 5
  request := .createIncident
    { title := "Outage", description := "Payments fail", severity := "high", projectId := some 7 }

def resolve : Call where
  draw := { incidentId := 0, now := 200 }
  actor := onCall
  organizationId := 5
  request := .updateIncident 9 { status := some (some .resolved) }

theorem resolution_follows_outage :
    ∃ db, exec next onCallDb [report, resolve] = some db ∧ resolvedAt db 9 = some 200 ∧
      AllStamped db := by
  obtain ⟨db, hexec, hresolved⟩ : ∃ db, exec next onCallDb [report, resolve] = some db ∧
      resolvedAt db 9 = some 200 := ⟨_, rfl, by decide +kernel⟩
  have hempty : onCallDb.incidents = [] := rfl
  exact ⟨db, hexec, hresolved, ((resolution_follows hempty).1 db (run_of_exec hexec)).1⟩

end Ekip.Core.Incidents.Resolution
