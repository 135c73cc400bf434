import Ekip.Core.Auth.Service
import Ekip.Lib.ReadCommitted
import Ekip.Lib.Run

/-!
# Interleaved session requests

Logins, refreshes, logouts and mass revocations, each in a session of its own
under read-committed isolation. A request advances by one database statement or
by one check of what it has read; requests interleave in any order and may
abort. `UPDATE` by primary key repeats no check: it waits for the row and writes
whatever is committed by then with `revoked_at` set.
-/
namespace Ekip.Core.Auth.SessionRace

open Ekip.Lib Ekip.Lib.ReadCommitted Ekip.Database Ekip.Core.Tenancy

abbrev Rid := Nat

/-- The `WHERE` of a mass revocation. -/
inductive Sweep
  | family (familyId : Uuid)
  | user (userId organizationId : Uuid)
deriving DecidableEq

def Sweep.covers : Sweep → RefreshToken → Bool
  | .family familyId, row => row.familyId = familyId ∧ row.revokedAt = none
  | .user userId organizationId, row => Repository.activeForUser userId organizationId row

inductive Request
  | login (userId organizationId : Uuid)
  | refresh (now : Instant) (rawToken : String)
  | logout (now : Instant) (rawToken : String)
  | revokeAll (now : Instant) (userId organizationId : Uuid)
deriving DecidableEq

/-- Why a request holds a row. -/
inductive Purpose
  | refresh
  | logout
deriving DecidableEq

/-- Where a request stands. -/
inductive Phase
  | idle
  | started (request : Request)
  /-- The row by hash is read, and not checked yet. -/
  | loaded (now : Instant) (purpose : Purpose) (row : Option RefreshToken)
  | checked (now : Instant) (purpose : Purpose) (row : RefreshToken)
  /-- A refresh has set `revoked_at`. -/
  | revoked (row : RefreshToken)
  | inserted (row successor : RefreshToken)
  | loggedOut
  | loggedIn (row : RefreshToken)
  /-- The rows of the statement's snapshot that are not updated yet. -/
  | sweeping (now : Instant) (sweep : Sweep) (raises : Bool) (rest : List Uuid)
  | finished
deriving DecidableEq

/-- What the commit of a rotation adds to the history. -/
def Phase.rotation : Phase → List (Uuid × Uuid)
  | inserted row successor => [(row.id, successor.id)]
  | _ => []

structure St where
  store : Store Rid RefreshToken
  phase : Rid → Phase
  /-- The committed rotations, in commit order: the id of the row that was
  redeemed and the id of its successor. -/
  rotations : List (Uuid × Uuid)

def init : St := { store := { committed := [] }, phase := fun _ => .idle, rotations := [] }

namespace St

def goto (s : St) (t : Rid) (phase : Phase) : St :=
  { s with phase := Function.update s.phase t phase }

def write (s : St) (t : Rid) (row : RefreshToken) (phase : Phase) : St :=
  { s with store := s.store.write t row, phase := Function.update s.phase t phase }

def commit (s : St) (t : Rid) : St :=
  { store := s.store.commit RefreshToken.id t, phase := Function.update s.phase t .finished
    rotations := s.rotations ++ (s.phase t).rotation }

def rollback (s : St) (t : Rid) : St :=
  { s with store := s.store.rollback t, phase := Function.update s.phase t .finished }

/-- What a statement of `t` reads. -/
def rows (s : St) (t : Rid) : List RefreshToken := s.store.view RefreshToken.id t

def beginSweep (s : St) (t : Rid) (now : Instant) (sweep : Sweep) (raises : Bool) : St :=
  s.goto t (.sweeping now sweep raises (((s.rows t).filter sweep.covers).map RefreshToken.id))

end St

/-- Generated ids, tokens and families are distinct from all that is stored or
about to be. -/
def Unused (env : Env) (store : Store Rid RefreshToken) (draw : Draw) : Prop :=
  ∀ row ∈ store.committed ++ store.pending.map Prod.snd,
    row.id ≠ draw.refreshTokenId ∧ row.tokenHash ≠ hashToken env draw.rawRefreshToken ∧
      row.familyId ≠ draw.familyId

instance (env : Env) (store : Store Rid RefreshToken) (draw : Draw) :
    Decidable (Unused env store draw) :=
  inferInstanceAs (Decidable (∀ _ ∈ _, _ ∧ _ ∧ _))

/-- `SET revoked_at` on the row `id` as it is committed now, once it is free. -/
def update (s : St) (t : Rid) (id : Uuid) (now : Instant) (which : RefreshToken → Bool)
    (phase : Phase) : Option St :=
  if s.store.free RefreshToken.id t id then
    (Table.get? RefreshToken.id (s.rows t) id).map fun row =>
      if which row then s.write t (row.revoke now) phase else s.goto t phase
  else none

def afterUpdate (purpose : Purpose) (row : RefreshToken) : Phase :=
  match purpose with
  | .refresh => .revoked row
  | .logout => .loggedOut

/-- What a request does with the row it has read. -/
def check (s : St) (t : Rid) (now : Instant) (purpose : Purpose) (row : RefreshToken) : St :=
  match purpose with
  | .refresh =>
    if row.revokedAt ≠ none then s.beginSweep t now (.family row.familyId) true
    else if row.expiresAt ≤ now then s.rollback t
    else s.goto t (.checked now .refresh row)
  | .logout =>
    if row.revokedAt ≠ none then s.rollback t else s.goto t (.checked now .logout row)

/-- The next step of request `t`. -/
def advance (env : Env) (s : St) (t : Rid) (draw : Draw) : Option St :=
  match s.phase t with
  | .idle => none
  | .finished => none
  | .started (.login userId organizationId) =>
    if Unused env s.store draw then
      let row := sessionRow env draw userId organizationId draw.familyId
      some (s.write t row (.loggedIn row))
    else none
  | .started (.refresh now rawToken) =>
    some (s.goto t (.loaded now .refresh
      (Table.get? RefreshToken.tokenHash (s.rows t) (hashToken env rawToken))))
  | .started (.logout now rawToken) =>
    some (s.goto t (.loaded now .logout
      (Table.get? RefreshToken.tokenHash (s.rows t) (hashToken env rawToken))))
  | .started (.revokeAll now userId organizationId) =>
    some (s.beginSweep t now (.user userId organizationId) false)
  | .loaded _ _ none => some (s.rollback t)
  | .loaded now purpose (some row) => some (check s t now purpose row)
  | .checked now purpose row =>
    update s t row.id now (fun _ => true) (afterUpdate purpose row)
  | .revoked row =>
    if Unused env s.store draw then
      let successor := sessionRow env draw row.userId row.organizationId row.familyId
      some (s.write t successor (.inserted row successor))
    else none
  | .inserted _ _ => some (s.commit t)
  | .loggedOut => some (s.commit t)
  | .loggedIn _ => some (s.commit t)
  | .sweeping now sweep raises (id :: rest) =>
    update s t id now sweep.covers (.sweeping now sweep raises rest)
  | .sweeping _ _ true [] => some (s.rollback t)
  | .sweeping _ _ false [] => some (s.commit t)

inductive Label
  | start (t : Rid) (request : Request)
  | advance (t : Rid) (draw : Draw)
  | abort (t : Rid)

def step (env : Env) (s : St) : Label → Option St
  | .start t request => if s.phase t = .idle then some (s.goto t (.started request)) else none
  | .advance t draw => advance env s t draw
  | .abort t => if s.phase t = .idle ∨ s.phase t = .finished then none else some (s.rollback t)

/-! ## What the phases say -/

namespace Phase

/-- The transaction may hold uncommitted images. -/
def writing : Phase → Bool
  | revoked _ | inserted _ _ | loggedOut | loggedIn _ | sweeping _ _ _ _ => true
  | idle | started _ | loaded _ _ _ | checked _ _ _ | finished => false

/-- The next step is the commit. -/
def commits : Phase → Bool
  | inserted _ _ | loggedOut | loggedIn _ | sweeping _ _ false [] => true
  | _ => false

/-- The row that is in none but this transaction's images. -/
def newRow : Phase → Option RefreshToken
  | inserted _ successor => some successor
  | loggedIn row => some row
  | _ => none

/-- The row that a refresh or a logout has read. -/
def held : Phase → Option RefreshToken
  | loaded _ _ row => row
  | checked _ _ row => some row
  | revoked row => some row
  | inserted row _ => some row
  | _ => none

/-- The row that a refresh has read unrevoked. -/
def rotating : Phase → Option RefreshToken
  | loaded _ .refresh row => row.filter fun row => row.revokedAt = none
  | checked _ .refresh row => some row
  | revoked row => some row
  | inserted row _ => some row
  | _ => none

/-- The row that a refresh has locked by its `UPDATE`. -/
def locks : Phase → Option Uuid
  | revoked row => some row.id
  | inserted row _ => some row.id
  | _ => none

end Phase

/-- The row image sets `revoked_at` on a committed row and changes nothing else. -/
def Revocation (committed : List RefreshToken) (w : RefreshToken) : Prop :=
  (∃ c ∈ committed, c.ident = w.ident) ∧ w.revokedAt ≠ none

/-- One step, by what it does to the store. -/
inductive Move (s : St) (t : Rid) : St → Prop
  | goto (p : Phase) (hbefore : (s.phase t).newRow = none) (hafter : p.newRow = none)
      (hlocks : p.locks = none)
      (hquiet : p.writing = false → (s.phase t).writing = false)
      (hheld : ∀ row, p.held = some row → (s.phase t).held = some row ∨ row ∈ s.rows t)
      (hrotating : ∀ row, p.rotating = some row → (s.phase t).rotating = some row ∨
        ((s.phase t).writing = false ∧ row ∈ s.rows t ∧ row.revokedAt = none)) :
      Move s t (s.goto t p)
  | revoke (p : Phase) (row : RefreshToken) (now : Instant) (hrow : row ∈ s.rows t)
      (hfree : s.store.free RefreshToken.id t row.id = true)
      (hbefore : (s.phase t).newRow = none) (hafter : p.newRow = none) (hwriting : p.writing = true)
      (hlocks : ∀ id, p.locks = some id → row.id = id ∧
        ∃ now' held, s.phase t = .checked now' .refresh held ∧ held.id = id)
      (hheld : ∀ row, p.held = some row → (s.phase t).held = some row)
      (hrotating : ∀ row, p.rotating = some row → (s.phase t).rotating = some row) :
      Move s t (s.write t (row.revoke now) p)
  | login (row : RefreshToken) (hphase : ∃ u o, s.phase t = .started (.login u o))
      (hlive : row.revokedAt = none)
      (hunused : ∀ other ∈ s.store.committed ++ s.store.pending.map Prod.snd,
        other.id ≠ row.id ∧ other.familyId ≠ row.familyId) :
      Move s t (s.write t row (.loggedIn row))
  | succeed (row successor : RefreshToken) (hphase : s.phase t = .revoked row)
      (hlive : successor.revokedAt = none)
      (hunused : ∀ other ∈ s.store.committed ++ s.store.pending.map Prod.snd,
        other.id ≠ successor.id)
      (hcopy : successor.userId = row.userId ∧ successor.organizationId = row.organizationId ∧
        successor.familyId = row.familyId) :
      Move s t (s.write t successor (.inserted row successor))
  | commit (hcommits : (s.phase t).commits = true) : Move s t (s.commit t)
  | rollback : Move s t (s.rollback t)

def Label.rid : Label → Rid
  | .start t _ => t
  | .advance t _ => t
  | .abort t => t

variable {env : Env} {s s' : St} {t : Rid}

theorem beginSweep_move {now : Instant} {sweep : Sweep} {raises : Bool}
    (hbefore : (s.phase t).newRow = none) : Move s t (s.beginSweep t now sweep raises) :=
  .goto _ hbefore rfl rfl (fun h => nomatch h) (fun _ h => nomatch h) (fun _ h => nomatch h)

theorem check_move {now : Instant} {purpose : Purpose} {row : RefreshToken}
    (hphase : s.phase t = .loaded now purpose (some row)) : Move s t (check s t now purpose row) := by
  have hnew : (s.phase t).newRow = none := by rw [hphase]; rfl
  have hchecked : row.revokedAt = none → Move s t (s.goto t (.checked now purpose row)) := by
    intro hlive
    refine .goto _ hnew rfl rfl (fun _ => by rw [hphase]; rfl) ?_ ?_
    · intro held hheld
      rw [hphase]
      exact .inl hheld
    · intro held hheld
      cases purpose with
      | refresh =>
        obtain rfl : row = held := by simpa [Phase.rotating] using hheld
        rw [hphase]
        exact .inl (by simp [Phase.rotating, hlive])
      | logout => cases hheld
  unfold check
  cases purpose with
  | refresh =>
    dsimp only
    split
    · exact beginSweep_move hnew
    · split
      · exact .rollback
      · next hrevoked _ => exact hchecked (by simpa using hrevoked)
  | logout =>
    dsimp only
    split
    · exact .rollback
    · next hrevoked => exact hchecked (by simpa using hrevoked)

/-- An `UPDATE` waits for its row and then writes it or skips it. -/
theorem update_cases {id : Uuid} {now : Instant} {which : RefreshToken → Bool} {p : Phase}
    (h : update s t id now which p = some s') :
    s.store.free RefreshToken.id t id = true ∧ ∃ row ∈ s.rows t, row.id = id ∧
      ((which row = true ∧ s' = s.write t (row.revoke now) p) ∨
        (which row = false ∧ s' = s.goto t p)) := by
  unfold update at h
  split at h
  case isFalse => cases h
  case isTrue hfree =>
    obtain ⟨row, hrow, rfl⟩ := Option.map_eq_some_iff.mp h
    obtain ⟨hmem, hid⟩ := Table.get?_some hrow
    refine ⟨hfree, row, hmem, hid, ?_⟩
    by_cases hw : which row = true
    · exact .inl ⟨hw, if_pos hw⟩
    · exact .inr ⟨by simpa using hw, if_neg hw⟩

theorem lookup_move {now : Instant} {purpose : Purpose} {request : Request} {tokenHash : String}
    (hphase : s.phase t = .started request) :
    Move s t (s.goto t (.loaded now purpose
      (Table.get? RefreshToken.tokenHash (s.rows t) tokenHash))) := by
  have hquiet : (s.phase t).writing = false := by rw [hphase]; rfl
  refine .goto _ (by rw [hphase]; rfl) rfl rfl (fun _ => hquiet) ?_ ?_
  · intro row hrow
    exact .inr (Table.get?_some hrow).1
  · intro row hrow
    cases purpose with
    | refresh =>
      obtain ⟨hget, hlive⟩ := Option.filter_eq_some_iff.mp hrow
      exact .inr ⟨hquiet, (Table.get?_some hget).1, by simpa using hlive⟩
    | logout => cases hrow

/-- Everything a step can do. -/
theorem step_move {a : Label} (h : step env s a = some s') : Move s a.rid s' := by
  cases a with
  | start t request =>
    show Move s t s'
    simp only [step] at h
    split at h
    case isFalse => cases h
    case isTrue hidle =>
      obtain rfl := Option.some.inj h
      exact .goto _ (by rw [hidle]; rfl) rfl rfl (fun _ => by rw [hidle]; rfl)
        (fun _ h => nomatch h) (fun _ h => nomatch h)
  | abort t =>
    simp only [step] at h
    split at h
    case isTrue => cases h
    case isFalse =>
      obtain rfl := Option.some.inj h
      exact .rollback
  | advance t draw =>
    simp only [step, advance] at h
    show Move s t s'
    split at h
    · cases h
    · cases h
    · next userId organizationId hphase =>
        split at h
        case isFalse => cases h
        case isTrue hunused =>
          obtain rfl := Option.some.inj h
          exact .login _ ⟨_, _, hphase⟩ rfl fun other hother =>
            ⟨(hunused other hother).1, (hunused other hother).2.2⟩
    · next hphase =>
        obtain rfl := Option.some.inj h
        exact lookup_move hphase
    · next hphase =>
        obtain rfl := Option.some.inj h
        exact lookup_move hphase
    · next hphase =>
        obtain rfl := Option.some.inj h
        exact beginSweep_move (by rw [hphase]; rfl)
    · obtain rfl := Option.some.inj h
      exact .rollback
    · next hphase =>
        obtain rfl := Option.some.inj h
        exact check_move hphase
    · next now purpose held hphase =>
        obtain ⟨hfree, row, hrow, hid, ⟨_, rfl⟩ | ⟨hfalse, _⟩⟩ := update_cases h
        · refine .revoke _ row now hrow (by rwa [hid]) (by rw [hphase]; rfl) ?_ ?_ ?_ ?_ ?_ <;>
            cases purpose
          · rfl
          · rfl
          · rfl
          · rfl
          · intro id hlock
            obtain rfl := Option.some.inj hlock
            exact ⟨hid, now, held, hphase, rfl⟩
          · exact fun _ hlock => nomatch hlock
          · intro row' hrow'
            rw [hphase]
            exact hrow'
          · exact fun _ hrow' => nomatch hrow'
          · intro row' hrow'
            rw [hphase]
            exact hrow'
          · exact fun _ hrow' => nomatch hrow'
        · cases hfalse
    · next row hphase =>
        split at h
        case isFalse => cases h
        case isTrue hunused =>
          obtain rfl := Option.some.inj h
          exact .succeed _ _ hphase rfl (fun other hother => (hunused other hother).1)
            ⟨rfl, rfl, rfl⟩
    · next hphase =>
        obtain rfl := Option.some.inj h
        exact .commit (by rw [hphase]; rfl)
    · next hphase =>
        obtain rfl := Option.some.inj h
        exact .commit (by rw [hphase]; rfl)
    · next hphase =>
        obtain rfl := Option.some.inj h
        exact .commit (by rw [hphase]; rfl)
    · next hphase =>
        obtain ⟨hfree, row, hrow, hid, ⟨_, rfl⟩ | ⟨_, rfl⟩⟩ := update_cases h
        · exact .revoke _ row _ hrow (by rwa [hid]) (by rw [hphase]; rfl) rfl rfl
            (fun _ h => nomatch h) (fun _ h => nomatch h) (fun _ h => nomatch h)
        · exact .goto _ (by rw [hphase]; rfl) rfl rfl (fun h => nomatch h) (fun _ h => nomatch h)
            (fun _ h => nomatch h)
    · obtain rfl := Option.some.inj h
      exact .rollback
    · next hphase =>
        obtain rfl := Option.some.inj h
        exact .commit (by rw [hphase]; rfl)

/-! ## The invariant of every run -/

structure Inv (s : St) : Prop where
  idUnique : Table.KeyUnique RefreshToken.id s.store.committed
  exclusive : s.store.Exclusive RefreshToken.id
  /-- Who has not written holds no images. -/
  quiet : ∀ t, (s.phase t).writing = false → s.store.images t = []
  /-- An image revokes a committed row or is the row its transaction adds. -/
  images : ∀ t w, (t, w) ∈ s.store.pending →
    Revocation s.store.committed w ∨ (s.phase t).newRow = some w
  added : ∀ t w, (s.phase t).newRow = some w →
    (t, w) ∈ s.store.pending ∧ w.revokedAt = none ∧ ∀ c ∈ s.store.committed, c.id ≠ w.id
  held : ∀ t row, (s.phase t).held = some row → ∃ c ∈ s.store.committed, c.ident = row.ident
  locked : ∀ t id, (s.phase t).locks = some id → ∃ w, (t, w) ∈ s.store.pending ∧ w.id = id
  successor : ∀ t row successor, s.phase t = .inserted row successor →
    successor.userId = row.userId ∧ successor.organizationId = row.organizationId ∧
      successor.familyId = row.familyId
  /-- The family of a login in progress is its own. -/
  family : ∀ t row, s.phase t = .loggedIn row →
    (∀ c ∈ s.store.committed, c.familyId ≠ row.familyId) ∧
      ∀ t' w, (t', w) ∈ s.store.pending → w.familyId = row.familyId → t' = t

theorem inv_init : Inv init where
  idUnique := Table.keyUnique_nil
  exclusive := fun _ h => nomatch h
  quiet := fun _ _ => rfl
  images := fun _ _ h => nomatch h
  added := fun _ _ h => nomatch h
  held := fun _ _ h => nomatch h
  locked := fun _ _ h => nomatch h
  successor := fun _ _ _ h => nomatch h
  family := fun _ _ h => nomatch h

theorem ident_id {a b : RefreshToken} (h : a.ident = b.ident) : a.id = b.id :=
  (RefreshToken.ident_eq_iff.mp h).1

theorem ident_familyId {a b : RefreshToken} (h : a.ident = b.ident) : a.familyId = b.familyId :=
  (RefreshToken.ident_eq_iff.mp h).2.2.2.1

namespace Inv

variable (h : Inv s)
include h

/-- A row read by a transaction that adds none is committed, up to `revoked_at`. -/
theorem read_committed (hnew : (s.phase t).newRow = none) {row : RefreshToken}
    (hrow : row ∈ s.rows t) : ∃ c ∈ s.store.committed, c.ident = row.ident := by
  rcases Store.mem_of_mem_view hrow with hc | himage
  · exact ⟨row, hc, rfl⟩
  · rcases h.images t row (Store.mem_images.mp himage) with ⟨hcommitted, _⟩ | hadded
    · exact hcommitted
    · rw [hnew] at hadded
      cases hadded

theorem read_quiet (hquiet : (s.phase t).writing = false) {row : RefreshToken} :
    row ∈ s.rows t ↔ row ∈ s.store.committed := by
  unfold St.rows
  rw [Store.view_of_images_nil (h.quiet t hquiet)]

/-- Where a committed row comes from. -/
theorem commit_origin {x : RefreshToken} (hx : x ∈ s.rows t) :
    (∃ c ∈ s.store.committed, c.ident = x.ident ∧ (x.revokedAt = none → c = x)) ∨
      (s.phase t).newRow = some x := by
  rcases Store.mem_of_mem_view hx with hc | himage
  · exact .inl ⟨x, hc, rfl, fun _ => rfl⟩
  · rcases h.images t x (Store.mem_images.mp himage) with ⟨⟨c, hc, hident⟩, hrevoked⟩ | hadded
    · exact .inl ⟨c, hc, hident, fun hlive => absurd hlive hrevoked⟩
    · exact .inr hadded

/-- No committed row is lost, and none becomes unrevoked again. -/
theorem commit_keeps {c : RefreshToken} (hc : c ∈ s.store.committed) (t : Rid) :
    ∃ x ∈ s.rows t, x.ident = c.ident ∧ (c.revokedAt ≠ none → x.revokedAt ≠ none) := by
  obtain ⟨x, hx, hid⟩ : ∃ x ∈ s.rows t, x.id = c.id := Store.view_covers (.inl hc)
  rcases h.commit_origin hx with ⟨c', hc', hident, hsame⟩ | hadded
  · obtain rfl : c' = c := h.idUnique c' hc' c hc ((ident_id hident).trans hid)
    refine ⟨x, hx, hident.symm, fun hrevoked hlive => ?_⟩
    rw [hsame hlive] at hrevoked
    exact hrevoked hlive
  · exact absurd hid.symm ((h.added t x hadded).2.2 c hc)

/-- A row that the transaction has updated is committed revoked. -/
theorem commit_written {w x : RefreshToken} (hw : (t, w) ∈ s.store.pending) (hx : x ∈ s.rows t)
    (hid : w.id = x.id) (hcommitted : ∃ c ∈ s.store.committed, c.id = x.id) :
    x.revokedAt ≠ none := by
  have himage := Store.mem_images_of_written hx (Store.mem_images.mpr hw) hid
  rcases h.images t x (Store.mem_images.mp himage) with ⟨_, hrevoked⟩ | hadded
  · exact hrevoked
  · obtain ⟨c, hc, hcid⟩ := hcommitted
    exact absurd hcid ((h.added t x hadded).2.2 c hc)

end Inv

@[simp] theorem goto_phase_self (p : Phase) : (s.goto t p).phase t = p := Function.update_self ..
@[simp] theorem write_phase_self (row : RefreshToken) (p : Phase) :
    (s.write t row p).phase t = p := Function.update_self ..
@[simp] theorem commit_phase_self : (s.commit t).phase t = .finished := Function.update_self ..
@[simp] theorem rollback_phase_self : (s.rollback t).phase t = .finished := Function.update_self ..

variable {t' : Rid}

theorem goto_phase_ne (hne : t' ≠ t) (p : Phase) : (s.goto t p).phase t' = s.phase t' :=
  Function.update_of_ne hne ..
theorem write_phase_ne (hne : t' ≠ t) (row : RefreshToken) (p : Phase) :
    (s.write t row p).phase t' = s.phase t' := Function.update_of_ne hne ..
theorem commit_phase_ne (hne : t' ≠ t) : (s.commit t).phase t' = s.phase t' :=
  Function.update_of_ne hne ..
theorem rollback_phase_ne (hne : t' ≠ t) : (s.rollback t).phase t' = s.phase t' :=
  Function.update_of_ne hne ..

theorem mem_write_pending {row w : RefreshToken} {p : Phase} :
    (t', w) ∈ (s.write t row p).store.pending ↔
      (t', w) ∈ s.store.pending ∨ (t' = t ∧ w = row) := by
  simp [St.write, Store.write]

theorem mem_rollback_pending {w : RefreshToken} :
    (t', w) ∈ (s.store.rollback t).pending ↔ (t', w) ∈ s.store.pending ∧ t' ≠ t := by
  simp [Store.rollback]

theorem Inv.goto (h : Inv s) {p : Phase} (hbefore : (s.phase t).newRow = none)
    (hafter : p.newRow = none) (hlocks : p.locks = none)
    (hquiet : p.writing = false → (s.phase t).writing = false)
    (hheld : ∀ row, p.held = some row → ∃ c ∈ s.store.committed, c.ident = row.ident) :
    Inv (s.goto t p) where
  idUnique := h.idUnique
  exclusive := h.exclusive
  quiet := by
    intro t' hw
    rcases eq_or_ne t' t with rfl | hne
    · rw [goto_phase_self] at hw
      exact h.quiet t' (hquiet hw)
    · rw [goto_phase_ne hne] at hw
      exact h.quiet t' hw
  images := by
    intro t' w hw
    have himage := h.images t' w hw
    rcases eq_or_ne t' t with rfl | hne
    · rw [hbefore] at himage
      exact .inl (himage.resolve_right nofun)
    · rwa [goto_phase_ne hne]
  added := by
    intro t' w hw
    rcases eq_or_ne t' t with rfl | hne
    · rw [goto_phase_self, hafter] at hw
      cases hw
    · rw [goto_phase_ne hne] at hw
      exact h.added t' w hw
  held := by
    intro t' row hrow
    rcases eq_or_ne t' t with rfl | hne
    · rw [goto_phase_self] at hrow
      exact hheld row hrow
    · rw [goto_phase_ne hne] at hrow
      exact h.held t' row hrow
  locked := by
    intro t' id hid
    rcases eq_or_ne t' t with rfl | hne
    · rw [goto_phase_self, hlocks] at hid
      cases hid
    · rw [goto_phase_ne hne] at hid
      exact h.locked t' id hid
  successor := by
    intro t' row successor hphase
    rcases eq_or_ne t' t with rfl | hne
    · rw [goto_phase_self] at hphase
      rw [hphase] at hafter
      cases hafter
    · rw [goto_phase_ne hne] at hphase
      exact h.successor t' row successor hphase
  family := by
    intro t' row hphase
    rcases eq_or_ne t' t with rfl | hne
    · rw [goto_phase_self] at hphase
      rw [hphase] at hafter
      cases hafter
    · rw [goto_phase_ne hne] at hphase
      exact h.family t' row hphase

/-- What a write asks of the row image and of the phase it leads to. -/
structure WriteOk (s : St) (t : Rid) (row : RefreshToken) (p : Phase) : Prop where
  free : s.store.free RefreshToken.id t row.id = true
  before : (s.phase t).newRow = none
  writing : p.writing = true
  image : (Revocation s.store.committed row ∧ p.newRow = none) ∨
    (p.newRow = some row ∧ row.revokedAt = none ∧ ∀ c ∈ s.store.committed, c.id ≠ row.id)
  held : ∀ row', p.held = some row' → (s.phase t).held = some row'
  locked : ∀ id, p.locks = some id → (s.phase t).locks = some id ∨ row.id = id
  successor : ∀ row' successor, p = .inserted row' successor →
    successor.userId = row'.userId ∧ successor.organizationId = row'.organizationId ∧
      successor.familyId = row'.familyId
  login : ∀ row', p = .loggedIn row' → row' = row ∧
    ∀ other ∈ s.store.committed ++ s.store.pending.map Prod.snd, other.familyId ≠ row.familyId
  family : ∀ t' row', t' ≠ t → s.phase t' = .loggedIn row' → row.familyId ≠ row'.familyId

theorem Inv.write (h : Inv s) {row : RefreshToken} {p : Phase} (hok : WriteOk s t row p) :
    Inv (s.write t row p) where
  idUnique := h.idUnique
  exclusive := h.exclusive.write hok.free
  quiet := by
    intro t' hw
    rcases eq_or_ne t' t with rfl | hne
    · rw [write_phase_self, hok.writing] at hw
      cases hw
    · rw [write_phase_ne hne] at hw
      exact (Store.images_write_other hne row).trans (h.quiet t' hw)
  images := by
    intro t' w hw
    rcases mem_write_pending.mp hw with hold | ⟨rfl, rfl⟩
    · have himage := h.images t' w hold
      rcases eq_or_ne t' t with rfl | hne
      · rw [hok.before] at himage
        exact .inl (himage.resolve_right nofun)
      · rwa [write_phase_ne hne]
    · rw [write_phase_self]
      rcases hok.image with ⟨hrevoked, _⟩ | ⟨hnew, _⟩
      · exact .inl hrevoked
      · exact .inr hnew
  added := by
    intro t' w hw
    rcases eq_or_ne t' t with rfl | hne
    · rw [write_phase_self] at hw
      rcases hok.image with ⟨_, hnone⟩ | ⟨hnew, hlive, hfresh⟩
      · rw [hnone] at hw
        cases hw
      · obtain rfl : row = w := Option.some.inj (hnew.symm.trans hw)
        exact ⟨mem_write_pending.mpr (.inr ⟨rfl, rfl⟩), hlive, hfresh⟩
    · rw [write_phase_ne hne] at hw
      obtain ⟨hpending, hlive, hfresh⟩ := h.added t' w hw
      exact ⟨mem_write_pending.mpr (.inl hpending), hlive, hfresh⟩
  held := by
    intro t' row' hrow
    rcases eq_or_ne t' t with rfl | hne
    · rw [write_phase_self] at hrow
      exact h.held t' row' (hok.held row' hrow)
    · rw [write_phase_ne hne] at hrow
      exact h.held t' row' hrow
  locked := by
    intro t' id hid
    rcases eq_or_ne t' t with rfl | hne
    · rw [write_phase_self] at hid
      rcases hok.locked id hid with hlocked | hrow
      · obtain ⟨w, hw, hwid⟩ := h.locked t' id hlocked
        exact ⟨w, mem_write_pending.mpr (.inl hw), hwid⟩
      · exact ⟨row, mem_write_pending.mpr (.inr ⟨rfl, rfl⟩), hrow⟩
    · rw [write_phase_ne hne] at hid
      obtain ⟨w, hw, hwid⟩ := h.locked t' id hid
      exact ⟨w, mem_write_pending.mpr (.inl hw), hwid⟩
  successor := by
    intro t' row' successor hphase
    rcases eq_or_ne t' t with rfl | hne
    · rw [write_phase_self] at hphase
      exact hok.successor row' successor hphase
    · rw [write_phase_ne hne] at hphase
      exact h.successor t' row' successor hphase
  family := by
    intro t' row' hphase
    rcases eq_or_ne t' t with rfl | hne
    · rw [write_phase_self] at hphase
      obtain ⟨rfl, hfresh⟩ := hok.login row' hphase
      refine ⟨fun c hc => hfresh c (List.mem_append_left _ hc), fun t'' w hw hfamily => ?_⟩
      rcases mem_write_pending.mp hw with hold | ⟨rfl, _⟩
      · have hmem : w ∈ s.store.pending.map Prod.snd := List.mem_map.mpr ⟨(t'', w), hold, rfl⟩
        exact absurd hfamily (hfresh w (List.mem_append_right _ hmem))
      · rfl
    · rw [write_phase_ne hne] at hphase
      obtain ⟨hcommitted, hpending⟩ := h.family t' row' hphase
      refine ⟨hcommitted, fun t'' w hw hfamily => ?_⟩
      rcases mem_write_pending.mp hw with hold | ⟨rfl, rfl⟩
      · exact hpending t'' w hold hfamily
      · exact absurd hfamily (hok.family t' row' hne hphase)

/-- A commit or a rollback of `t`: the committed rows change to `rows`, and the
images of `t` go. -/
theorem Inv.close (h : Inv s) {u : St} (hphase : u.phase = Function.update s.phase t .finished)
    (hpending : u.store.pending = (s.store.rollback t).pending)
    (hunique : Table.KeyUnique RefreshToken.id u.store.committed)
    (hkeeps : ∀ c ∈ s.store.committed, ∃ x ∈ u.store.committed, x.ident = c.ident)
    (horigin : ∀ x ∈ u.store.committed,
      (∃ c ∈ s.store.committed, c.ident = x.ident) ∨ (s.phase t).newRow = some x) : Inv u := by
  have hself : u.phase t = .finished := by rw [hphase, Function.update_self]
  have hother : ∀ t' ≠ t, u.phase t' = s.phase t' := fun t' hne => by
    rw [hphase, Function.update_of_ne hne]
  have hmem : ∀ t' w, (t', w) ∈ u.store.pending ↔ (t', w) ∈ s.store.pending ∧ t' ≠ t := by
    intro t' w
    rw [hpending]
    exact mem_rollback_pending
  refine ⟨hunique, ?_, ?_, ?_, ?_, ?_, ?_, ?_, ?_⟩
  · intro p hp q hq
    rw [hpending] at hp hq
    exact h.exclusive.rollback p hp q hq
  · intro t' hw
    have himages : u.store.images t' = (s.store.rollback t).images t' := by
      simp only [Store.images, hpending]
    rcases eq_or_ne t' t with rfl | hne
    · rw [himages, Store.images_rollback_self]
    · rw [hother t' hne] at hw
      rw [himages, Store.images_rollback_other hne, h.quiet t' hw]
  · intro t' w hw
    obtain ⟨hold, hne⟩ := (hmem t' w).mp hw
    rw [hother t' hne]
    rcases h.images t' w hold with ⟨⟨c, hc, hident⟩, hrevoked⟩ | hadded
    · obtain ⟨x, hx, hxident⟩ := hkeeps c hc
      exact .inl ⟨⟨x, hx, hxident.trans hident⟩, hrevoked⟩
    · exact .inr hadded
  · intro t' w hw
    rcases eq_or_ne t' t with rfl | hne
    · rw [hself] at hw
      cases hw
    · rw [hother t' hne] at hw
      obtain ⟨hold, hlive, hfresh⟩ := h.added t' w hw
      refine ⟨(hmem t' w).mpr ⟨hold, hne⟩, hlive, fun x hx hid => ?_⟩
      rcases horigin x hx with ⟨c, hc, hident⟩ | hadded
      · exact hfresh c hc ((ident_id hident).trans hid)
      · -- two transactions would hold images under one id
        exact hne (h.exclusive _ hold _ (h.added t x hadded).1 hid.symm)
  · intro t' row hrow
    rcases eq_or_ne t' t with rfl | hne
    · rw [hself] at hrow
      cases hrow
    · rw [hother t' hne] at hrow
      obtain ⟨c, hc, hident⟩ := h.held t' row hrow
      obtain ⟨x, hx, hxident⟩ := hkeeps c hc
      exact ⟨x, hx, hxident.trans hident⟩
  · intro t' id hid
    rcases eq_or_ne t' t with rfl | hne
    · rw [hself] at hid
      cases hid
    · rw [hother t' hne] at hid
      obtain ⟨w, hw, hwid⟩ := h.locked t' id hid
      exact ⟨w, (hmem t' w).mpr ⟨hw, hne⟩, hwid⟩
  · intro t' row successor hphase'
    rcases eq_or_ne t' t with rfl | hne
    · rw [hself] at hphase'
      cases hphase'
    · rw [hother t' hne] at hphase'
      exact h.successor t' row successor hphase'
  · intro t' row hphase'
    rcases eq_or_ne t' t with rfl | hne
    · rw [hself] at hphase'
      cases hphase'
    · rw [hother t' hne] at hphase'
      obtain ⟨hcommitted, hold⟩ := h.family t' row hphase'
      refine ⟨fun x hx hfamily => ?_, fun t'' w hw => hold t'' w ((hmem t'' w).mp hw).1⟩
      rcases horigin x hx with ⟨c, hc, hident⟩ | hadded
      · exact hcommitted c hc ((ident_familyId hident).trans hfamily)
      · exact hne (hold t x (h.added t x hadded).1 hfamily).symm

theorem Inv.commit (h : Inv s) (t : Rid) : Inv (s.commit t) := by
  refine h.close rfl rfl (Store.keyUnique_view h.idUnique) ?_ ?_
  · intro c hc
    obtain ⟨x, hx, hident, _⟩ := h.commit_keeps hc t
    exact ⟨x, hx, hident⟩
  · intro x hx
    rcases h.commit_origin hx with ⟨c, hc, hident, _⟩ | hadded
    · exact .inl ⟨c, hc, hident⟩
    · exact .inr hadded

theorem Inv.rollback (h : Inv s) (t : Rid) : Inv (s.rollback t) :=
  h.close rfl rfl h.idUnique (fun c hc => ⟨c, hc, rfl⟩) (fun c hc => .inl ⟨c, hc, rfl⟩)

theorem free_of_unused {id : Uuid}
    (h : ∀ other ∈ s.store.committed ++ s.store.pending.map Prod.snd, other.id ≠ id) :
    s.store.free RefreshToken.id t id = true := by
  refine Store.free_iff.mpr fun p hp hid => ?_
  have hmem : p.2 ∈ s.store.pending.map Prod.snd := List.mem_map.mpr ⟨p, hp, rfl⟩
  exact absurd hid (h p.2 (List.mem_append_right _ hmem))

theorem Inv.move (h : Inv s) (hmove : Move s t s') : Inv s' := by
  cases hmove with
  | goto p hbefore hafter hlocks hquiet hheld _ =>
    refine h.goto hbefore hafter hlocks hquiet fun row hrow => ?_
    rcases hheld row hrow with hold | hread
    · exact h.held t row hold
    · exact h.read_committed hbefore hread
  | revoke p row now hrow hfree hbefore hafter hwriting hlocks hheld _ =>
    obtain ⟨c, hc, hident⟩ := h.read_committed hbefore hrow
    refine h.write
      { free := hfree, before := hbefore, writing := hwriting
        image := .inl ⟨⟨⟨c, hc, hident⟩, nofun⟩, hafter⟩
        held := hheld
        locked := fun id hid => .inr (hlocks id hid).1
        successor := fun row' successor hp => ?_
        login := fun row' hp => ?_
        family := fun t' row' _ hphase => ?_ }
    · rw [hp] at hafter
      cases hafter
    · rw [hp] at hafter
      cases hafter
    · have hne := (h.family t' row' hphase).1 c hc
      rwa [ident_familyId hident] at hne
  | login row hphase hlive hunused =>
    obtain ⟨u, o, hphase⟩ := hphase
    have hids := fun other hother => (hunused other hother).1
    exact h.write
      { free := free_of_unused hids
        before := by rw [hphase]; rfl
        writing := rfl
        image := .inr ⟨rfl, hlive, fun c hc => hids c (List.mem_append_left _ hc)⟩
        held := fun _ h => nomatch h
        locked := fun _ h => nomatch h
        successor := fun _ _ h => nomatch h
        login := by
          rintro row' ⟨rfl⟩
          exact ⟨rfl, fun other hother => (hunused other hother).2⟩
        family := by
          intro t' row' _ hphase'
          have hpending := (h.added t' row' (by rw [hphase']; rfl)).1
          have hmem : row' ∈ s.store.pending.map Prod.snd := List.mem_map.mpr ⟨_, hpending, rfl⟩
          exact (hunused row' (List.mem_append_right _ hmem)).2.symm }
  | succeed row successor hphase hlive hunused hcopy =>
    obtain ⟨c, hc, hident⟩ := h.held t row (by rw [hphase]; rfl)
    exact h.write
      { free := free_of_unused hunused
        before := by rw [hphase]; rfl
        writing := rfl
        image := .inr ⟨rfl, hlive, fun c hc => hunused c (List.mem_append_left _ hc)⟩
        held := by
          intro row' hrow
          rwa [hphase]
        locked := by
          intro id hid
          rw [hphase]
          exact .inl hid
        successor := by
          rintro row' successor' ⟨rfl, rfl⟩
          exact hcopy
        login := fun _ h => nomatch h
        family := by
          intro t' row' _ hphase'
          have hne := (h.family t' row' hphase').1 c hc
          rwa [ident_familyId hident, ← hcopy.2.2] at hne }
  | commit _ => exact h.commit t
  | rollback => exact h.rollback t

theorem inv_step {a : Label} (h : Inv s) (hstep : step env s a = some s') : Inv s' :=
  h.move (step_move hstep)

theorem inv_of_run {ok : St → Label → Prop} (hrun : Run (step env) ok s s') (h : Inv s) : Inv s' :=
  hrun.invariant (fun _ _ _ hi _ hstep => inv_step hi hstep) h

/-! ## What a step leaves of the others -/

theorem step_phase_other {a : Label} (hstep : step env s a = some s') (hne : t ≠ a.rid) :
    s'.phase t = s.phase t := by
  cases step_move hstep with
  | goto p => exact goto_phase_ne hne p
  | revoke p row now => exact write_phase_ne hne _ p
  | login row => exact write_phase_ne hne row _
  | succeed row successor => exact write_phase_ne hne successor _
  | commit => exact commit_phase_ne hne
  | rollback => exact rollback_phase_ne hne

theorem step_keeps_images {a : Label} {w : RefreshToken} (hstep : step env s a = some s')
    (hne : t ≠ a.rid) (hw : (t, w) ∈ s.store.pending) : (t, w) ∈ s'.store.pending := by
  cases step_move hstep with
  | goto p => exact hw
  | revoke p row now | login row | succeed row successor => exact mem_write_pending.mpr (.inl hw)
  | commit | rollback => exact mem_rollback_pending.mpr ⟨hw, hne⟩

/-- A row that is committed after a step was committed before it, and is not
live again, or is the row that the step commits. -/
theorem step_origin {a : Label} (hi : Inv s) (hstep : step env s a = some s') {x : RefreshToken}
    (hx : x ∈ s'.store.committed) :
    (∃ c ∈ s.store.committed, c.ident = x.ident ∧ (x.revokedAt = none → c = x)) ∨
      ((∃ draw, a = .advance a.rid draw) ∧ (s.phase a.rid).newRow = some x) := by
  have hsame : x ∈ s.store.committed →
      ∃ c ∈ s.store.committed, c.ident = x.ident ∧ (x.revokedAt = none → c = x) :=
    fun hc => ⟨x, hc, rfl, fun _ => rfl⟩
  cases a with
  | start t request =>
    simp only [step] at hstep
    split at hstep
    case isFalse => cases hstep
    case isTrue =>
      obtain rfl := Option.some.inj hstep
      exact .inl (hsame hx)
  | abort t =>
    simp only [step] at hstep
    split at hstep
    case isTrue => cases hstep
    case isFalse =>
      obtain rfl := Option.some.inj hstep
      exact .inl (hsame hx)
  | advance t draw =>
    cases step_move hstep with
    | commit => exact (hi.commit_origin hx).imp_right fun hadded => ⟨⟨draw, rfl⟩, hadded⟩
    | _ => exact .inl (hsame hx)

/-- No committed row is lost. -/
theorem step_keeps_rows {a : Label} (hi : Inv s) (hstep : step env s a = some s')
    {c : RefreshToken} (hc : c ∈ s.store.committed) :
    ∃ x ∈ s'.store.committed, x.ident = c.ident := by
  cases step_move hstep with
  | commit =>
    obtain ⟨x, hx, hident, _⟩ := hi.commit_keeps hc a.rid
    exact ⟨x, hx, hident⟩
  | _ => exact ⟨c, hc, rfl⟩

/-! ## A request that nothing interrupts -/

theorem update_enabled {id : Uuid} {now : Instant} {p : Phase} {row : RefreshToken}
    (hfree : s.store.free RefreshToken.id t id = true)
    (hrow : Table.get? RefreshToken.id (s.rows t) id = some row) :
    update s t id now (fun _ => true) p = some (s.write t (row.revoke now) p) := by
  simp [update, hfree, hrow]

theorem step_checked {now : Instant} {purpose : Purpose} {row : RefreshToken} {draw : Draw}
    (hphase : s.phase t = .checked now purpose row) : step env s (.advance t draw) =
      update s t row.id now (fun _ => true) (afterUpdate purpose row) := by
  simp only [step, advance, hphase]

theorem step_revoked {row : RefreshToken} {draw : Draw} (hphase : s.phase t = .revoked row)
    (hunused : Unused env s.store draw) : step env s (.advance t draw) =
      some (s.write t (sessionRow env draw row.userId row.organizationId row.familyId)
        (.inserted row (sessionRow env draw row.userId row.organizationId row.familyId))) := by
  simp only [step, advance, hphase, if_pos hunused]

/-- A row revoked in place and a new row, written image by image. -/
theorem mem_upsert_rotation {rows : List RefreshToken} {row successor other : RefreshToken}
    {now : Instant} (hunique : Table.KeyUnique RefreshToken.id rows) (hmem : row ∈ rows)
    (hfresh : ∀ r ∈ rows, r.id ≠ successor.id) :
    other ∈ Table.upsert RefreshToken.id (Table.upsert RefreshToken.id rows (row.revoke now))
        successor ↔
      other ∈ Table.updateWhere rows (fun r => r.id = row.id) (fun r => r.revoke now) ++
        [successor] := by
  simp only [Table.mem_upsert, List.mem_append, List.mem_singleton, Table.mem_updateWhere,
    decide_eq_true_eq, RefreshToken.revoke_id]
  constructor
  · rintro (rfl | ⟨rfl | ⟨hold, hne⟩, _⟩)
    · exact .inr rfl
    · exact .inl ⟨row, hmem, if_pos rfl⟩
    · exact .inl ⟨other, hold, if_neg hne⟩
  · rintro (⟨r, hr, rfl⟩ | rfl)
    · by_cases hid : r.id = row.id
      · obtain rfl := hunique r hr row hmem hid
        rw [if_pos rfl]
        exact .inr ⟨.inl rfl, hfresh r hr⟩
      · rw [if_neg hid]
        exact .inr ⟨.inr ⟨hr, hid⟩, hfresh r hr⟩
    · exact .inl rfl

/-- A refresh whose five steps run without interruption leaves the tokens that
the service function leaves. -/
theorem refresh_uninterrupted {now : Instant} {draw : Draw} {rawToken : String} {db db' : Db}
    {tokens : SessionTokens} (hreturns : (refresh env now draw rawToken).Returns db tokens db')
    (hrows : s.store = { committed := db.refreshTokens })
    (hunique : Table.KeyUnique RefreshToken.id db.refreshTokens)
    (hfamily : ∀ row ∈ db.refreshTokens, row.familyId ≠ draw.familyId)
    (hphase : s.phase t = .started (.refresh now rawToken)) :
    ∃ s', exec (step env) s (List.replicate 5 (.advance t draw)) = some s' ∧
      s'.phase t = .finished ∧ s'.store.pending = [] ∧
      ∀ row, row ∈ s'.store.committed ↔ row ∈ db'.refreshTokens := by
  obtain ⟨row, hrow, ⟨hlive, hexpiry⟩, hunused, _, rfl⟩ := refresh_returns.mp hreturns
  rw [Repository.lookupRefreshToken_eq] at hrow
  obtain ⟨hmem, _⟩ := Table.get?_some hrow
  have hview : s.rows t = db.refreshTokens := by simp [St.rows, Store.view, Store.images, hrows]
  -- read, check
  let s₁ := s.goto t (.loaded now .refresh (some row))
  let s₂ := s₁.goto t (.checked now .refresh row)
  have h₁ : step env s (.advance t draw) = some s₁ := by
    simp only [step, advance, hphase, hview, hrow]
    rfl
  have h₂ : step env s₁ (.advance t draw) = some s₂ := by
    have hexpiry' : ¬ row.expiresAt ≤ now := Nat.not_le.mpr hexpiry
    simp [step, advance, s₁, check, hlive, hexpiry', s₂]
  -- update, insert, commit
  let s₃ := s₂.write t (row.revoke now) (.revoked row)
  let successor := sessionRow env draw row.userId row.organizationId row.familyId
  let s₄ := s₃.write t successor (.inserted row successor)
  have hstore₂ : s₂.store = { committed := db.refreshTokens } := hrows
  have h₃ : step env s₂ (.advance t draw) = some s₃ := by
    have hget : Table.get? RefreshToken.id (s₂.rows t) row.id = some row := by
      have hview₂ : s₂.rows t = db.refreshTokens := hview
      rw [hview₂]
      exact Table.get?_of_mem hunique hmem
    have hfree : s₂.store.free RefreshToken.id t row.id = true := by simp [hstore₂, Store.free]
    rw [step_checked (goto_phase_self _)]
    exact update_enabled hfree hget
  have hunused₃ : Unused env s₃.store draw := by
    intro other hother
    have hold : other ∈ db.refreshTokens ∨ other = row.revoke now := by
      simpa [s₃, St.write, Store.write, hstore₂] using hother
    rcases hold with hold | rfl
    · exact ⟨(hunused other hold).1, (hunused other hold).2, hfamily other hold⟩
    · exact ⟨(hunused row hmem).1, (hunused row hmem).2, hfamily row hmem⟩
  have h₄ : step env s₃ (.advance t draw) = some s₄ := by
    exact step_revoked (write_phase_self _ _) hunused₃
  have h₅ : step env s₄ (.advance t draw) = some (s₄.commit t) := by
    simp [step, advance, s₄]
  refine ⟨s₄.commit t, ?_, commit_phase_self, ?_, fun other => ?_⟩
  · simp [List.replicate, exec, h₁, h₂, h₃, h₄, h₅]
  · simp [St.commit, s₄, s₃, St.write, Store.write, Store.rollback, hstore₂]
  · have hcommitted : (s₄.commit t).store.committed =
        Table.upsert RefreshToken.id
          (Table.upsert RefreshToken.id db.refreshTokens (row.revoke now)) successor := by
      simp [St.commit, s₄, s₃, St.write, Store.view, hstore₂, Store.images, Store.write]
    rw [hcommitted]
    exact mem_upsert_rotation hunique hmem fun r hr => (hunused r hr).1

/-- The only token of an organization, and a request that presents it. -/
def presentedToken : RefreshToken :=
  { id := 10, userId := 1, organizationId := 2, familyId := 100, tokenHash := "first"
    expiresAt := refreshTokenLifetime }

def presenting : St :=
  { store := { committed := [presentedToken] }
    phase := fun t => if t = 0 then .started (.refresh 1 "first") else .idle
    rotations := [] }

def successorDraw : Draw :=
  { issuedAt := 1, refreshTokenId := 11, rawRefreshToken := "second", familyId := 1000 }

theorem refresh_uninterrupted_first : ∃ s' : St,
    exec (step plainEnv) presenting (List.replicate 5 (.advance 0 successorDraw)) = some s' ∧
      s'.phase 0 = .finished ∧ s'.store.pending = [] := by
  have hreturns : (refresh plainEnv 1 successorDraw "first").Returns { refreshTokens := [presentedToken] } _ _ :=
    refresh_returns.mpr ⟨presentedToken, by decide, by decide, by decide, rfl, rfl⟩
  have hphase : presenting.phase 0 = .started (.refresh 1 "first") := rfl
  obtain ⟨s', hruns, hphase, hpending, -⟩ :=
    refresh_uninterrupted hreturns rfl (by simp [Table.KeyUnique]) (by decide) hphase
  exact ⟨s', hruns, hphase, hpending⟩

/-! ## Requests as labels -/

def drawn (id : Uuid) (rawToken : String) : Draw :=
  { issuedAt := 0, refreshTokenId := id, rawRefreshToken := rawToken, familyId := 100 + id }

/-- Request `t` logs user 1 in to organization 2. -/
def loginSteps (t : Rid) (draw : Draw) : List Label :=
  [.start t (.login 1 2), .advance t draw, .advance t draw]

/-- Request `t` refreshes, without interruption. -/
def refreshSteps (t : Rid) (rawToken : String) (draw : Draw) : List Label :=
  .start t (.refresh 0 rawToken) :: List.replicate 5 (.advance t draw)

end Ekip.Core.Auth.SessionRace
