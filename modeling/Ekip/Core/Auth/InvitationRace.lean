import Ekip.Core.Auth.Service
import Ekip.Lib.ReadCommitted
import Ekip.Lib.Run

/-!
# Interleaved requests on invitations

Acceptances with a password, revocations and first logins through the identity
provider, each in a transaction of its own under read-committed isolation. Each
reads the status of an invitation, does its provisioning writes and then updates
the status by primary key. A session holds a row that a caller still refers to,
so the second check of a password acceptance looks at the row of the first.
-/
namespace Ekip.Core.Auth.InvitationRace

open Ekip.Lib Ekip.Lib.ReadCommitted Ekip.Database Ekip.Shared Ekip.Core Ekip.Core.Tenancy

abbrev Rid := Nat

/-! ## Tables -/

inductive Row
  | invitation (row : Invitation)
  | user (row : User)
  | userRole (row : UserRole)
  | session (row : RefreshToken)
  | mapping (row : ExternalIdentityMapping)
deriving DecidableEq

inductive Key
  | invitation (id : Uuid)
  | user (id : Uuid)
  | userRole (userId organizationId roleId : Uuid)
  | session (id : Uuid)
  | mapping (id : Uuid)
deriving DecidableEq

def Row.key : Row → Key
  | invitation row => .invitation row.id
  | user row => .user row.id
  | userRole row => .userRole row.userId row.organizationId row.roleId
  | session row => .session row.id
  | mapping row => .mapping row.id

def Row.invitation? : Row → Option Invitation
  | invitation row => some row
  | _ => none

def Row.user? : Row → Option User
  | user row => some row
  | _ => none

def Row.mapping? : Row → Option ExternalIdentityMapping
  | mapping row => some row
  | _ => none

/-- Two rows that a unique constraint keeps apart. -/
def Row.conflicts : Row → Row → Bool
  | user a, user b => a.id = b.id ∨ a.email = b.email
  | userRole a, userRole b => a = b
  | session a, session b => a.id = b.id ∨ a.tokenHash = b.tokenHash
  | mapping a, mapping b =>
    a.id = b.id ∨ (a.organizationId = b.organizationId ∧ a.idpSubject = b.idpSubject)
  | _, _ => false

def findInvitation (rows : List Row) (id : Uuid) : Option Invitation :=
  Table.get? Invitation.id (rows.filterMap Row.invitation?) id

def findPending (rows : List Row) (organizationId : Uuid) (email : String) : Option Invitation :=
  (rows.filterMap Row.invitation?).find? fun row => row.organizationId = organizationId ∧
    row.email = email ∧ row.status = .pending

def findUser (rows : List Row) (email : String) : Option User :=
  Table.get? User.email (rows.filterMap Row.user?) email

def findMapping (rows : List Row) (organizationId : Uuid) (subject : String) :
    Option ExternalIdentityMapping :=
  (rows.filterMap Row.mapping?).find? fun row =>
    row.organizationId = organizationId ∧ row.idpSubject = subject

/-! ## Requests -/

inductive Request
  | accept (invitationId : Uuid) (data : InvitationAcceptRequest)
  | revoke (actor : Identity) (organizationId invitationId : Uuid)
  | ssoLogin (organizationId : Uuid) (claims : VerifiedIdPClaims)

inductive Joiner
  | password (data : InvitationAcceptRequest)
  | sso (claims : VerifiedIdPClaims)

/-- Who joins which organization, and the invitation that admits them as it was
read, or none where a rule does. -/
structure Join where
  joiner : Joiner
  organizationId : Uuid
  roleId : Uuid
  email : String
  displayName : String
  admittedBy : Option Invitation

/-- The next statement of a request. -/
inductive Phase
  | idle
  | started (request : Request)
  | evaluating (organizationId : Uuid) (claims : VerifiedIdPClaims)
  | account (join : Join)
  | newAccount (join : Join)
  | password (join : Join) (userId : Uuid) (data : InvitationAcceptRequest)
  | role (join : Join) (userId : Uuid)
  | newRole (join : Join) (userId : Uuid)
  | accepting (join : Join) (userId : Uuid) (invitation : Invitation)
  | writing (join : Join) (userId : Uuid) (invitationId : Uuid)
  | mapping (join : Join) (userId : Uuid) (through : Option Uuid)
  | session (userId organizationId : Uuid) (through : Option Uuid)
  | revoking (invitationId : Uuid)
  | expiring (organizationId : Uuid) (claims : VerifiedIdPClaims) (invitationId : Uuid)
  | ready (grants revokes : Option Uuid)
  | finished

/-- One commit: the tables before and after it, the invitation whose acceptance
it grants a role and a session through, and the invitation it revokes. -/
structure Commit where
  before : List Row
  after : List Row
  grants : Option Uuid
  revokes : Option Uuid

structure St where
  store : Store Rid Row
  phase : Rid → Phase
  commits : List Commit

/-- What a statement draws from outside. -/
structure Outside where
  now : Instant
  draw : Draw

namespace St

def goto (s : St) (t : Rid) (phase : Phase) : St :=
  { s with phase := Function.update s.phase t phase }

def write (s : St) (t : Rid) (row : Row) (phase : Phase) : St :=
  { s with store := s.store.write t row, phase := Function.update s.phase t phase }

def commit (s : St) (t : Rid) (grants revokes : Option Uuid) : St :=
  { store := s.store.commit Row.key t, phase := Function.update s.phase t .finished
    commits := s.commits ++
      [{ before := s.store.committed, after := s.store.view Row.key t, grants, revokes }] }

def rollback (s : St) (t : Rid) : St :=
  { s with store := s.store.rollback t, phase := Function.update s.phase t .finished }

/-- What a statement of `t` reads. -/
def rows (s : St) (t : Rid) : List Row := s.store.view Row.key t

/-- `INSERT`: it waits for a conflicting row that another transaction has not
committed yet, and raises where a conflicting row is visible. -/
def insert (s : St) (t : Rid) (row : Row) (phase : Phase) : Option St :=
  if s.store.pending.any fun p => p.1 ≠ t ∧ row.conflicts p.2 then none
  else if (s.rows t).any row.conflicts then some (s.rollback t)
  else some (s.write t row phase)

/-- `UPDATE` of one row by its key: it waits for the lock and writes over what is
committed by then. -/
def update (s : St) (t : Rid) (key : Key) (f : Row → Row) (phase : Phase) : Option St :=
  if s.store.free Row.key t key then
    (Table.get? Row.key (s.rows t) key).map fun row => s.write t (f row) phase
  else none

end St

def setStatus (status : InvitationStatus) (acceptedAt : Option Instant) : Row → Row
  | .invitation row => .invitation (withStatus row status acceptedAt)
  | row => row

def setPasswordHash (passwordHash : String) : Row → Row
  | .user row => .user { row with passwordHash := some passwordHash }
  | row => row

/-- After the account is known. -/
def afterAccount (join : Join) (userId : Uuid) : Phase :=
  match join.joiner with
  | .password data => .password join userId data
  | .sso _ => .role join userId

/-- After the role is granted: accept the invitation, if one admits. -/
def afterRole (join : Join) (userId : Uuid) : Phase :=
  match join.admittedBy with
  | some invitation => .accepting join userId invitation
  | none => .mapping join userId none

def afterAccepting (join : Join) (userId invitationId : Uuid) : Phase :=
  match join.joiner with
  | .password _ => .session userId join.organizationId (some invitationId)
  | .sso _ => .mapping join userId (some invitationId)

def ssoJoin (organizationId roleId : Uuid) (claims : VerifiedIdPClaims)
    (admittedBy : Option Invitation) : Join :=
  { joiner := .sso claims, organizationId, roleId, email := claims.email
    displayName := orElse claims.name claims.email, admittedBy }

/-- What `evaluate_provisioning` does without a live invitation. -/
def byRule (env : Env) (rules : Db) (organizationId : Uuid) (claims : VerifiedIdPClaims) :
    Option Phase :=
  (matchingRule env rules organizationId claims.email claims.groups).grantsRoleId.map
    fun roleId => .account (ssoJoin organizationId roleId claims none)

/-- Go on, or raise. -/
def St.gotoOrRaise (s : St) (t : Rid) (phase : Option Phase) : St :=
  match phase with
  | some phase => s.goto t phase
  | none => s.rollback t

/-- The checks of `accept_invitation_with_password` on the row it read. -/
def admits (env : Env) (now : Instant) (data : InvitationAcceptRequest) (row : Invitation) : Bool :=
  row.tokenHash = some (env.hashOpaqueToken data.token) ∧ row.status = .pending ∧
    now < row.expiresAt

/-- The row that `accept_invitation` checks: a password acceptance still refers
to the one it read first, a login through the provider reads it again. -/
def rechecked (s : St) (t : Rid) (join : Join) (invitation : Invitation) : Option Invitation :=
  match join.joiner with
  | .password _ => some invitation
  | .sso _ => findInvitation (s.rows t) invitation.id

/-- The next statement of request `t`. `rules` holds the access rules, which no
request here changes. -/
def advance (env : Env) (rules : Db) (s : St) (t : Rid) (outside : Outside) : Option St :=
  match s.phase t with
  | .idle => none
  | .finished => none
  | .started (.accept invitationId data) =>
    some (s.gotoOrRaise t
      (((findInvitation (s.rows t) invitationId).filter (admits env outside.now data)).map
        fun row => .account
          { joiner := .password data, organizationId := row.organizationId
            roleId := row.grantsRoleId, email := row.email
            displayName := orElse data.displayName row.email, admittedBy := some row }))
  | .started (.revoke actor organizationId invitationId) =>
    if actor.organizationId = organizationId ∧ Users.authorize actor managePermission then
      some (s.gotoOrRaise t
        (((findInvitation (s.rows t) invitationId).filter fun row =>
            row.organizationId = organizationId ∧ row.status = .pending).map
          fun row => .revoking row.id))
    else some (s.rollback t)
  | .started (.ssoLogin organizationId claims) =>
    match findMapping (s.rows t) organizationId claims.sub with
    | some mapping => some (s.goto t (.session mapping.userId organizationId none))
    | none => some (s.goto t (.evaluating organizationId claims))
  | .evaluating organizationId claims =>
    match findPending (s.rows t) organizationId claims.email with
    | some row =>
      if outside.now < row.expiresAt then
        some (s.goto t (.account (ssoJoin organizationId row.grantsRoleId claims (some row))))
      else some (s.goto t (.expiring organizationId claims row.id))
    | none => some (s.gotoOrRaise t (byRule env rules organizationId claims))
  | .expiring organizationId claims invitationId =>
    match byRule env rules organizationId claims with
    | some phase => s.update t (.invitation invitationId) (setStatus .expired none) phase
    | none => some (s.rollback t)
  | .account join =>
    match findUser (s.rows t) join.email with
    | some user => some (s.goto t (afterAccount join user.id))
    | none => some (s.goto t (.newAccount join))
  | .newAccount join =>
    s.insert t (.user { id := outside.draw.userId, email := join.email
                        displayName := join.displayName })
      (afterAccount join outside.draw.userId)
  | .password join userId data =>
    s.update t (.user userId)
      (setPasswordHash (env.bcryptHash outside.draw.salt data.password)) (.role join userId)
  | .role join userId =>
    let row : UserRole := { userId, organizationId := join.organizationId, roleId := join.roleId }
    if Row.userRole row ∈ s.rows t then some (s.goto t (afterRole join userId))
    else some (s.goto t (.newRole join userId))
  | .newRole join userId =>
    s.insert t (.userRole { userId, organizationId := join.organizationId, roleId := join.roleId })
      (afterRole join userId)
  | .accepting join userId invitation =>
    some (s.gotoOrRaise t
      (((rechecked s t join invitation).filter fun row =>
          row.status = .pending ∧ outside.now < row.expiresAt).map
        fun _ => .writing join userId invitation.id))
  | .writing join userId invitationId =>
    s.update t (.invitation invitationId) (setStatus .accepted (some outside.now))
      (afterAccepting join userId invitationId)
  | .mapping join userId through =>
    match join.joiner with
    | .sso claims =>
      s.insert t (.mapping { id := outside.draw.mappingId, organizationId := join.organizationId
                             userId, idpSubject := claims.sub })
        (.session userId join.organizationId through)
    | .password _ => none
  | .session userId organizationId through =>
    s.insert t (.session (sessionRow env outside.draw userId organizationId outside.draw.familyId))
      (.ready through none)
  | .revoking invitationId =>
    s.update t (.invitation invitationId) (setStatus .revoked none)
      (.ready none (some invitationId))
  | .ready grants revokes => some (s.commit t grants revokes)

inductive Label
  | start (t : Rid) (request : Request)
  | advance (t : Rid) (outside : Outside)
  | abort (t : Rid)

def Label.rid : Label → Rid
  | start t _ => t
  | advance t _ => t
  | abort t => t

def step (env : Env) (rules : Db) (s : St) : Label → Option St
  | .start t request =>
    match s.phase t with
    | .idle => some (s.goto t (.started request))
    | _ => none
  | .advance t outside => advance env rules s t outside
  | .abort t =>
    match s.phase t with
    | .idle => none
    | .finished => none
    | _ => some (s.rollback t)

/-! ## What the phases say -/

namespace Phase

/-- The status that the next statement writes. -/
def target : Phase → Option (Uuid × InvitationStatus)
  | writing _ _ invitationId => some (invitationId, .accepted)
  | revoking invitationId => some (invitationId, .revoked)
  | expiring _ _ invitationId => some (invitationId, .expired)
  | _ => none

/-- The invitation that the transaction has marked accepted. -/
def accepted : Phase → Option Uuid
  | mapping _ _ through => through
  | session _ _ through => through
  | ready grants _ => grants
  | _ => none

/-- The invitation that the transaction has marked revoked. -/
def revoked : Phase → Option Uuid
  | ready _ revokes => revokes
  | _ => none

/-- The transaction has written no status yet. -/
def untouched : Phase → Bool
  | idle | started _ | evaluating _ _ | accepting _ _ _ | writing _ _ _ | revoking _
  | expiring _ _ _ | finished => true
  | account join | newAccount join | password join _ _ | role join _ | newRole join _ =>
    join.admittedBy.isSome
  | mapping _ _ _ | session _ _ _ | ready _ _ => false

theorem untouched_of_target {p : Phase} {x : Uuid × InvitationStatus} (h : p.target = some x) :
    p.untouched = true := by
  cases p <;> first | rfl | cases h

end Phase

/-- From one phase to the next without a status being written. -/
structure Quiet (p q : Phase) : Prop where
  accepted : ∀ id, q.accepted = some id → p.accepted = some id
  revoked : q.revoked = none
  untouched : q.untouched = true → p.untouched = true

/-- One step, by what it does to the store. -/
inductive Move (s : St) (t : Rid) : St → Prop
  | goto (p : Phase) (hquiet : Quiet (s.phase t) p) : Move s t (s.goto t p)
  | write (row : Row) (p : Phase) (hrow : row.invitation? = none)
      (hfree : s.store.free Row.key t row.key = true) (hquiet : Quiet (s.phase t) p) :
      Move s t (s.write t row p)
  | status (id : Uuid) (status : InvitationStatus) (acceptedAt : Option Instant)
      (old : Invitation) (p : Phase) (hold : Row.invitation old ∈ s.rows t) (hid : old.id = id)
      (hfree : s.store.free Row.key t (.invitation id) = true)
      (htarget : (s.phase t).target = some (id, status)) (hpending : status ≠ .pending)
      (haccepted : ∀ i, p.accepted = some i → i = id ∧ status = .accepted)
      (hrevoked : ∀ i, p.revoked = some i → i = id ∧ status = .revoked)
      (huntouched : p.untouched = false) :
      Move s t (s.write t (.invitation (withStatus old status acceptedAt)) p)
  | commit (grants revokes : Option Uuid) (hphase : s.phase t = .ready grants revokes) :
      Move s t (s.commit t grants revokes)
  | rollback : Move s t (s.rollback t)

variable {env : Env} {rules : Db} {s s' : St} {t t' : Rid}

theorem conflicts_of_key {row other : Row} (hrow : row.invitation? = none)
    (hkey : other.key = row.key) : row.conflicts other = true := by
  cases row <;> cases other <;> simp_all [Row.key, Row.conflicts, Row.invitation?]
  case userRole.userRole a b =>
    obtain ⟨⟩ := a
    obtain ⟨⟩ := b
    simp_all

theorem insert_move {row : Row} {p : Phase} (hrow : row.invitation? = none)
    (hquiet : Quiet (s.phase t) p) (h : s.insert t row p = some s') : Move s t s' := by
  unfold St.insert at h
  split at h
  case isTrue => cases h
  case isFalse hwaits =>
    split at h
    · obtain rfl := Option.some.inj h
      exact .rollback
    · obtain rfl := Option.some.inj h
      refine .write row p hrow (Store.free_iff.mpr fun q hq hkey => ?_) hquiet
      by_contra hne
      refine hwaits (List.any_eq_true.mpr ⟨q, hq, ?_⟩)
      simpa using ⟨hne, conflicts_of_key hrow hkey⟩

theorem update_cases {key : Key} {f : Row → Row} {p : Phase} (h : s.update t key f p = some s') :
    s.store.free Row.key t key = true ∧
      ∃ row ∈ s.rows t, row.key = key ∧ s' = s.write t (f row) p := by
  unfold St.update at h
  split at h
  case isFalse => cases h
  case isTrue hfree =>
    obtain ⟨row, hrow, rfl⟩ := Option.map_eq_some_iff.mp h
    obtain ⟨hmem, hkey⟩ := Table.get?_some hrow
    exact ⟨hfree, row, hmem, hkey, rfl⟩

theorem status_move {id : Uuid} {status : InvitationStatus} {acceptedAt : Option Instant} {p : Phase}
    (h : s.update t (.invitation id) (setStatus status acceptedAt) p = some s')
    (htarget : (s.phase t).target = some (id, status)) (hpending : status ≠ .pending)
    (haccepted : ∀ i, p.accepted = some i → i = id ∧ status = .accepted)
    (hrevoked : ∀ i, p.revoked = some i → i = id ∧ status = .revoked)
    (huntouched : p.untouched = false) : Move s t s' := by
  obtain ⟨hfree, row, hrow, hkey, rfl⟩ := update_cases h
  cases row with
  | invitation old =>
    exact .status id status acceptedAt old p hrow (by simpa [Row.key] using hkey) hfree htarget
      hpending haccepted hrevoked huntouched
  | _ => cases hkey

theorem password_move {userId : Uuid} {passwordHash : String} {p : Phase}
    (hquiet : Quiet (s.phase t) p)
    (h : s.update t (.user userId) (setPasswordHash passwordHash) p = some s') : Move s t s' := by
  obtain ⟨hfree, row, _, hkey, rfl⟩ := update_cases h
  cases row with
  | user row =>
    refine .write _ p rfl ?_ hquiet
    simpa [setPasswordHash, Row.key, ← hkey] using hfree
  | _ => cases hkey

theorem gotoOrRaise_move {p : Option Phase} (hquiet : ∀ q, p = some q → Quiet (s.phase t) q) :
    Move s t (s.gotoOrRaise t p) := by
  cases p with
  | none => exact .rollback
  | some q => exact .goto q (hquiet q rfl)

theorem quiet_of_untouched {p q : Phase} (hp : p.untouched = true) (haccepted : q.accepted = none)
    (hrevoked : q.revoked = none) : Quiet p q where
  accepted := fun id hid => by
    rw [haccepted] at hid
    cases hid
  revoked := hrevoked
  untouched := fun _ => hp

theorem quiet_afterAccount {p : Phase} {join : Join} (userId : Uuid)
    (hp : p.untouched = join.admittedBy.isSome) : Quiet p (afterAccount join userId) := by
  unfold afterAccount
  cases join.joiner <;> exact ⟨nofun, rfl, fun h => hp.trans h⟩

theorem quiet_afterRole {p : Phase} {join : Join} (userId : Uuid)
    (hp : p.untouched = join.admittedBy.isSome) : Quiet p (afterRole join userId) := by
  unfold afterRole
  cases hadmitted : join.admittedBy with
  | some invitation => exact ⟨nofun, rfl, fun _ => by rw [hp, hadmitted]; rfl⟩
  | none => exact ⟨nofun, rfl, nofun⟩

theorem byRule_phase {organizationId : Uuid} {claims : VerifiedIdPClaims} {p : Phase}
    (h : byRule env rules organizationId claims = some p) :
    p.accepted = none ∧ p.revoked = none ∧ p.untouched = false := by
  obtain ⟨roleId, _, rfl⟩ := Option.map_eq_some_iff.mp h
  exact ⟨rfl, rfl, rfl⟩

/-- Everything a step can do. -/
theorem step_move {a : Label} (h : step env rules s a = some s') : Move s a.rid s' := by
  cases a with
  | start t request =>
    show Move s t s'
    simp only [step] at h
    split at h
    case h_2 => cases h
    case h_1 hidle =>
      obtain rfl := Option.some.inj h
      exact .goto _ (by rw [hidle]; exact quiet_of_untouched rfl rfl rfl)
  | abort t =>
    simp only [step] at h
    split at h
    · cases h
    · cases h
    · obtain rfl := Option.some.inj h
      exact .rollback
  | advance t outside =>
    show Move s t s'
    simp only [step, advance] at h
    split at h
    · cases h
    · cases h
    · next hphase =>
        obtain rfl := Option.some.inj h
        refine gotoOrRaise_move fun q hq => ?_
        obtain ⟨row, _, rfl⟩ := Option.map_eq_some_iff.mp hq
        rw [hphase]
        exact quiet_of_untouched rfl rfl rfl
    · next hphase =>
        split at h
        · obtain rfl := Option.some.inj h
          refine gotoOrRaise_move fun q hq => ?_
          obtain ⟨row, _, rfl⟩ := Option.map_eq_some_iff.mp hq
          rw [hphase]
          exact quiet_of_untouched rfl rfl rfl
        · obtain rfl := Option.some.inj h
          exact .rollback
    · next hphase =>
        split at h
        · obtain rfl := Option.some.inj h
          exact .goto _ (by rw [hphase]; exact quiet_of_untouched rfl rfl rfl)
        · obtain rfl := Option.some.inj h
          exact .goto _ (by rw [hphase]; exact quiet_of_untouched rfl rfl rfl)
    · next hphase =>
        split at h
        · split at h
          · obtain rfl := Option.some.inj h
            exact .goto _ (by rw [hphase]; exact quiet_of_untouched rfl rfl rfl)
          · obtain rfl := Option.some.inj h
            exact .goto _ (by rw [hphase]; exact quiet_of_untouched rfl rfl rfl)
        · obtain rfl := Option.some.inj h
          refine gotoOrRaise_move fun q hq => ?_
          obtain ⟨haccepted, hrevoked, _⟩ := byRule_phase hq
          rw [hphase]
          exact quiet_of_untouched rfl haccepted hrevoked
    · next hphase =>
        split at h
        · next p hrule =>
            obtain ⟨haccepted, hrevoked, huntouched⟩ := byRule_phase hrule
            refine status_move h (by rw [hphase]; rfl) nofun ?_ ?_ huntouched
            · rw [haccepted]
              exact nofun
            · rw [hrevoked]
              exact nofun
        · obtain rfl := Option.some.inj h
          exact .rollback
    · next join hphase =>
        split at h
        · obtain rfl := Option.some.inj h
          exact .goto _ (by rw [hphase]; exact quiet_afterAccount _ rfl)
        · obtain rfl := Option.some.inj h
          exact .goto _ (by rw [hphase]; exact ⟨nofun, rfl, id⟩)
    · next join hphase => exact insert_move rfl (by rw [hphase]; exact quiet_afterAccount _ rfl) h
    · next join userId data hphase =>
        exact password_move (by rw [hphase]; exact ⟨nofun, rfl, id⟩) h
    · next join userId hphase =>
        split at h
        · obtain rfl := Option.some.inj h
          exact .goto _ (by rw [hphase]; exact quiet_afterRole _ rfl)
        · obtain rfl := Option.some.inj h
          exact .goto _ (by rw [hphase]; exact ⟨nofun, rfl, id⟩)
    · next join userId hphase =>
        exact insert_move rfl (by rw [hphase]; exact quiet_afterRole _ rfl) h
    · next join userId invitation hphase =>
        obtain rfl := Option.some.inj h
        refine gotoOrRaise_move fun q hq => ?_
        obtain ⟨row, _, rfl⟩ := Option.map_eq_some_iff.mp hq
        rw [hphase]
        exact quiet_of_untouched rfl rfl rfl
    · next join userId invitationId hphase =>
        refine status_move h (by rw [hphase]; rfl) nofun ?_ ?_ ?_ <;> unfold afterAccepting <;>
          cases join.joiner
        · rintro i ⟨rfl⟩
          exact ⟨rfl, rfl⟩
        · rintro i ⟨rfl⟩
          exact ⟨rfl, rfl⟩
        · exact nofun
        · exact nofun
        · rfl
        · rfl
    · next join userId through hphase =>
        split at h
        · exact insert_move rfl (by rw [hphase]; exact ⟨fun _ => id, rfl, nofun⟩) h
        · cases h
    · next userId organizationId through hphase =>
        exact insert_move rfl (by rw [hphase]; exact ⟨fun _ => id, rfl, nofun⟩) h
    · next invitationId hphase =>
        refine status_move h (by rw [hphase]; rfl) nofun nofun ?_ rfl
        rintro i ⟨rfl⟩
        exact ⟨rfl, rfl⟩
    · next grants revokes hphase =>
        obtain rfl := Option.some.inj h
        exact .commit grants revokes hphase

/-! ## The status of an invitation -/

def statusOf (rows : List Row) (id : Uuid) : Option InvitationStatus :=
  (findInvitation rows id).map Invitation.status

theorem mem_invitations {rows : List Row} {row : Invitation} :
    row ∈ rows.filterMap Row.invitation? ↔ Row.invitation row ∈ rows := by
  rw [List.mem_filterMap]
  constructor
  · rintro ⟨r, hr, heq⟩
    cases r <;> cases heq
    exact hr
  · intro h
    exact ⟨_, h, rfl⟩

theorem invitationUnique {rows : List Row} (h : Table.KeyUnique Row.key rows) :
    Table.KeyUnique Invitation.id (rows.filterMap Row.invitation?) := by
  intro a ha b hb hid
  have hkey : (Row.invitation a).key = (Row.invitation b).key := congrArg Key.invitation hid
  have hrows := h _ (mem_invitations.mp ha) _ (mem_invitations.mp hb) hkey
  exact Row.invitation.inj hrows

theorem statusOf_eq_some {rows : List Row} (h : Table.KeyUnique Row.key rows) {id : Uuid}
    {status : InvitationStatus} :
    statusOf rows id = some status ↔
      ∃ row, Row.invitation row ∈ rows ∧ row.id = id ∧ row.status = status := by
  simp only [statusOf, findInvitation, Option.map_eq_some_iff,
    Table.get?_eq_some_iff (invitationUnique h), mem_invitations, and_assoc]

theorem statusOf_of_mem {rows : List Row} (h : Table.KeyUnique Row.key rows) {row : Invitation}
    (hrow : Row.invitation row ∈ rows) : statusOf rows row.id = some row.status :=
  (statusOf_eq_some h).mpr ⟨row, hrow, rfl, rfl⟩

/-! ## The invariant of every run -/

structure Inv (s : St) : Prop where
  unique : Table.KeyUnique Row.key s.store.committed
  exclusive : s.store.Exclusive Row.key
  /-- A transaction writes one status at most, and never back to pending. -/
  images : ∀ t row, (t, Row.invitation row) ∈ s.store.pending → row.status ≠ .pending
  once : ∀ t a b, (t, Row.invitation a) ∈ s.store.pending →
    (t, Row.invitation b) ∈ s.store.pending → a = b
  untouched : ∀ t, (s.phase t).untouched = true → ∀ row, (t, Row.invitation row) ∉ s.store.pending
  accepted : ∀ t id, (s.phase t).accepted = some id →
    ∃ row, (t, Row.invitation row) ∈ s.store.pending ∧ row.id = id ∧ row.status = .accepted
  revoked : ∀ t id, (s.phase t).revoked = some id →
    ∃ row, (t, Row.invitation row) ∈ s.store.pending ∧ row.id = id ∧ row.status = .revoked

/-- Where a run starts: nothing is in progress. -/
structure Start (s : St) : Prop where
  unique : Table.KeyUnique Row.key s.store.committed
  pending : s.store.pending = []
  idle : ∀ t, s.phase t = .idle
  commits : s.commits = []

theorem Start.inv (h : Start s) : Inv s where
  unique := h.unique
  exclusive := fun p hp => by rw [h.pending] at hp; cases hp
  images := fun t row hrow => by rw [h.pending] at hrow; cases hrow
  once := fun t a b ha => by rw [h.pending] at ha; cases ha
  untouched := fun t _ row hrow => by rw [h.pending] at hrow; cases hrow
  accepted := fun t id hid => by rw [h.idle] at hid; cases hid
  revoked := fun t id hid => by rw [h.idle] at hid; cases hid

@[simp] theorem write_phase_self (row : Row) (p : Phase) : (s.write t row p).phase t = p :=
  Function.update_self ..

theorem mem_write_pending {row other : Row} {p : Phase} :
    (t', other) ∈ (s.write t row p).store.pending ↔
      (t', other) ∈ s.store.pending ∨ (t' = t ∧ other = row) := by
  simp [St.write, Store.write]

theorem mem_rollback_pending {other : Row} :
    (t', other) ∈ (s.store.rollback t).pending ↔ (t', other) ∈ s.store.pending ∧ t' ≠ t := by
  simp [Store.rollback]

/-- A step that leaves the invitation images alone. -/
theorem Inv.quiet (h : Inv s) {u : St} {p : Phase} (hquiet : Quiet (s.phase t) p)
    (hphase : u.phase = Function.update s.phase t p)
    (hcommitted : u.store.committed = s.store.committed)
    (hexclusive : u.store.Exclusive Row.key)
    (himages : ∀ t' row, (t', Row.invitation row) ∈ u.store.pending ↔
      (t', Row.invitation row) ∈ s.store.pending) : Inv u where
  unique := by
    rw [hcommitted]
    exact h.unique
  exclusive := hexclusive
  images := fun t' row hrow => h.images t' row ((himages t' row).mp hrow)
  once := fun t' a b ha hb => h.once t' a b ((himages t' a).mp ha) ((himages t' b).mp hb)
  untouched := by
    intro t' hp row hrow
    refine h.untouched t' ?_ row ((himages t' row).mp hrow)
    rcases eq_or_ne t' t with rfl | hne
    · rw [hphase, Function.update_self] at hp
      exact hquiet.untouched hp
    · rwa [hphase, Function.update_of_ne hne] at hp
  accepted := by
    intro t' id hid
    simp only [himages]
    refine h.accepted t' id ?_
    rcases eq_or_ne t' t with rfl | hne
    · rw [hphase, Function.update_self] at hid
      exact hquiet.accepted id hid
    · rwa [hphase, Function.update_of_ne hne] at hid
  revoked := by
    intro t' id hid
    simp only [himages]
    rcases eq_or_ne t' t with rfl | hne
    · rw [hphase, Function.update_self, hquiet.revoked] at hid
      cases hid
    · rw [hphase, Function.update_of_ne hne] at hid
      exact h.revoked t' id hid

/-- The update of a status, by a transaction that has written none. -/
theorem Inv.status (h : Inv s) {row : Invitation} {id : Uuid} {status : InvitationStatus} {p : Phase}
    (hid : row.id = id) (hstatus : row.status = status)
    (hfree : s.store.free Row.key t (.invitation id) = true)
    (htarget : (s.phase t).target = some (id, status)) (hpending : status ≠ .pending)
    (haccepted : ∀ i, p.accepted = some i → i = id ∧ status = .accepted)
    (hrevoked : ∀ i, p.revoked = some i → i = id ∧ status = .revoked)
    (huntouched : p.untouched = false) : Inv (s.write t (.invitation row) p) := by
  have hnone := h.untouched t (Phase.untouched_of_target htarget)
  have hnew : ∀ t' a, (t', Row.invitation a) ∈ (s.write t (.invitation row) p).store.pending →
      (t', Row.invitation a) ∈ s.store.pending ∨ (t' = t ∧ a = row) := by
    intro t' a ha
    exact (mem_write_pending.mp ha).imp_right fun ⟨ht, heq⟩ => ⟨ht, Row.invitation.inj heq⟩
  have hwritten : (t, Row.invitation row) ∈ (s.write t (.invitation row) p).store.pending :=
    mem_write_pending.mpr (.inr ⟨rfl, rfl⟩)
  have hphase_ne : ∀ t' ≠ t, (s.write t (.invitation row) p).phase t' = s.phase t' :=
    fun t' hne => Function.update_of_ne hne ..
  refine ⟨h.unique, h.exclusive.write (by simpa [Row.key, hid] using hfree), ?_, ?_, ?_, ?_, ?_⟩
  · intro t' a ha
    rcases hnew t' a ha with hold | ⟨_, rfl⟩
    · exact h.images t' a hold
    · rwa [hstatus]
  · intro t' a b ha hb
    rcases hnew t' a ha with hold | ⟨rfl, rfl⟩ <;> rcases hnew _ b hb with hold' | ⟨heq, rfl⟩
    · exact h.once t' a b hold hold'
    · rw [heq] at hold
      exact absurd hold (hnone a)
    · exact absurd hold' (hnone b)
    · rfl
  · intro t' hp a ha
    rcases eq_or_ne t' t with rfl | hne
    · rw [write_phase_self, huntouched] at hp
      cases hp
    · rw [hphase_ne t' hne] at hp
      rcases hnew t' a ha with hold | ⟨heq, _⟩
      · exact h.untouched t' hp a hold
      · exact hne heq
  · intro t' i hi
    rcases eq_or_ne t' t with rfl | hne
    · rw [write_phase_self] at hi
      obtain ⟨rfl, haccept⟩ := haccepted i hi
      exact ⟨row, hwritten, hid, hstatus.trans haccept⟩
    · rw [hphase_ne t' hne] at hi
      obtain ⟨a, ha, haid, hastatus⟩ := h.accepted t' i hi
      exact ⟨a, mem_write_pending.mpr (.inl ha), haid, hastatus⟩
  · intro t' i hi
    rcases eq_or_ne t' t with rfl | hne
    · rw [write_phase_self] at hi
      obtain ⟨rfl, hrevoke⟩ := hrevoked i hi
      exact ⟨row, hwritten, hid, hstatus.trans hrevoke⟩
    · rw [hphase_ne t' hne] at hi
      obtain ⟨a, ha, haid, hastatus⟩ := h.revoked t' i hi
      exact ⟨a, mem_write_pending.mpr (.inl ha), haid, hastatus⟩

/-- A commit or a rollback of `t`. -/
theorem Inv.close (h : Inv s) {u : St} (hphase : u.phase = Function.update s.phase t .finished)
    (hpending : u.store.pending = (s.store.rollback t).pending)
    (hunique : Table.KeyUnique Row.key u.store.committed) : Inv u := by
  have hmem : ∀ t' row, (t', row) ∈ u.store.pending ↔ (t', row) ∈ s.store.pending ∧ t' ≠ t := by
    intro t' row
    rw [hpending]
    exact mem_rollback_pending
  have hself : u.phase t = .finished := by rw [hphase, Function.update_self]
  have hother : ∀ t' ≠ t, u.phase t' = s.phase t' := fun t' hne => by
    rw [hphase, Function.update_of_ne hne]
  refine ⟨hunique, ?_, ?_, ?_, ?_, ?_, ?_⟩
  · intro p hp q hq
    rw [hpending] at hp hq
    exact h.exclusive.rollback p hp q hq
  · exact fun t' row hrow => h.images t' row ((hmem _ _).mp hrow).1
  · exact fun t' a b ha hb => h.once t' a b ((hmem _ _).mp ha).1 ((hmem _ _).mp hb).1
  · intro t' hp row hrow
    obtain ⟨hold, hne⟩ := (hmem _ _).mp hrow
    rw [hother t' hne] at hp
    exact h.untouched t' hp row hold
  · intro t' id hid
    rcases eq_or_ne t' t with rfl | hne
    · rw [hself] at hid
      cases hid
    · rw [hother t' hne] at hid
      obtain ⟨row, hrow, hrowid, hstatus⟩ := h.accepted t' id hid
      exact ⟨row, (hmem _ _).mpr ⟨hrow, hne⟩, hrowid, hstatus⟩
  · intro t' id hid
    rcases eq_or_ne t' t with rfl | hne
    · rw [hself] at hid
      cases hid
    · rw [hother t' hne] at hid
      obtain ⟨row, hrow, hrowid, hstatus⟩ := h.revoked t' id hid
      exact ⟨row, (hmem _ _).mpr ⟨hrow, hne⟩, hrowid, hstatus⟩

theorem images_write_other_row {row : Row} (hrow : row.invitation? = none) {p : Phase}
    {a : Invitation} : (t', Row.invitation a) ∈ (s.write t row p).store.pending ↔
      (t', Row.invitation a) ∈ s.store.pending := by
  rw [mem_write_pending]
  refine or_iff_left ?_
  rintro ⟨_, rfl⟩
  cases hrow

theorem Inv.move (h : Inv s) (hmove : Move s t s') : Inv s' := by
  cases hmove with
  | goto p hquiet => exact h.quiet hquiet rfl rfl h.exclusive fun _ _ => Iff.rfl
  | write row p hrow hfree hquiet =>
    exact h.quiet hquiet rfl rfl (h.exclusive.write hfree) fun _ _ => images_write_other_row hrow
  | status id status acceptedAt old p hold hid hfree htarget hpending haccepted hrevoked huntouched =>
    exact h.status hid rfl hfree htarget hpending haccepted hrevoked huntouched
  | commit grants revokes hphase => exact h.close rfl rfl (Store.keyUnique_view h.unique)
  | rollback => exact h.close rfl rfl h.unique

/-! ## When every status is written over an open one -/

/-- Writing `new` over `old` leaves the state machine closed: `old` is pending, or
the write changes nothing and accepts nothing. -/
def Open (old : Option InvitationStatus) (new : InvitationStatus) : Prop :=
  old = some .pending ∨ (old = some new ∧ new ≠ .accepted)

instance (old : Option InvitationStatus) (new : InvitationStatus) : Decidable (Open old new) :=
  inferInstanceAs (Decidable (_ ∨ _))

/-- A request about to write a status finds the committed one still open for it. -/
def WritesOpen (s : St) (a : Label) : Prop :=
  ∀ x ∈ (s.phase a.rid).target, Open (statusOf s.store.committed x.1) x.2

instance (s : St) (a : Label) : Decidable (WritesOpen s a) := by
  unfold WritesOpen
  infer_instance

namespace Commit

/-- The commit changes the status of the invitation. -/
def Changes (c : Commit) (id : Uuid) : Prop := statusOf c.before id ≠ statusOf c.after id

instance (c : Commit) (id : Uuid) : Decidable (c.Changes id) :=
  inferInstanceAs (Decidable (_ ≠ _))

/-- The commit has nothing to do with the invitation. -/
structure Spares (c : Commit) (id : Uuid) : Prop where
  changes : ¬ c.Changes id
  grants : c.grants ≠ some id
  revokes : c.revokes ≠ some id

end Commit

/-- The status leaves pending once and never changes again, one commit at most
grants through the invitation, and none does after a revocation committed. -/
structure ClosedOnce (commits : List Commit) (id : Uuid) : Prop where
  changesOnce : (commits.filter fun c => c.Changes id).length ≤ 1
  fromPending : ∀ c ∈ commits, c.Changes id → statusOf c.before id = some .pending
  grantedOnce : (commits.filter fun c => c.grants = some id).length ≤ 1
  revokedFinal : commits.Pairwise fun c c' => c.revokes = some id → c'.grants ≠ some id

structure Closed (s : St) : Prop where
  /-- While a status is written and not committed, the committed one stays open. -/
  fair : ∀ t row, (t, Row.invitation row) ∈ s.store.pending →
    Open (statusOf s.store.committed row.id) row.status
  /-- While the status is pending, nothing has happened to the invitation. -/
  fresh : ∀ id, statusOf s.store.committed id = some .pending → ∀ c ∈ s.commits, c.Spares id
  once : ∀ id, ClosedOnce s.commits id

theorem Start.closed (h : Start s) : Closed s where
  fair := fun t row hrow => by rw [h.pending] at hrow; cases hrow
  fresh := fun id _ c hc => by rw [h.commits] at hc; cases hc
  once := fun id => by
    rw [h.commits]
    exact ⟨by simp, nofun, by simp, .nil⟩

/-- What the commit of `t` makes of a status that `t` has written. -/
theorem statusOf_written (hi : Inv s) {row : Invitation}
    (hrow : (t, Row.invitation row) ∈ s.store.pending) :
    statusOf (s.rows t) row.id = some row.status := by
  refine statusOf_of_mem (Store.keyUnique_view hi.unique) ?_
  refine Store.mem_view_of_image (Store.mem_images.mpr hrow) fun other hother hkey => ?_
  cases other with
  | invitation a => rw [hi.once t a row (Store.mem_images.mp hother) hrow]
  | _ => cases hkey

/-- And of any other status. -/
theorem statusOf_unwritten (hi : Inv s) {id : Uuid}
    (hnone : ∀ row, (t, Row.invitation row) ∈ s.store.pending → row.id ≠ id) :
    statusOf (s.rows t) id = statusOf s.store.committed id := by
  have hview : Table.KeyUnique Row.key (s.rows t) := Store.keyUnique_view hi.unique
  refine Option.ext fun status => ?_
  rw [statusOf_eq_some hi.unique, statusOf_eq_some hview]
  refine exists_congr fun row => ?_
  refine and_congr_left fun hrow => Store.mem_view_of_unwritten fun w hw hkey => ?_
  cases w with
  | invitation a => exact hnone a (Store.mem_images.mp hw) ((Key.invitation.inj hkey).trans hrow.1)
  | _ => cases hkey

/-- A commit that touches the invitation has written its status. -/
theorem spares_of_unwritten (hi : Inv s) {grants revokes : Option Uuid} {id : Uuid}
    (hphase : s.phase t = .ready grants revokes)
    (hnone : ∀ row, (t, Row.invitation row) ∈ s.store.pending → row.id ≠ id) :
    Commit.Spares { before := s.store.committed, after := s.rows t, grants, revokes } id where
  changes := fun hchanges => hchanges (statusOf_unwritten hi hnone).symm
  grants := by
    intro hgrants
    obtain ⟨row, hrow, hid, _⟩ := hi.accepted t id (by rw [hphase]; exact hgrants)
    exact hnone row hrow hid
  revokes := by
    intro hrevokes
    obtain ⟨row, hrow, hid, _⟩ := hi.revoked t id (by rw [hphase]; exact hrevokes)
    exact hnone row hrow hid

theorem filter_length_le_one {p : Commit → Bool} {commits : List Commit} {c : Commit}
    (hold : (commits.filter p).length ≤ 1) (hfirst : p c = true → ∀ c' ∈ commits, p c' = false) :
    ((commits ++ [c]).filter p).length ≤ 1 := by
  rw [List.filter_append, List.length_append]
  by_cases hp : p c = true
  · have hnone : commits.filter p = [] :=
      List.filter_eq_nil_iff.mpr fun c' hc' => by simp [hfirst hp c' hc']
    simp [hnone, hp]
  · have hskip : [c].filter p = [] := List.filter_eq_nil_iff.mpr (by simpa using hp)
    rw [hskip]
    simpa using hold

/-- One more commit keeps an invitation closed once: it touches it only when
nothing has before. -/
theorem ClosedOnce.append {commits : List Commit} {id : Uuid} {c : Commit}
    (h : ClosedOnce commits id)
    (hchanges : c.Changes id → statusOf c.before id = some .pending ∧ ∀ c' ∈ commits, c'.Spares id)
    (hgrants : c.grants = some id → ∀ c' ∈ commits, c'.Spares id) :
    ClosedOnce (commits ++ [c]) id where
  changesOnce := by
    refine filter_length_le_one h.changesOnce fun hc c' hc' => ?_
    have hspares := (hchanges (by simpa using hc)).2 c' hc'
    simpa using hspares.changes
  fromPending := by
    intro c' hc' hchange
    rcases List.mem_append.mp hc' with hold | hnew
    · exact h.fromPending c' hold hchange
    · rw [List.mem_singleton.mp hnew] at hchange ⊢
      exact (hchanges hchange).1
  grantedOnce := by
    refine filter_length_le_one h.grantedOnce fun hc c' hc' => ?_
    have hspares := hgrants (by simpa using hc) c' hc'
    simpa using hspares.grants
  revokedFinal := by
    refine List.pairwise_append.mpr ⟨h.revokedFinal, List.pairwise_singleton _ _, ?_⟩
    intro c' hc' d hd hrevokes hgrant
    rw [List.mem_singleton.mp hd] at hgrant
    exact (hgrants hgrant c' hc').revokes hrevokes

/-- The commit of a request that wrote over an open status. -/
theorem Closed.commit (h : Closed s) (hi : Inv s) {grants revokes : Option Uuid}
    (hphase : s.phase t = .ready grants revokes) : Closed (s.commit t grants revokes) where
  fair := by
    intro t' row hrow
    obtain ⟨hold, hne⟩ := mem_rollback_pending.mp hrow
    have hsame : statusOf (s.rows t) row.id = statusOf s.store.committed row.id := by
      refine statusOf_unwritten hi fun other hother hid => hne ?_
      exact hi.exclusive _ hold _ hother (congrArg Key.invitation hid.symm)
    show Open (statusOf (s.rows t) row.id) row.status
    rw [hsame]
    exact h.fair t' row hold
  fresh := by
    intro id hpending c hc
    change statusOf (s.rows t) id = some .pending at hpending
    have hnone : ∀ row, (t, Row.invitation row) ∈ s.store.pending → row.id ≠ id := by
      rintro row hrow rfl
      rw [statusOf_written hi hrow] at hpending
      exact hi.images t row hrow (Option.some.inj hpending)
    rcases List.mem_append.mp hc with hold | hnew
    · rw [statusOf_unwritten hi hnone] at hpending
      exact h.fresh id hpending c hold
    · rw [List.mem_singleton.mp hnew]
      exact spares_of_unwritten hi hphase hnone
  once := by
    intro id
    by_cases hwritten : ∃ row, (t, Row.invitation row) ∈ s.store.pending ∧ row.id = id
    · obtain ⟨row, hrow, rfl⟩ := hwritten
      have hafter := statusOf_written hi hrow
      refine (h.once row.id).append ?_ ?_
      · intro hchanges
        rcases h.fair t row hrow with hpending | ⟨hsame, _⟩
        · exact ⟨hpending, h.fresh row.id hpending⟩
        · exact absurd (hsame.trans hafter.symm) hchanges
      · intro hgrants
        obtain ⟨row', hrow', _, haccepted⟩ :=
          hi.accepted t row.id (by rw [hphase]; exact hgrants)
        rw [hi.once t row' row hrow' hrow] at haccepted
        rcases h.fair t row hrow with hpending | ⟨_, hne⟩
        · exact h.fresh row.id hpending
        · exact absurd haccepted hne
    · have hspares := spares_of_unwritten hi hphase fun row hrow hid => hwritten ⟨row, hrow, hid⟩
      exact (h.once id).append (fun hc => absurd hc hspares.changes)
        (fun hg => absurd hg hspares.grants)

/-- A step that commits nothing. -/
theorem Closed.keep (h : Closed s) (hcommitted : s'.store.committed = s.store.committed)
    (hcommits : s'.commits = s.commits)
    (hfair : ∀ t row, (t, Row.invitation row) ∈ s'.store.pending →
      (t, Row.invitation row) ∈ s.store.pending ∨
        Open (statusOf s.store.committed row.id) row.status) : Closed s' where
  fair := by
    intro t row hrow
    rw [hcommitted]
    rcases hfair t row hrow with hold | hopen
    · exact h.fair t row hold
    · exact hopen
  fresh := by
    rw [hcommitted, hcommits]
    exact h.fresh
  once := by
    rw [hcommits]
    exact h.once

theorem closed_step {a : Label} (h : Closed s) (hi : Inv s) (hok : WritesOpen s a)
    (hstep : step env rules s a = some s') : Closed s' := by
  cases step_move hstep with
  | goto p _ => exact h.keep rfl rfl fun _ _ => .inl
  | write row p hrow _ _ =>
    exact h.keep rfl rfl fun _ _ hmem => .inl ((images_write_other_row hrow).mp hmem)
  | status id status acceptedAt old p _ hid _ htarget _ _ _ _ =>
    refine h.keep rfl rfl fun t row hrow => ?_
    rcases mem_write_pending.mp hrow with hold | ⟨_, heq⟩
    · exact .inl hold
    · obtain rfl := Row.invitation.inj heq
      have hopen := hok (id, status) htarget
      rw [← hid] at hopen
      exact .inr hopen
  | commit grants revokes hphase => exact h.commit hi hphase
  | rollback => exact h.keep rfl rfl fun _ _ hmem => .inl (mem_rollback_pending.mp hmem).1

/-- In every run whose status writes all find the committed status open, every
invitation is closed once, in every state reached. -/
theorem closed_once {s₀ : St} (hstart : Start s₀) (hrun : Run (step env rules) WritesOpen s₀ s)
    (id : Uuid) : ClosedOnce s.commits id := by
  have hboth : Inv s ∧ Closed s :=
    hrun.invariant (I := fun s => Inv s ∧ Closed s)
      (fun _ _ _ hs hok hstep => ⟨hs.1.move (step_move hstep), closed_step hs.2 hs.1 hok hstep⟩)
      ⟨hstart.inv, hstart.closed⟩
  exact hboth.2.once id

/-! ## An acceptance against a revocation -/

def openInvitation : Invitation :=
  { id := 1, organizationId := 3, email := "new@a.example", tokenHash := some "raw"
    grantsRoleId := 5, invitedBy := 9, expiresAt := 100 }

def oneInvitation : St where
  store := { committed := [.invitation openInvitation] }
  phase _ := .idle
  commits := []

theorem oneInvitation_start : Start oneInvitation where
  unique := by unfold Table.KeyUnique; decide
  pending := rfl
  idle := fun _ => rfl
  commits := rfl

def outside (id : Uuid) : Outside where
  now := 0
  draw := { issuedAt := 0, refreshTokenId := id, rawRefreshToken := "session", familyId := id
            userId := id, mappingId := id }

def acceptRequest : Request := .accept 1 { token := "raw", password := "chosen" }

def revokeRequest : Request :=
  .revoke { kind := .user, subject := "9", organizationId := 3, userId := some 9
            permissions := {managePermission} } 3 1

/-- Request `t` is started and takes `n` steps. -/
def runs (t : Rid) (request : Request) (n : Nat) : List Label :=
  .start t request :: List.replicate n (.advance t (outside (40 + t)))

/-- What a commit did to the invitation. -/
def Commit.summary (c : Commit) :
    (Option InvitationStatus × Option InvitationStatus) × (Option Uuid × Option Uuid) :=
  ((statusOf c.before 1, statusOf c.after 1), (c.grants, c.revokes))

/-- The acceptance has granted the role when the revocation runs and commits;
then it writes over the revoked status and commits. -/
theorem accept_over_revoked :
    ((exec (step plainEnv {}) oneInvitation (runs 1 acceptRequest 6 ++ runs 2 revokeRequest 3 ++
        List.replicate 4 (.advance 1 (outside 41)))).map fun s => s.commits.map Commit.summary) =
      some [((some .pending, some .revoked), (none, some 1)),
        ((some .revoked, some .accepted), (some 1, none))] := by
  decide

theorem closed_once_fails :
    ¬ ∀ (env : Env) (rules : Db) (s₀ s : St) (id : Uuid), Start s₀ →
      Run (step env rules) anyStep s₀ s → ClosedOnce s.commits id := by
  intro hall
  obtain ⟨s, hs, hsummary⟩ := Option.map_eq_some_iff.mp accept_over_revoked
  have hclosed := hall plainEnv {} oneInvitation s 1 oneInvitation_start (run_of_exec hs)
  obtain ⟨c, rest, hcommits, hc, hrest⟩ := List.map_eq_cons_iff.mp hsummary
  obtain ⟨c', rest', rfl, hc', hnil⟩ := List.map_eq_cons_iff.mp hrest
  have hrevokes : c.revokes = some 1 := congrArg (fun summary => summary.2.2) hc
  have hgrants : c'.grants = some 1 := congrArg (fun summary => summary.2.1) hc'
  have hpair := hclosed.revokedFinal
  rw [hcommits] at hpair
  exact (List.pairwise_cons.mp hpair).1 c' (List.mem_cons_self ..) hrevokes hgrants

/-- One after the other: the acceptance commits, and the revocation is denied. -/
theorem closed_once_accepted :
    ∃ s, Run (step plainEnv {}) WritesOpen oneInvitation s ∧
      s.commits.map Commit.summary = [((some .pending, some .accepted), (some 1, none))] ∧
      ClosedOnce s.commits 1 := by
  have hsummary : ((execWithin (step plainEnv {}) WritesOpen oneInvitation
      (runs 1 acceptRequest 10 ++ runs 2 revokeRequest 1)).map fun s =>
        s.commits.map Commit.summary) =
      some [((some .pending, some .accepted), (some 1, none))] := by
    decide
  obtain ⟨s, hs, hcommits⟩ := Option.map_eq_some_iff.mp hsummary
  have hrun := run_of_execWithin hs
  exact ⟨s, hrun, hcommits, closed_once oneInvitation_start hrun 1⟩

end Ekip.Core.Auth.InvitationRace
