import Ekip.Core.Auth.Service
import Ekip.Lib.Run

/-!
# What stands in the way of an invitation

An invitation that is past due keeps its status until somebody notices: only a login
that consults the provisioning policy does, and only when it commits. A new invitation
is refused for the stored status alone. So what stands in its way is an invitation
since which nobody with its email got in and which nobody closed.
-/
namespace Ekip.Core.Auth.PendingInvitation

open Ekip.Lib Ekip.Database Ekip.Shared Ekip.Core Ekip.Core.Tenancy

/-! ## What the operations write -/

/-- The rows after one of them got a final status. -/
def Closes (rows rows' : List Invitation) (id : Uuid) : Prop :=
  ∃ status acceptedAt, status ≠ InvitationStatus.pending ∧
    rows' = Table.updateWhere rows (fun row => row.id = id) fun row =>
      withStatus row status acceptedAt

section

variable {env : Env} {db db' : Db} {now : Instant} {draw : Draw}

theorem updateInvitationStatus_closes {id : Uuid} {status : InvitationStatus}
    {acceptedAt : Option Instant} {u : Unit} (hstatus : status ≠ .pending)
    (h : (updateInvitationStatus id status acceptedAt).Returns db u db') :
    Closes db.invitations db'.invitations id := by
  simp only [updateInvitationStatus, Service.write_returns] at h
  subst h
  exact ⟨status, acceptedAt, hstatus, rfl⟩

theorem acceptInvitation_closes {id : Uuid} {u : Unit}
    (h : (acceptInvitation now id).Returns db u db') :
    Closes db.invitations db'.invitations id := by
  simp only [acceptInvitation, Service.bind_returns, Service.read_returns,
    Service.orRaise_returns, Service.raiseIf_returns] at h
  obtain ⟨_, _, ⟨rfl, rfl⟩, _, _, ⟨_, rfl⟩, _, _, ⟨_, rfl⟩, _, _, ⟨_, rfl⟩, h⟩ := h
  exact updateInvitationStatus_closes (by decide) h

theorem revokeInvitation_closes {actor : Identity} {organizationId id : Uuid} {u : Unit}
    (h : (revokeInvitation actor organizationId id).Returns db u db') :
    Closes db.invitations db'.invitations id := by
  simp only [revokeInvitation, ensureSameOrganization, Users.requirePermission,
    Service.bind_returns, Service.read_returns, Service.orRaise_returns,
    Service.raiseIf_returns] at h
  obtain ⟨_, _, ⟨_, rfl⟩, _, _, ⟨_, rfl⟩, _, _, ⟨rfl, rfl⟩, _, _, ⟨_, rfl⟩, _, _, ⟨_, rfl⟩, h⟩ := h
  exact updateInvitationStatus_closes (by decide) h

theorem acceptInvitationWithPassword_closes {id : Uuid} {data : InvitationAcceptRequest}
    {tokens : SessionTokens}
    (h : (acceptInvitationWithPassword env now draw id data).Returns db tokens db') :
    Closes db.invitations db'.invitations id := by
  simp only [acceptInvitationWithPassword, Service.bind_returns, Service.read_returns,
    Service.orRaise_returns, Service.raiseIf_returns] at h
  obtain ⟨_, _, ⟨rfl, rfl⟩, invitation, _, ⟨_, rfl⟩, _, _, ⟨_, rfl⟩, _, _, ⟨_, rfl⟩, _, _, ⟨_, rfl⟩,
    userId, db₁, haccount, _, db₂, hpassword, _, db₃, hrole, _, db₄, haccept, hissue⟩ := h
  have h₁ : db₁.invitations = db.invitations :=
    (congrArg Db.invitations (Users.getOrCreateUser_returns haccount).2).trans rfl
  have h₂ : db₂.invitations = db₁.invitations :=
    (congrArg Db.invitations (Users.setPassword_returns hpassword)).trans rfl
  have h₃ : db₃.invitations = db₂.invitations :=
    (congrArg Db.invitations (Users.assignRole_returns hrole).1).trans rfl
  have h₄ := acceptInvitation_closes haccept
  have h₅ : db'.invitations = db₄.invitations := by
    rw [(issueSession_returns.mp hissue).2.2]
  rw [h₅, ← h₁, ← h₂, ← h₃]
  exact h₄

/-- A new row is pending, and was the first for its email. -/
theorem createInvitation_first {id organizationId : Uuid} {rawToken : String} {actor : Identity}
    {data : InvitationCreate} {result : Invitation × String}
    (h : (createInvitation env now id rawToken actor organizationId data).Returns db result db') :
    getPendingInvitation db organizationId data.email = none := by
  simp only [createInvitation, ensureSameOrganization, Users.requirePermission,
    Service.bind_returns, Service.read_returns, Service.orRaise_returns,
    Service.raiseIf_returns] at h
  obtain ⟨_, _, ⟨_, rfl⟩, _, _, ⟨_, rfl⟩, _, _, ⟨_, rfl⟩, existing, _, ⟨rfl, rfl⟩, _, _,
    ⟨hfree, -⟩, -⟩ := h
  simpa using hfree

/-- The policy, where it does not know the account yet. -/
theorem resolveOrProvisionUser_closes {organizationId userId : Uuid} {claims : VerifiedIdPClaims}
    (hunmapped : Repository.getExternalIdentityMapping db organizationId claims.sub = none)
    (h : (resolveOrProvisionUser env now draw organizationId claims).Returns db userId db') :
    (getPendingInvitation db organizationId claims.email = none ∧
        db'.invitations = db.invitations) ∨
      ∃ row, getPendingInvitation db organizationId claims.email = some row ∧
        Closes db.invitations db'.invitations row.id := by
  simp only [resolveOrProvisionUser, Service.bind_returns, Service.read_returns] at h
  obtain ⟨_, _, ⟨rfl, rfl⟩, h⟩ := h
  rw [hunmapped] at h
  simp only [Service.bind_returns, Service.raiseIf_returns, Service.orRaise_returns,
    Service.pure_returns] at h
  obtain ⟨decision, db₁, hevaluate, _, _, ⟨_, rfl⟩, roleId, _, ⟨_, rfl⟩, _, db₂, haccount, _, db₃,
    hrole, _, db₄, haccept, _, _, hinsert, rfl, rfl⟩ := h
  have h₂ : db₂.invitations = db₁.invitations :=
    (congrArg Db.invitations (Users.getOrCreateUser_returns haccount).2).trans rfl
  have h₃ : db₃.invitations = db₂.invitations :=
    (congrArg Db.invitations (Users.assignRole_returns hrole).1).trans rfl
  have h₅ := congrArg Db.invitations (Repository.insertExternalIdentityMapping_returns hinsert)
  have hlast : decision.matchedInvitationId = none → db₄.invitations = db₁.invitations := by
    intro hnone
    rw [hnone] at haccept
    obtain ⟨-, rfl⟩ := Service.pure_returns.mp haccept
    rw [h₃, h₂]
  simp only [evaluateProvisioning, Service.bind_returns, Service.read_returns] at hevaluate
  obtain ⟨found, _, ⟨rfl, rfl⟩, hevaluate⟩ := hevaluate
  cases hget : getPendingInvitation db organizationId claims.email with
  | none =>
    rw [hget] at hevaluate
    obtain ⟨rfl, rfl⟩ := Service.read_returns.mp hevaluate
    refine .inl ⟨rfl, ?_⟩
    rw [h₅]
    exact hlast (matchedInvitationId_matchingRule ..)
  | some row =>
    rw [hget] at hevaluate
    simp only [Service.ite_returns, Service.pure_returns, Service.bind_returns,
      Service.read_returns] at hevaluate
    refine .inr ⟨row, rfl, ?_⟩
    rcases hevaluate with ⟨-, rfl, rfl⟩ | ⟨-, _, _, hexpire, rfl, rfl⟩
    · have hclosed := acceptInvitation_closes haccept
      rw [h₅]
      rw [h₃, h₂] at hclosed
      exact hclosed
    · have hclosed := updateInvitationStatus_closes (by decide) hexpire
      rw [h₅]
      show Closes db.invitations db₄.invitations row.id
      rw [hlast (matchedInvitationId_matchingRule ..)]
      exact hclosed

end

/-! ## Requests over time -/

inductive Event
  | created (id : Uuid)
  /-- Revoked, or accepted with a password. -/
  | closed (id : Uuid)
  /-- A login with this email that asked the policy got in. -/
  | consulted (organizationId : Uuid) (email : String)
deriving DecidableEq

/-- The database, and what committed, the last event first. -/
structure World where
  db : Db
  clock : Instant
  log : List Event := []

inductive Request
  | createInvitation (actor : Identity) (organizationId id : Uuid) (rawToken : String)
      (data : InvitationCreate)
  | revokeInvitation (actor : Identity) (organizationId invitationId : Uuid)
  | acceptInvitation (invitationId : Uuid) (data : InvitationAcceptRequest)
  | ssoLogin (orgSlug redirectUri : String)
      (exchange : SSOConfiguration → Except Exn VerifiedIdPClaims)

structure Call where
  now : Instant
  draw : Draw
  request : Request

/-- The policy is asked for a subject that the organization does not know. -/
def consults (db : Db) (orgSlug : String)
    (exchange : SSOConfiguration → Except Exn VerifiedIdPClaims) : List Event :=
  match (getOrganizationSsoConfig orgSlug db).1 with
  | .error _ => []
  | .ok config =>
    match exchange config with
    | .error _ => []
    | .ok claims =>
      match Repository.getExternalIdentityMapping db config.organizationId claims.sub with
      | some _ => []
      | none => [.consulted config.organizationId claims.email]

def handle (env : Env) (call : Call) : ServiceM (List Event) :=
  match call.request with
  | .createInvitation actor organizationId id rawToken data => do
    let created ← createInvitation env call.now id rawToken actor organizationId data
    pure [.created created.1.id]
  | .revokeInvitation actor organizationId invitationId => do
    revokeInvitation actor organizationId invitationId
    pure [.closed invitationId]
  | .acceptInvitation invitationId data => do
    let _ ← acceptInvitationWithPassword env call.now call.draw invitationId data
    pure [.closed invitationId]
  | .ssoLogin orgSlug redirectUri exchange => do
    let events ← Service.read fun db => consults db orgSlug exchange
    let _ ← completeSsoLogin env call.now call.draw orgSlug redirectUri exchange
    pure events

/-- A request in a transaction of its own, not before the last one. -/
def step (env : Env) (w : World) (call : Call) : Option World :=
  if call.now < w.clock then none
  else
    match getDbSession (handle env call) w.db with
    | (.ok events, db) => some { db, clock := call.now, log := events ++ w.log }
    | (.error _, db) => some { w with db, clock := call.now }

/-! ## The invariant -/

/-- What closes an invitation, if it commits. -/
def Event.ends (event : Event) (row : Invitation) : Prop :=
  event = .closed row.id ∨ event = .consulted row.organizationId row.email

/-- What committed after an invitation was created. -/
def since (id : Uuid) (log : List Event) : List Event := log.takeWhile (· ≠ .created id)

structure Inv (w : World) : Prop where
  ids : Table.KeyUnique Invitation.id w.db.invitations
  one : ∀ row ∈ w.db.invitations, ∀ other ∈ w.db.invitations, row.status = .pending →
    other.status = .pending → row.organizationId = other.organizationId → row.email = other.email →
      row = other
  unclosed : ∀ row ∈ w.db.invitations, row.status = .pending →
    ∀ event ∈ since row.id w.log, ¬ event.ends row

variable {env : Env} {w w' : World} {db' : Db} {now : Instant}

theorem mem_since {id : Uuid} {event : Event} {events log : List Event}
    (h : event ∈ since id (events ++ log)) : event ∈ events ∨ event ∈ since id log := by
  induction events with
  | nil => exact .inr h
  | cons first rest ih =>
    unfold since at h ih
    rw [List.cons_append, List.takeWhile_cons] at h
    split at h
    · rcases List.mem_cons.mp h with rfl | h
      · exact .inl List.mem_cons_self
      · rcases ih h with hrest | hlog
        · exact .inl (List.mem_cons_of_mem _ hrest)
        · exact .inr hlog
    · cases h

theorem Inv.same (h : Inv w) (hsame : db'.invitations = w.db.invitations) {events : List Event}
    (hevents : ∀ event ∈ events, ∀ row ∈ w.db.invitations, row.status = .pending →
      ¬ event.ends row) : Inv { db := db', clock := now, log := events ++ w.log } := by
  constructor
  · show Table.KeyUnique Invitation.id db'.invitations
    rw [hsame]
    exact h.ids
  · show ∀ row ∈ db'.invitations, ∀ other ∈ db'.invitations, _
    rw [hsame]
    exact h.one
  · intro row hrow hpending event hevent
    have hold : row ∈ w.db.invitations := by
      rw [← hsame]
      exact hrow
    rcases mem_since hevent with hnew | hlog
    · exact hevents event hnew row hold hpending
    · exact h.unclosed row hold hpending event hlog

theorem Inv.close (h : Inv w) {id : Uuid} (hcloses : Closes w.db.invitations db'.invitations id)
    {events : List Event}
    (hevents : ∀ event ∈ events, ∀ row ∈ w.db.invitations, row.status = .pending → row.id ≠ id →
      ¬ event.ends row) : Inv { db := db', clock := now, log := events ++ w.log } := by
  obtain ⟨status, acceptedAt, hstatus, hrows⟩ := hcloses
  -- a row that is still pending is an old one, and another
  have hold : ∀ row ∈ db'.invitations, row.status = .pending →
      row ∈ w.db.invitations ∧ row.id ≠ id := by
    intro row hrow hpending
    rw [hrows, Table.mem_updateWhere] at hrow
    obtain ⟨old, hmem, heq⟩ := hrow
    by_cases hid : old.id = id
    · rw [if_pos (by simpa using hid)] at heq
      rw [← heq] at hpending
      exact absurd hpending hstatus
    · rw [if_neg (by simpa using hid)] at heq
      rw [← heq]
      exact ⟨hmem, hid⟩
  constructor
  · show Table.KeyUnique Invitation.id db'.invitations
    rw [hrows]
    exact Table.keyUnique_updateWhere h.ids fun _ _ => rfl
  · intro row hrow other hother hpending hpending'
    exact h.one row (hold row hrow hpending).1 other (hold other hother hpending').1 hpending
      hpending'
  · intro row hrow hpending event hevent
    obtain ⟨hmem, hid⟩ := hold row hrow hpending
    rcases mem_since hevent with hnew | hlog
    · exact hevents event hnew row hmem hpending hid
    · exact h.unclosed row hmem hpending event hlog

theorem Inv.create (h : Inv w) {row : Invitation}
    (hfirst : getPendingInvitation w.db row.organizationId row.email = none)
    (hfresh : ∀ other ∈ w.db.invitations, other.id ≠ row.id) :
    Inv { db := { w.db with invitations := w.db.invitations ++ [row] }, clock := now,
          log := [.created row.id] ++ w.log } := by
  have hnone : ∀ other ∈ w.db.invitations, other.status = .pending →
      other.organizationId = row.organizationId → other.email ≠ row.email := by
    intro other hother hpending horganization hemail
    have hno := List.find?_eq_none.mp hfirst other hother
    simp [horganization, hemail, hpending] at hno
  constructor
  · exact Table.keyUnique_append h.ids hfresh
  · intro a ha b hb hpending hpending' horganization hemail
    rcases List.mem_append.mp ha with hold | hnew
    · rcases List.mem_append.mp hb with hold' | hnew'
      · exact h.one a hold b hold' hpending hpending' horganization hemail
      · rw [List.mem_singleton.mp hnew'] at horganization hemail
        exact absurd hemail (hnone a hold hpending horganization)
    · rw [List.mem_singleton.mp hnew] at horganization hemail ⊢
      rcases List.mem_append.mp hb with hold' | hnew'
      · exact absurd hemail.symm (hnone b hold' hpending' horganization.symm)
      · exact (List.mem_singleton.mp hnew').symm
  · intro a ha hpending event hevent
    rcases List.mem_append.mp ha with hold | hnew
    · rcases mem_since hevent with hcreated | hlog
      · rw [List.mem_singleton.mp hcreated]
        rintro (hends | hends)
        · cases hends
        · cases hends
      · exact h.unclosed a hold hpending event hlog
    · rw [List.mem_singleton.mp hnew] at hevent
      unfold since at hevent
      rw [List.singleton_append, List.takeWhile_cons] at hevent
      simp at hevent

/-- A login either keeps the rows and asks no policy, or leaves none pending for its email. -/
theorem Inv.login (h : Inv w) {draw : Draw} {orgSlug redirectUri : String}
    {exchange : SSOConfiguration → Except Exn VerifiedIdPClaims} {tokens : SessionTokens}
    (hlogin : (completeSsoLogin env now draw orgSlug redirectUri exchange).Returns w.db tokens db') :
    Inv { db := db', clock := now, log := consults w.db orgSlug exchange ++ w.log } := by
  simp only [completeSsoLogin, assertRedirectUriAllowed, Service.bind_returns,
    Service.raiseIf_returns, Service.ofExcept_returns] at hlogin
  obtain ⟨_, _, ⟨_, rfl⟩, config, db₁, hconfig, claims, _, ⟨hclaims, rfl⟩, userId, db₂, hresolve,
    hissue⟩ := hlogin
  have hdb : db₁ = w.db := by
    simp only [getOrganizationSsoConfig, Service.bind_returns, Service.read_returns,
      Service.orRaise_returns] at hconfig
    obtain ⟨_, _, ⟨_, rfl⟩, _, _, ⟨_, rfl⟩, _, _, ⟨_, rfl⟩, _, rfl⟩ := hconfig
    rfl
  subst hdb
  have hissued : db'.invitations = db₂.invitations := by
    rw [(issueSession_returns.mp hissue).2.2]
  have hanswer : (getOrganizationSsoConfig orgSlug w.db).1 = .ok config := congrArg Prod.fst hconfig
  unfold consults
  rw [hanswer]
  dsimp only
  rw [hclaims]
  dsimp only
  cases hmapping : Repository.getExternalIdentityMapping w.db config.organizationId claims.sub with
  | some mapping =>
    apply h.same
    · rcases resolveOrProvisionUser_returns hresolve with ⟨hkept, -⟩ | ⟨hnone, -⟩
      · rw [hissued, hkept]
      · rw [hmapping] at hnone
        cases hnone
    · intro event hevent
      cases hevent
  | none =>
    have hends : ∀ event ∈ [Event.consulted config.organizationId claims.email],
        ∀ row ∈ w.db.invitations, row.status = .pending → event.ends row →
          row.organizationId = config.organizationId ∧ row.email = claims.email := by
      intro event hevent row _ _ hends
      obtain rfl := List.mem_singleton.mp hevent
      rcases hends with hends | hends
      · cases hends
      · obtain ⟨horganization, hemail⟩ := Event.consulted.inj hends
        exact ⟨horganization.symm, hemail.symm⟩
    rcases resolveOrProvisionUser_closes hmapping hresolve with ⟨hnone, hkept⟩ | ⟨row, hrow, hcloses⟩
    · apply h.same (hissued.trans hkept)
      intro event hevent row hmem hpending hthis
      obtain ⟨horganization, hemail⟩ := hends event hevent row hmem hpending hthis
      have hno := List.find?_eq_none.mp hnone row hmem
      simp [horganization, hemail, hpending] at hno
    · rw [← hissued] at hcloses
      apply h.close hcloses
      intro event hevent other hmem hpending hid hthis
      obtain ⟨horganization, hemail⟩ := hends event hevent other hmem hpending hthis
      have hfound := List.find?_some hrow
      have hfoundmem := List.mem_of_find?_eq_some hrow
      rw [decide_eq_true_eq] at hfound
      have hsame := h.one other hmem row hfoundmem hpending hfound.2.2
        (horganization.trans hfound.1.symm) (hemail.trans hfound.2.1.symm)
      exact hid (congrArg Invitation.id hsame)

theorem Inv.step (h : Inv w) {call : Call} (hstep : step env w call = some w') : Inv w' := by
  unfold PendingInvitation.step at hstep
  split at hstep
  · cases hstep
  · rcases Service.transaction_cases (handle env call) w.db with
      ⟨events, db', hreturns, heq⟩ | ⟨error, -, heq⟩
    · simp only [getDbSession, heq, Option.some.injEq] at hstep
      rw [← hstep]
      unfold handle at hreturns
      split at hreturns
      · obtain ⟨created, db₁, hcreated, hpure⟩ := Service.bind_returns.mp hreturns
        obtain ⟨rfl, rfl⟩ := Service.pure_returns.mp hpure
        have hfirst := createInvitation_first hcreated
        obtain ⟨-, -, hid, horganization, hemail, hdb, hfresh⟩ := createInvitation_returns hcreated
        rw [hdb]
        apply h.create
        · rw [horganization, hemail]
          exact hfirst
        · rw [hid]
          exact hfresh
      · rename_i invitationId _
        obtain ⟨_, db₁, hrevoked, hpure⟩ := Service.bind_returns.mp hreturns
        obtain ⟨rfl, rfl⟩ := Service.pure_returns.mp hpure
        apply h.close (revokeInvitation_closes hrevoked)
        intro event hevent row _ _ hid hends
        obtain rfl := List.mem_singleton.mp hevent
        rcases hends with hends | hends
        · exact hid (Event.closed.inj hends).symm
        · cases hends
      · obtain ⟨tokens, db₁, haccepted, hpure⟩ := Service.bind_returns.mp hreturns
        obtain ⟨rfl, rfl⟩ := Service.pure_returns.mp hpure
        apply h.close (acceptInvitationWithPassword_closes haccepted)
        intro event hevent row _ _ hid hends
        obtain rfl := List.mem_singleton.mp hevent
        rcases hends with hends | hends
        · exact hid (Event.closed.inj hends).symm
        · cases hends
      · simp only [Service.bind_returns, Service.read_returns, Service.pure_returns] at hreturns
        obtain ⟨_, _, ⟨rfl, rfl⟩, tokens, db₁, hlogin, rfl, rfl⟩ := hreturns
        exact h.login hlogin
    · simp only [getDbSession, heq, Option.some.injEq] at hstep
      rw [← hstep]
      exact @Inv.same _ w.db call.now h rfl [] (fun event hevent => by cases hevent)

/-! ## What a refused invitation meets -/

def alreadyPending (organizationId : Uuid) (email : String) : Exn :=
  conflict "An invitation is already pending for this email." "invitation.already_pending"
    [("organization_id", toString organizationId), ("email", email)]

theorem createInvitation_refused {db : Db} {id organizationId : Uuid} {rawToken : String}
    {actor : Identity} {data : InvitationCreate}
    (h : (createInvitation env now id rawToken actor organizationId data).Raises db
      (alreadyPending organizationId data.email)) :
    ∃ row, getPendingInvitation db organizationId data.email = some row := by
  simp only [createInvitation, ensureSameOrganization, Users.requirePermission, resolveRoleId,
    insertInvitation, Service.bind_raises, Service.bind_returns, Service.read_returns,
    Service.read_raises, Service.orRaise_raises, Service.orRaise_returns, Service.raiseIf_raises,
    Service.raiseIf_returns, Service.pure_raises, Service.write_raises, alreadyPending,
    permissionDenied, validation, conflict] at h
  by_contra hnone
  simp only [not_exists] at hnone
  have hfree : getPendingInvitation db organizationId data.email = none := by
    cases hget : getPendingInvitation db organizationId data.email with
    | none => rfl
    | some row => exact absurd hget (hnone row)
  simp_all

/-- Invitations have their ids, and at most one for an email is pending. -/
structure Start (w : World) : Prop where
  ids : Table.KeyUnique Invitation.id w.db.invitations
  one : ∀ row ∈ w.db.invitations, ∀ other ∈ w.db.invitations, row.status = .pending →
    other.status = .pending → row.organizationId = other.organizationId → row.email = other.email →
      row = other
  log : w.log = []

theorem Start.inv (h : Start w) : Inv w := by
  refine ⟨h.ids, h.one, ?_⟩
  intro row _ _ event hevent
  rw [h.log] at hevent
  cases hevent

/-- What refuses a new invitation is a pending one that nobody revoked or accepted and
since which nobody with its email got in through the policy. -/
theorem refused_for_unclosed {w₀ : World} (hstart : Start w₀)
    (hrun : Run (step env) anyStep w₀ w) {id organizationId : Uuid} {rawToken : String}
    {actor : Identity} {data : InvitationCreate}
    (hrefused : (createInvitation env now id rawToken actor organizationId data).Raises w.db
      (alreadyPending organizationId data.email)) :
    ∃ row ∈ w.db.invitations, row.organizationId = organizationId ∧ row.email = data.email ∧
      row.status = .pending ∧ ∀ event ∈ since row.id w.log, ¬ event.ends row := by
  have hinv : Inv w := hrun.invariant (fun _ _ _ hinv _ hstep => hinv.step hstep) hstart.inv
  obtain ⟨row, hrow⟩ := createInvitation_refused hrefused
  have hmem := List.mem_of_find?_eq_some hrow
  have hfound := List.find?_some hrow
  rw [decide_eq_true_eq] at hfound
  exact ⟨row, hmem, hfound.1, hfound.2.1, hfound.2.2, hinv.unclosed row hmem hfound.2.2⟩

/-! ## An invitation past due -/

def oneOrganization : World where
  db := { users := [{ id := 9, email := "admin@a.example", displayName := "admin" }]
          roles := [{ id := 5, name := "engineer" }]
          organizations := [{ id := 3, slug := "a", name := "A" }] }
  clock := 0

def oneOrigin : Env := { plainEnv with corsAllowedOrigins := ["https://a.example"] }

def administrator : Identity where
  kind := .user
  subject := "9"
  organizationId := 3
  userId := some 9
  permissions := {managePermission}

def drawn : Draw where
  issuedAt := 0
  refreshTokenId := 10
  rawRefreshToken := "session"
  familyId := 11
  userId := 12
  mappingId := 13

def inviteUntilTen : Call where
  now := 0
  draw := drawn
  request := .createInvitation administrator 3 50 "raw"
    { email := "new@a.example", grantsRole := "engineer", expiresAt := some 10 }

theorem oneOrganization_start : Start oneOrganization where
  ids := Table.keyUnique_nil
  one := by
    intro row hrow
    cases hrow
  log := rfl

/-- Nobody logs in between: nothing has had occasion to notice the expiry. -/
theorem pastDue_reached : ∃ w, exec (step oneOrigin) oneOrganization [inviteUntilTen] = some w ∧
      w.clock = 0 ∧ w.db.invitations.map Invitation.expiresAt = [10] ∧
      Users.Repository.getRoleByName w.db "engineer" ≠ none ∧
      (createInvitation oneOrigin 30 51 "raw 2" administrator 3
        { email := "new@a.example", grantsRole := "engineer" } w.db).1 =
          .error (alreadyPending 3 "new@a.example") := by
  have hview : (exec (step oneOrigin) oneOrganization [inviteUntilTen]).any (fun w =>
      decide (w.clock = 0 ∧ w.db.invitations.map Invitation.expiresAt = [10] ∧
        Users.Repository.getRoleByName w.db "engineer" ≠ none ∧
        (createInvitation oneOrigin 30 51 "raw 2" administrator 3
          { email := "new@a.example", grantsRole := "engineer" } w.db).1 =
            .error (alreadyPending 3 "new@a.example"))) = true := by
    decide +kernel
  obtain ⟨w, hw, hp⟩ := (Option.any_eq_true _ _).mp hview
  exact ⟨w, hw, of_decide_eq_true hp⟩

/-- An expired invitation refuses a new one. -/
theorem refused_for_expired :
    ¬ ∀ (env : Env) (w₀ w : World) (now : Instant) (id organizationId : Uuid) (rawToken : String)
      (actor : Identity) (data : InvitationCreate), Start w₀ → Run (step env) anyStep w₀ w →
      w.clock ≤ now → actor.organizationId = organizationId →
      managePermission ∈ actor.permissions → actor.userId ≠ none →
      Users.Repository.getRoleByName w.db data.grantsRole ≠ none →
      (createInvitation env now id rawToken actor organizationId data).Raises w.db
        (alreadyPending organizationId data.email) →
      ∃ row ∈ w.db.invitations, row.organizationId = organizationId ∧ row.email = data.email ∧
        row.status = .pending ∧ now < row.expiresAt := by
  intro hall
  obtain ⟨w, hw, hclock, hexpires, hrole, hraises⟩ := pastDue_reached
  obtain ⟨row, hrow, -, -, -, hlive⟩ := hall oneOrigin oneOrganization w 30 51 3 "raw 2" administrator
    { email := "new@a.example", grantsRole := "engineer" } oneOrganization_start (run_of_exec hw)
    (by rw [hclock]; decide) rfl (by decide) (by decide) hrole hraises
  have hmem : row.expiresAt ∈ [(10 : Instant)] := by
    rw [← hexpires]
    exact List.mem_map_of_mem hrow
  rw [List.mem_singleton.mp hmem] at hlive
  exact absurd hlive (by decide)

theorem refused_for_unclosed_pastDue : ∃ w,
    Run (step oneOrigin) anyStep oneOrganization w ∧
    ∃ row ∈ w.db.invitations, row.organizationId = 3 ∧ row.email = "new@a.example" ∧
      row.status = .pending ∧ ∀ event ∈ since row.id w.log, ¬ event.ends row := by
  obtain ⟨w, hw, -, -, -, hraises⟩ := pastDue_reached
  have hrun := run_of_exec hw
  exact ⟨w, hrun, refused_for_unclosed oneOrganization_start hrun hraises⟩

end Ekip.Core.Auth.PendingInvitation
