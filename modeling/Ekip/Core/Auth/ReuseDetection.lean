import Ekip.Core.Auth.Service
import Ekip.Lib.Run

/-!
# Refresh-token reuse detection

Requests run one after another, each in the session scope of the API, which
commits on return and rolls back on a raise. Presenting a revoked token makes
`refresh` revoke the whole family and then raise, so nothing of the revocation
stays: the family is dead afterwards only if it was dead before.
-/
namespace Ekip.Core.Auth.ReuseDetection

open Ekip.Lib Ekip.Database Ekip.Core Ekip.Core.Tenancy

structure Server where
  db : Db
  clock : Instant
deriving DecidableEq

inductive Request
  | login (data : LoginRequest)
  | selectOrganization (selectionToken : Option Jwt) (organizationId : Uuid)
  | ssoLogin (orgSlug redirectUri : String) (exchange : SSOConfiguration → Except Exn VerifiedIdPClaims)
  | refresh (rawToken : String)
  | logout (rawToken : String)

structure Call where
  now : Instant
  draw : Draw
  request : Request

def handle (env : Env) (call : Call) : ServiceM (Option LoginResponse) :=
  match call.request with
  | .login data => do
    let response ← loginWithPassword env call.draw data
    pure (some response)
  | .selectOrganization selectionToken organizationId => do
    let tokens ← selectOrganization env call.now call.draw selectionToken organizationId
    pure (some (.sessionTokens tokens))
  | .ssoLogin orgSlug redirectUri exchange => do
    let tokens ← completeSsoLogin env call.now call.draw orgSlug redirectUri exchange
    pure (some (.sessionTokens tokens))
  | .refresh rawToken => do
    let tokens ← refresh env call.now call.draw rawToken
    pure (some (.sessionTokens tokens))
  | .logout rawToken => do
    logout env call.now rawToken
    pure none

/-- The clock does not run backwards, and `uuid4` never repeats a family. -/
def Admissible (s : Server) (call : Call) : Prop :=
  s.clock ≤ call.now ∧ ∀ row ∈ s.db.refreshTokens, row.familyId ≠ call.draw.familyId

instance (s : Server) (call : Call) : Decidable (Admissible s call) :=
  inferInstanceAs (Decidable (_ ∧ _))

def step (env : Env) (s : Server) (call : Call) : Option Server :=
  if Admissible s call then
    some { db := (getDbSession (handle env call) s.db).2, clock := call.now }
  else none

/-! ## What one request does to the tokens -/

/-- The tokens after a request, in terms of the tokens before it. -/
inductive Effect (env : Env) (call : Call) (rows : List RefreshToken) : List RefreshToken → Prop
  | same : Effect env call rows rows
  | login (userId organizationId : Uuid) (hunused : call.draw.TokenUnused env rows) :
      Effect env call rows
        (rows ++ [sessionRow env call.draw userId organizationId call.draw.familyId])
  | rotate (row : RefreshToken) (hrow : row ∈ rows) (husable : row.Usable call.now)
      (hunused : call.draw.TokenUnused env rows) :
      Effect env call rows (rotated env call.now call.draw row rows)
  | revoke (row : RefreshToken) :
      Effect env call rows
        (Table.updateWhere rows (fun other => other.id = row.id)
          (fun other => other.revoke call.now))

variable {env : Env} {s t : Server} {call : Call}

theorem issueSession_effect {db db' : Db} {userId organizationId : Uuid} {tokens : SessionTokens}
    (h : (issueSession env call.draw userId organizationId call.draw.familyId).Returns
      db tokens db') : Effect env call db.refreshTokens db'.refreshTokens := by
  obtain ⟨hunused, _, rfl⟩ := issueSession_returns.mp h
  exact .login userId organizationId hunused

theorem handle_effect {db db' : Db} {response : Option LoginResponse}
    (h : (handle env call).Returns db response db') :
    Effect env call db.refreshTokens db'.refreshTokens := by
  unfold handle at h
  cases hrequest : call.request with
  | login data =>
    simp only [hrequest, Service.bind_returns, Service.pure_returns] at h
    obtain ⟨_, _, hlogin, _, rfl⟩ := h
    obtain ⟨_, _, _, _, _, ⟨_, _, _, _, hissue⟩ | ⟨rfl, _⟩⟩ := loginWithPassword_returns hlogin
    · exact issueSession_effect hissue
    · exact .same
  | selectOrganization selectionToken organizationId =>
    simp only [hrequest, Service.bind_returns, Service.pure_returns] at h
    obtain ⟨_, _, hselect, _, rfl⟩ := h
    obtain ⟨_, _, _, hmember⟩ := selectOrganization_returns hselect
    exact issueSession_effect (issueForMember_returns hmember).2
  | ssoLogin orgSlug redirectUri exchange =>
    simp only [hrequest, Service.bind_returns, Service.pure_returns] at h
    obtain ⟨_, _, hsso, _, rfl⟩ := h
    obtain ⟨_, _, _, db₁, _, _, hresolve, hissue⟩ := completeSsoLogin_returns hsso
    have htokens : db₁.refreshTokens = db.refreshTokens := by
      obtain ⟨rfl, _⟩ | ⟨_, _, _, _, hdb⟩ := resolveOrProvisionUser_returns hresolve
      · rfl
      · rw [hdb]
    rw [← htokens]
    exact issueSession_effect hissue
  | refresh rawToken =>
    simp only [hrequest, Service.bind_returns, Service.pure_returns] at h
    obtain ⟨_, _, hrefresh, _, rfl⟩ := h
    obtain ⟨row, hrow, husable, hunused, _, rfl⟩ := refresh_returns.mp hrefresh
    rw [Repository.lookupRefreshToken_eq] at hrow
    exact .rotate row (Table.get?_some hrow).1 husable hunused
  | logout rawToken =>
    simp only [hrequest, Service.bind_returns, Service.pure_returns] at h
    obtain ⟨_, _, hlogout, _, rfl⟩ := h
    obtain rfl | ⟨row, _, rfl⟩ := logout_returns hlogout
    · exact .same
    · exact .revoke row

/-- One request at a time: what it wrote if it returned, nothing if it raised. -/
theorem step_effect (h : step env s call = some t) :
    Admissible s call ∧ t.clock = call.now ∧
      Effect env call s.db.refreshTokens t.db.refreshTokens := by
  unfold step at h
  split at h
  case isFalse => cases h
  case isTrue hadm =>
    obtain rfl := Option.some.inj h
    refine ⟨hadm, rfl, ?_⟩
    obtain ⟨response, db', hreturns, heq⟩ | ⟨e, _, heq⟩ :=
      Service.transaction_cases (handle env call) s.db
    · simp only [getDbSession, heq]
      exact handle_effect hreturns
    · simp only [getDbSession, heq]
      exact .same

/-- A raising request leaves the database as it was. -/
theorem step_of_raise {db' : Db} {e : Exn} (hadm : Admissible s call)
    (h : handle env call s.db = (.error e, db')) :
    step env s call = some { db := s.db, clock := call.now } := by
  simp [step, hadm, getDbSession, Service.transaction, h]

/-! ## Invariants -/

/-- Ids and hashes are unique and every hash was computed from a drawn token. -/
structure SessionTable (env : Env) (rows : List RefreshToken) : Prop where
  idUnique : Table.KeyUnique RefreshToken.id rows
  hashUnique : Table.KeyUnique RefreshToken.tokenHash rows
  hashed : ∀ row ∈ rows, ∃ rawToken, hashToken env rawToken = row.tokenHash

theorem sessionTable_nil : SessionTable env [] :=
  ⟨Table.keyUnique_nil, Table.keyUnique_nil, fun _ h => nomatch h⟩

theorem SessionTable.append {rows : List RefreshToken} (h : SessionTable env rows)
    {draw : Draw} (hunused : draw.TokenUnused env rows) (userId organizationId familyId : Uuid) :
    SessionTable env (rows ++ [sessionRow env draw userId organizationId familyId]) where
  idUnique := Table.keyUnique_append h.idUnique fun other hother => (hunused other hother).1
  hashUnique := Table.keyUnique_append h.hashUnique fun other hother => (hunused other hother).2
  hashed := by
    intro row hrow
    rcases List.mem_append.mp hrow with hold | hnew
    · exact h.hashed row hold
    · rw [List.mem_singleton.mp hnew]
      exact ⟨draw.rawRefreshToken, rfl⟩

theorem SessionTable.revoke {rows : List RefreshToken} (h : SessionTable env rows)
    (which : RefreshToken → Bool) (now : Instant) :
    SessionTable env (Table.updateWhere rows which fun row => row.revoke now) where
  idUnique := Table.keyUnique_updateWhere h.idUnique fun _ _ => rfl
  hashUnique := Table.keyUnique_updateWhere h.hashUnique fun _ _ => rfl
  hashed := by
    intro row hrow
    obtain ⟨old, hold, rfl⟩ := Table.mem_updateWhere.mp hrow
    obtain ⟨rawToken, hraw⟩ := h.hashed old hold
    refine ⟨rawToken, ?_⟩
    split <;> exact hraw

theorem Effect.sessionTable {rows rows' : List RefreshToken} (h : Effect env call rows rows')
    (ht : SessionTable env rows) : SessionTable env rows' := by
  cases h with
  | same => exact ht
  | login userId organizationId hunused => exact ht.append hunused _ _ _
  | rotate row _ _ hunused => exact (ht.revoke _ _).append (tokenUnused_updateWhere.mpr hunused) _ _ _
  | revoke row => exact ht.revoke _ _

/-- The family exists and none of its tokens is usable any more. -/
structure Dead (family : Uuid) (now : Instant) (rows : List RefreshToken) : Prop where
  issued : ∃ row ∈ rows, row.familyId = family
  unusable : ∀ row ∈ rows, row.familyId = family → ¬ row.Usable now

theorem not_usable_later {row : RefreshToken} {now later : Instant} (hle : now ≤ later)
    (h : ¬ row.Usable now) : ¬ row.Usable later :=
  fun hu => h ⟨hu.1, lt_of_le_of_lt hle hu.2⟩

theorem Dead.revoke {family : Uuid} {now : Instant} {rows : List RefreshToken}
    (h : Dead family now rows) (which : RefreshToken → Bool) (at_ : Instant) :
    Dead family now (Table.updateWhere rows which fun row => row.revoke at_) where
  issued := by
    obtain ⟨row, hrow, hfamily⟩ := h.issued
    refine ⟨_, Table.mem_updateWhere.mpr ⟨row, hrow, rfl⟩, ?_⟩
    split <;> exact hfamily
  unusable := by
    intro row hrow hfamily
    obtain ⟨old, hold, rfl⟩ := Table.mem_updateWhere.mp hrow
    by_cases hw : which old = true
    · rw [if_pos hw]
      exact fun hu => nomatch hu.1
    · rw [if_neg hw] at hfamily ⊢
      exact h.unusable old hold hfamily

theorem Dead.append {family : Uuid} {now : Instant} {rows : List RefreshToken}
    (h : Dead family now rows) {row : RefreshToken} (hne : row.familyId ≠ family) :
    Dead family now (rows ++ [row]) where
  issued := by
    obtain ⟨old, hold, hfamily⟩ := h.issued
    exact ⟨old, List.mem_append_left _ hold, hfamily⟩
  unusable := by
    intro other hother hfamily
    rcases List.mem_append.mp hother with hold | hnew
    · exact h.unusable other hold hfamily
    · rw [List.mem_singleton.mp hnew] at hfamily
      exact absurd hfamily hne

theorem Dead.later {family : Uuid} {now later : Instant} {rows : List RefreshToken}
    (h : Dead family now rows) (hle : now ≤ later) : Dead family later rows where
  issued := h.issued
  unusable := fun row hrow hfamily => not_usable_later hle (h.unusable row hrow hfamily)

/-- A dead family stays dead: only a usable token of it could have a successor,
and a login draws a family of its own. -/
theorem step_dead {family : Uuid} (hdead : Dead family s.clock s.db.refreshTokens)
    (h : step env s call = some t) : Dead family t.clock t.db.refreshTokens := by
  obtain ⟨⟨hclock, hfresh⟩, hnow, heffect⟩ := step_effect h
  have hlater : Dead family call.now s.db.refreshTokens := hdead.later hclock
  obtain ⟨known, hknown, hfamily⟩ := hdead.issued
  have hne : call.draw.familyId ≠ family := by
    have hknown_ne := hfresh known hknown
    rw [hfamily] at hknown_ne
    exact hknown_ne.symm
  rw [hnow]
  generalize t.db.refreshTokens = rows' at heffect
  cases heffect with
  | same => exact hlater
  | login userId organizationId _ => exact hlater.append hne
  | rotate row hrow husable _ =>
    refine (hlater.revoke _ _).append ?_
    intro heq
    exact hlater.unusable row hrow heq husable
  | revoke row => exact hlater.revoke _ _

theorem run_sessionTable (hrun : Run (step env) anyStep s t)
    (h : SessionTable env s.db.refreshTokens) : SessionTable env t.db.refreshTokens :=
  hrun.invariant (I := fun s => SessionTable env s.db.refreshTokens)
    (fun _ _ _ ht _ hstep => (step_effect hstep).2.2.sessionTable ht) h

theorem run_dead {family : Uuid} (hrun : Run (step env) anyStep s t)
    (h : Dead family s.clock s.db.refreshTokens) : Dead family t.clock t.db.refreshTokens :=
  hrun.invariant (I := fun s => Dead family s.clock s.db.refreshTokens)
    (fun _ _ _ hd _ hstep => step_dead hd hstep) h

/-! ## After a revoked token was presented -/

/-- `refresh` returns tokens for `rawToken`. -/
def Accepted (env : Env) (db : Db) (call : Call) (rawToken : String) : Prop :=
  ∃ tokens db', (refresh env call.now call.draw rawToken).Returns db tokens db'

/-- In every continuation, no request gets a token of the family accepted. -/
def FamilyRefused (env : Env) (s : Server) (family : Uuid) : Prop :=
  ∀ t, Run (step env) anyStep s t → ∀ call rawToken row, Admissible t call →
    call.request = .refresh rawToken →
    Repository.lookupRefreshToken t.db (hashToken env rawToken) = some row →
    row.familyId = family → ¬ Accepted env t.db call rawToken

/-- The request presents a token of `row` that was rotated away or logged out. -/
structure Reuses (env : Env) (s : Server) (call : Call) (row : RefreshToken) : Prop where
  presented : ∃ rawToken, call.request = .refresh rawToken ∧
    Repository.lookupRefreshToken s.db (hashToken env rawToken) = some row
  revoked : row.revokedAt ≠ none

/-- Nothing of what the denied request wrote is left. -/
theorem reuse_rolls_back {row : RefreshToken} (hreuse : Reuses env s call row)
    (h : step env s call = some t) : t = { db := s.db, clock := call.now } := by
  obtain ⟨⟨rawToken, hrequest, hrow⟩, hrevoked⟩ := hreuse
  have hadm := (step_effect h).1
  obtain ⟨response, db', hreturns, _⟩ | ⟨e, herror, _⟩ :=
    Service.transaction_cases (handle env call) s.db
  · simp only [handle, hrequest, Service.bind_returns] at hreturns
    obtain ⟨_, _, hrefresh, _⟩ := hreturns
    exact absurd hrefresh (refresh_of_revoked hrow hrevoked)
  · have hraise : handle env call s.db = (.error e, (handle env call s.db).2) :=
      Prod.ext herror rfl
    rw [step_of_raise hadm hraise] at h
    exact (Option.some.inj h).symm

theorem familyRefused_of_dead {family : Uuid} (h : Dead family s.clock s.db.refreshTokens) :
    FamilyRefused env s family := by
  rintro t hrun call rawToken row ⟨hclock, _⟩ _ hrow hfamily ⟨tokens, db', hreturns⟩
  obtain ⟨row', hrow', husable, _⟩ := refresh_returns.mp hreturns
  rw [hrow] at hrow'
  obtain rfl := Option.some.inj hrow'
  rw [Repository.lookupRefreshToken_eq] at hrow
  have hdead := run_dead hrun h
  exact not_usable_later hclock
    (hdead.unusable row (Table.get?_some hrow).1 hfamily) husable

/-- Presenting a revoked token ends its family exactly when no token of the
family was usable any more at that moment. -/
theorem reuse_ends_family_iff {s₀ : Server} (hstart : SessionTable env s₀.db.refreshTokens)
    (hrun : Run (step env) anyStep s₀ s) {row : RefreshToken} (hreuse : Reuses env s call row)
    (hstep : step env s call = some t)
    (hdraw : ∃ draw : Draw, draw.TokenUnused env s.db.refreshTokens ∧
      ∀ other ∈ s.db.refreshTokens, other.familyId ≠ draw.familyId) :
    FamilyRefused env t row.familyId ↔
      ∀ live ∈ s.db.refreshTokens, live.familyId = row.familyId → ¬ live.Usable call.now := by
  obtain rfl := reuse_rolls_back hreuse hstep
  obtain ⟨⟨rawToken, _, hrow⟩, _⟩ := hreuse
  rw [Repository.lookupRefreshToken_eq] at hrow
  constructor
  · intro hrefused live hlive hfamily husable
    have htable := run_sessionTable hrun hstart
    obtain ⟨rawLive, hhash⟩ := htable.hashed live hlive
    obtain ⟨draw, hunused, hfresh⟩ := hdraw
    have hget : Repository.lookupRefreshToken s.db (hashToken env rawLive) = some live := by
      rw [Repository.lookupRefreshToken_eq, hhash]
      exact Table.get?_of_mem htable.hashUnique hlive
    let next : Call := { now := call.now, draw, request := .refresh rawLive }
    have haccepted : Accepted env s.db next rawLive :=
      ⟨_, _, refresh_returns.mpr ⟨live, hget, husable, hunused, rfl, rfl⟩⟩
    exact hrefused _ (.refl _) next rawLive live ⟨le_refl _, hfresh⟩ rfl hget hfamily haccepted
  · intro hunusable
    exact familyRefused_of_dead ⟨⟨row, (Table.get?_some hrow).1, rfl⟩, hunusable⟩

/-! ## A replayed token whose successor stays usable -/

/-- One account, in one organization. -/
def oneAccount : Server where
  db :=
    { users := [{ id := 1, email := "u@b.example", displayName := "u", passwordHash := some "pw" }]
      userRoles := [{ userId := 1, organizationId := 2, roleId := 3 }] }
  clock := 0

def loginCall : Call where
  now := 0
  draw := { issuedAt := 0, refreshTokenId := 10, rawRefreshToken := "first", familyId := 100 }
  request := .login { email := "u@b.example", password := "pw" }

def refreshCall (now : Instant) (id : Uuid) (rawToken successor : String) : Call where
  now
  draw := { issuedAt := now, refreshTokenId := id, rawRefreshToken := successor, familyId := 1000 + id }
  request := .refresh rawToken

def logoutCall (now : Instant) (rawToken : String) : Call where
  now
  draw := { issuedAt := now, refreshTokenId := 0, rawRefreshToken := "", familyId := 0 }
  request := .logout rawToken

/-- The token of that login, and its successor. -/
def firstToken : RefreshToken :=
  { id := 10, userId := 1, organizationId := 2, familyId := 100, tokenHash := "first"
    expiresAt := refreshTokenLifetime, revokedAt := some 1 }

def secondToken : RefreshToken :=
  { id := 11, userId := 1, organizationId := 2, familyId := 100, tokenHash := "second"
    expiresAt := 1 + refreshTokenLifetime }

/-- Logged in, then refreshed once. -/
def refreshedOnce : Server where
  db := { oneAccount.db with refreshTokens := [firstToken, secondToken] }
  clock := 1

theorem refreshedOnce_reached :
    exec (step plainEnv) oneAccount [loginCall, refreshCall 1 11 "first" "second"] =
      some refreshedOnce := by
  decide

/-- The replay of the first token is denied, and the second one is still accepted. -/
theorem reuse_detection_fails :
    ¬ ∀ (env : Env) (s₀ s t : Server) (call : Call) (row : RefreshToken),
      s₀.db.refreshTokens = [] → Run (step env) anyStep s₀ s → Reuses env s call row →
      step env s call = some t → FamilyRefused env t row.familyId := by
  intro hall
  let replay := refreshCall 2 12 "first" "replayed"
  let next := refreshCall 3 13 "second" "third"
  have hreuse : Reuses plainEnv refreshedOnce replay firstToken :=
    ⟨⟨"first", rfl, by decide⟩, by decide⟩
  have hrefused := hall plainEnv oneAccount refreshedOnce { db := refreshedOnce.db, clock := 2 }
    replay firstToken rfl (run_of_exec refreshedOnce_reached) hreuse (by decide)
  have haccepted : Accepted plainEnv refreshedOnce.db next "second" :=
    ⟨_, _, refresh_returns.mpr ⟨secondToken, by decide, by decide, by decide, rfl, rfl⟩⟩
  exact hrefused _ (.refl _) next "second" secondToken (by decide) rfl (by decide) rfl haccepted

/-- Logged in, refreshed once and logged out: the family has no usable token. -/
def loggedOut : Server where
  db := { oneAccount.db with refreshTokens := [firstToken, secondToken.revoke 2] }
  clock := 2

/-- There the replay does end the family. -/
theorem reuse_ends_family_loggedOut :
    FamilyRefused plainEnv { db := loggedOut.db, clock := 3 } 100 := by
  have hexec : exec (step plainEnv) oneAccount
      [loginCall, refreshCall 1 11 "first" "second", logoutCall 2 "second"] = some loggedOut := by
    decide
  have hreuse : Reuses plainEnv loggedOut (refreshCall 3 12 "second" "replayed")
      (secondToken.revoke 2) := ⟨⟨"second", rfl, by decide⟩, by decide⟩
  refine (reuse_ends_family_iff sessionTable_nil (run_of_exec hexec) hreuse (by decide)
    ⟨{ issuedAt := 0, refreshTokenId := 14, rawRefreshToken := "unused", familyId := 500 },
      by decide, by decide⟩).mpr ?_
  decide

end Ekip.Core.Auth.ReuseDetection
