import Ekip.Core.Auth.Service

/-!
# `EkipOAuthProvider`: `mcp/oauth/provider.py`

The authorization-code bridge in front of the sessions of `Core.Auth`. Pending
flows, issued codes and the sessions behind them are dictionaries in memory;
each definition is what a method does between two points where it awaits, on the
dictionaries or on the database. `monotonic` and `time` are the two clocks.
-/
namespace Ekip.Mcp.OAuth

open Ekip.Lib Ekip.Database Ekip.Shared Ekip.Core Ekip.Core.Auth Ekip.Core.Tenancy

def flowTtl : Instant := 600 * second

def codeTtl : Instant := 300 * second

/-! ## Records of the `mcp` package, with the fields that are read here -/

structure OAuthClientInformationFull where
  clientId : String

structure AuthorizationParams where
  state : Option String := none
  scopes : Option (List String) := none
  codeChallenge : String
  redirectUri : String
  redirectUriProvidedExplicitly : Bool := true
  resource : Option String := none

structure AuthorizationCode where
  code : String
  scopes : List String
  expiresAt : Instant
  clientId : String
  codeChallenge : String
  redirectUri : String
  redirectUriProvidedExplicitly : Bool
  resource : Option String
  subject : String

/-- The package's `RefreshToken`; `expiresAt` is in seconds. -/
structure OAuthRefreshToken where
  token : String
  clientId : String
  scopes : List String
  expiresAt : Nat
  subject : String

structure OAuthToken where
  accessToken : Jwt
  tokenType : String := "Bearer"
  expiresIn : Nat
  refreshToken : String

structure TokenError where
  error : String
  errorDescription : String

def oauthToken (tokens : SessionTokens) : OAuthToken :=
  { accessToken := tokens.accessToken, expiresIn := tokens.expiresIn
    refreshToken := tokens.refreshToken }

/-! ## The provider -/

structure PendingFlow where
  clientId : String
  params : AuthorizationParams
  createdAt : Instant
  error : Option String := none

structure EkipOAuthProvider where
  pendingFlows : Dict String PendingFlow := ∅
  authCodes : Dict String AuthorizationCode := ∅
  /-- The session minted for a code, until the code is exchanged. -/
  issuedSessions : Dict String SessionTokens := ∅

namespace EkipOAuthProvider

variable (self : EkipOAuthProvider)

/-- `flowId` is drawn by `uuid4`. -/
def authorize (client : OAuthClientInformationFull) (params : AuthorizationParams)
    (flowId : String) (monotonic : Instant) : String × EkipOAuthProvider :=
  ("/ekip/oauth/authorize?flow_id=" ++ flowId,
    { self with
      pendingFlows := self.pendingFlows.insert flowId
        { clientId := client.clientId, params, createdAt := monotonic } })

/-- `pop(flow_id, None)` for every flow on the list of the expired ones. -/
def popExpired (monotonic : Instant) : EkipOAuthProvider :=
  let expired := (self.pendingFlows.entries.filter fun item =>
    flowTtl < monotonic - item.2.createdAt).map Sigma.fst
  { self with pendingFlows := expired.foldl (fun flows flowId => flows.erase flowId) self.pendingFlows }

/-- The confirmation page of a GET: the flow is looked at and stays. -/
def handleConfirmationGet (flowId : String) (monotonic : Instant) :
    Option PendingFlow × EkipOAuthProvider :=
  ((self.popExpired monotonic).pendingFlows.lookup flowId, self.popExpired monotonic)

/-- `pop(flow_id, None)`: the POST takes the flow out of the dictionary. -/
def claimFlow (flowId : String) (monotonic : Instant) : Option PendingFlow × EkipOAuthProvider :=
  let swept := self.popExpired monotonic
  (swept.pendingFlows.lookup flowId,
    { swept with pendingFlows := swept.pendingFlows.erase flowId })

/-- A POST whose token could not be verified puts the flow back. -/
def restoreFlow (flowId : String) (flow : PendingFlow) (exc : EkipError) :
    PendingFlow × EkipOAuthProvider :=
  let flow := { flow with error := some ("That token could not be verified: " ++ exc.message) }
  (flow, { self with pendingFlows := self.pendingFlows.insert flowId flow })

/-- `code` is drawn by `uuid4`, twice. -/
def storeCode (code : AuthorizationCode) (tokens : SessionTokens) : EkipOAuthProvider :=
  { self with
    authCodes := self.authCodes.insert code.code code
    issuedSessions := self.issuedSessions.insert code.code tokens }

def loadAuthorizationCode (client : OAuthClientInformationFull) (authorizationCode : String)
    (time : Instant) : Option AuthorizationCode × EkipOAuthProvider :=
  match self.authCodes.lookup authorizationCode with
  | none => (none, self)
  | some entry =>
    if entry.clientId ≠ client.clientId then (none, self)
    else if entry.expiresAt < time then
      (none, { self with
        authCodes := self.authCodes.erase authorizationCode
        issuedSessions := self.issuedSessions.erase authorizationCode })
    else (some entry, self)

def exchangeAuthorizationCode (authorizationCode : AuthorizationCode) :
    Except TokenError OAuthToken × EkipOAuthProvider :=
  let popped := { self with
    issuedSessions := self.issuedSessions.erase authorizationCode.code
    authCodes := self.authCodes.erase authorizationCode.code }
  match self.issuedSessions.lookup authorizationCode.code with
  | none =>
    (.error { error := "invalid_grant"
              errorDescription := "Authorization code already used or expired." }, popped)
  | some tokens => (.ok (oauthToken tokens), popped)

end EkipOAuthProvider

/-- The code that a confirmed flow ends with. -/
def PendingFlow.authorizationCode (flow : PendingFlow) (code : String) (subject : Option Uuid)
    (time : Instant) : AuthorizationCode :=
  { code
    scopes := flow.params.scopes.getD []
    expiresAt := time + codeTtl
    clientId := flow.clientId
    codeChallenge := flow.params.codeChallenge
    redirectUri := flow.params.redirectUri
    redirectUriProvidedExplicitly := flow.params.redirectUriProvidedExplicitly
    resource := flow.params.resource
    subject := match subject with
      | some userId => toString userId
      | none => "None" }

/-! ## What is done on the database -/

/-- The session that a confirmation mints. `refresh_tokens.user_id` is not null. -/
def mintSession (env : Env) (draw : Draw) (identity : Identity) : ServiceM SessionTokens := do
  let userId ← Service.orRaise identity.userId (.integrityError "refresh_tokens.user_id")
  issueSession env draw userId identity.organizationId draw.familyId

/-- `client` is the client that presents the token: nothing stored says to which
one it was issued. -/
def loadRefreshToken (env : Env) (time : Instant) (client : OAuthClientInformationFull)
    (refreshToken : String) : ServiceM (Option OAuthRefreshToken) := do
  let row ← peekRefreshToken env time refreshToken
  pure (row.map fun row =>
    { token := refreshToken, clientId := client.clientId, scopes := []
      expiresAt := row.expiresAt / second, subject := toString row.userId })

def exchangeRefreshToken (env : Env) (time : Instant) (draw : Draw)
    (refreshToken : OAuthRefreshToken) : ServiceM OAuthToken := do
  let tokens ← refresh env time draw refreshToken.token
  pure (oauthToken tokens)

/-! ## What they do to the dictionaries -/

section Dictionaries

variable {v : Type} {d : Dict String v} {k k' : String} {x y : v}

theorem lookup_of_erase (h : (d.erase k').lookup k = some x) : k ≠ k' ∧ d.lookup k = some x := by
  have hne : k ≠ k' := by
    rintro rfl
    rw [AList.lookup_erase] at h
    cases h
  exact ⟨hne, by rwa [AList.lookup_erase_ne hne] at h⟩

theorem lookup_of_insert (h : (d.insert k' y).lookup k = some x) :
    (k = k' ∧ x = y) ∨ (k ≠ k' ∧ d.lookup k = some x) := by
  by_cases hk : k = k'
  · subst hk
    rw [AList.lookup_insert] at h
    exact .inl ⟨rfl, (Option.some.inj h).symm⟩
  · exact .inr ⟨hk, by rwa [AList.lookup_insert_ne hk] at h⟩

theorem lookup_of_foldl_erase {ks : List String}
    (h : (ks.foldl (fun d k => d.erase k) d).lookup k = some x) : d.lookup k = some x := by
  induction ks generalizing d with
  | nil => exact h
  | cons k' ks ih => exact (lookup_of_erase (ih h)).2

end Dictionaries

/-- Every entry of `p` is an entry of `q`. -/
structure Shrinks (p q : EkipOAuthProvider) : Prop where
  flows : ∀ k flow, p.pendingFlows.lookup k = some flow → q.pendingFlows.lookup k = some flow
  codes : ∀ k code, p.authCodes.lookup k = some code → q.authCodes.lookup k = some code
  sessions : ∀ k tokens, p.issuedSessions.lookup k = some tokens →
    q.issuedSessions.lookup k = some tokens

variable {p q : EkipOAuthProvider}

theorem Shrinks.refl (p : EkipOAuthProvider) : Shrinks p p :=
  ⟨fun _ _ h => h, fun _ _ h => h, fun _ _ h => h⟩

theorem popExpired_shrinks (monotonic : Instant) : Shrinks (p.popExpired monotonic) p :=
  ⟨fun _ _ h => lookup_of_foldl_erase h, fun _ _ h => h, fun _ _ h => h⟩

/-- A claimed flow was pending, and is not pending any more. -/
theorem claimFlow_shrinks (flowId : String) (monotonic : Instant) :
    Shrinks (p.claimFlow flowId monotonic).2 p :=
  ⟨fun _ _ h => (popExpired_shrinks monotonic).flows _ _ (lookup_of_erase h).2, fun _ _ h => h,
    fun _ _ h => h⟩

theorem claimFlow_some {flowId : String} {monotonic : Instant} {flow : PendingFlow}
    (h : (p.claimFlow flowId monotonic).1 = some flow) :
    p.pendingFlows.lookup flowId = some flow ∧
      (p.claimFlow flowId monotonic).2.pendingFlows.lookup flowId = none :=
  ⟨(popExpired_shrinks monotonic).flows _ _ h, AList.lookup_erase ..⟩

theorem loadAuthorizationCode_shrinks (client : OAuthClientInformationFull) (code : String)
    (time : Instant) : Shrinks (p.loadAuthorizationCode client code time).2 p := by
  unfold EkipOAuthProvider.loadAuthorizationCode
  cases p.authCodes.lookup code with
  | none => exact .refl p
  | some entry =>
    dsimp only
    split
    · exact .refl p
    · split
      · exact ⟨fun _ _ h => h, fun _ _ h => (lookup_of_erase h).2, fun _ _ h => (lookup_of_erase h).2⟩
      · exact .refl p

/-- A code is loaded for its client and within its lifetime. -/
theorem loadAuthorizationCode_some {client : OAuthClientInformationFull} {code : String}
    {time : Instant} {entry : AuthorizationCode}
    (h : (p.loadAuthorizationCode client code time).1 = some entry) :
    p.authCodes.lookup code = some entry ∧ entry.clientId = client.clientId ∧
      time ≤ entry.expiresAt := by
  unfold EkipOAuthProvider.loadAuthorizationCode at h
  cases hentry : p.authCodes.lookup code with
  | none => simp [hentry] at h
  | some found =>
    rw [hentry] at h
    dsimp only at h
    split at h
    · cases h
    next hclient =>
      split at h
      · cases h
      next htime =>
        obtain rfl := Option.some.inj h
        exact ⟨rfl, not_not.mp hclient, not_lt.mp htime⟩

theorem exchangeAuthorizationCode_shrinks (code : AuthorizationCode) :
    Shrinks (p.exchangeAuthorizationCode code).2 p := by
  unfold EkipOAuthProvider.exchangeAuthorizationCode
  dsimp only
  split <;> exact ⟨fun _ _ h => h, fun _ _ h => (lookup_of_erase h).2, fun _ _ h => (lookup_of_erase h).2⟩

/-- An exchange answers with the session stored for the code and takes it out. -/
theorem exchangeAuthorizationCode_ok {code : AuthorizationCode} {token : OAuthToken}
    (h : (p.exchangeAuthorizationCode code).1 = .ok token) :
    (∃ tokens, p.issuedSessions.lookup code.code = some tokens ∧ token = oauthToken tokens) ∧
      (p.exchangeAuthorizationCode code).2.issuedSessions.lookup code.code = none := by
  unfold EkipOAuthProvider.exchangeAuthorizationCode at h ⊢
  dsimp only at h ⊢
  split at h
  · cases h
  next tokens htokens =>
    obtain rfl := Except.ok.inj h
    rw [htokens]
    exact ⟨⟨tokens, rfl, rfl⟩, AList.lookup_erase ..⟩

/-! ## What they return and raise -/

variable {env : Env} {db db' : Db} {draw : Draw} {time : Instant}

theorem mintSession_returns {identity : Identity} {tokens : SessionTokens} :
    (mintSession env draw identity).Returns db tokens db' ↔
      ∃ userId, identity.userId = some userId ∧
        (issueSession env draw userId identity.organizationId draw.familyId).Returns
          db tokens db' := by
  simp only [mintSession, Service.bind_returns, Service.orRaise_returns]
  constructor
  · rintro ⟨userId, _, ⟨huser, rfl⟩, hissue⟩
    exact ⟨userId, huser, hissue⟩
  · rintro ⟨userId, huser, hissue⟩
    exact ⟨userId, _, ⟨huser, rfl⟩, hissue⟩

/-- What is loaded is usable, and names whoever presented it. -/
theorem loadRefreshToken_some {client : OAuthClientInformationFull} {rawToken : String}
    {loaded : OAuthRefreshToken}
    (h : (loadRefreshToken env time client rawToken db).1 = .ok (some loaded)) :
    loaded.token = rawToken ∧ loaded.clientId = client.clientId ∧
      ∃ row, Repository.lookupRefreshToken db (hashToken env rawToken) = some row ∧
        row.Usable time := by
  have hreturns : (loadRefreshToken env time client rawToken).Returns db (some loaded)
      (loadRefreshToken env time client rawToken db).2 := Prod.ext h rfl
  simp only [loadRefreshToken, peekRefreshToken, Service.bind_returns, Service.read_returns,
    Service.pure_returns] at hreturns
  obtain ⟨_, _, ⟨rfl, _⟩, hmap, _⟩ := hreturns
  obtain ⟨row, hrow, rfl⟩ := Option.map_eq_some_iff.mp hmap
  obtain ⟨hlookup, hlive⟩ := Option.filter_eq_some_iff.mp hrow
  exact ⟨rfl, rfl, row, hlookup, of_decide_eq_true hlive⟩

theorem exchangeRefreshToken_returns {loaded : OAuthRefreshToken} {token : OAuthToken} :
    (exchangeRefreshToken env time draw loaded).Returns db token db' ↔
      ∃ tokens, (refresh env time draw loaded.token).Returns db tokens db' ∧
        oauthToken tokens = token := by
  simp only [exchangeRefreshToken, Service.bind_returns, Service.pure_returns]
  constructor
  · rintro ⟨tokens, _, hrefresh, htoken, rfl⟩
    exact ⟨tokens, hrefresh, htoken⟩
  · rintro ⟨tokens, hrefresh, htoken⟩
    exact ⟨tokens, _, hrefresh, htoken, rfl⟩

/-- No lookup of a missing key is left to fail. -/
def NoKeyError {α : Type} (x : ServiceM α) : Prop := ∀ db key, ¬ x.Raises db (.keyError key)

/-- An operation without a missing key does not fail with one. -/
theorem NoKeyError.ne {α : Type} {x : ServiceM α} (hx : NoKeyError x) {db : Db} {error : Exn}
    (h : (x db).1 = .error error) (key : String) : error ≠ .keyError key := by
  rintro rfl
  exact hx db key h

theorem issueSession_noKeyError (env : Env) (draw : Draw) (userId organizationId familyId : Uuid) :
    NoKeyError (issueSession env draw userId organizationId familyId) := by
  intro db key h
  simp [issueSession, Repository.insertRefreshToken] at h

theorem verifyAccessToken_noKeyError (now : Instant) (token : Option Jwt) :
    NoKeyError (verifyAccessToken now token) := by
  intro db key h
  simp [verifyAccessToken, permissionDenied] at h

theorem resolveIdentity_noKeyError (userId organizationId : Uuid) :
    NoKeyError (Users.resolveIdentity userId organizationId) := by
  intro db key h
  simp [Users.resolveIdentity, permissionDenied, notFound] at h

theorem mintSession_noKeyError (identity : Identity) : NoKeyError (mintSession env draw identity) := by
  intro db key h
  simp [mintSession, issueSession_noKeyError _ _ _ _ _ _ _] at h

theorem loadRefreshToken_noKeyError (client : OAuthClientInformationFull) (rawToken : String) :
    NoKeyError (loadRefreshToken env time client rawToken) := by
  intro db key h
  simp [loadRefreshToken, peekRefreshToken] at h

theorem exchangeRefreshToken_noKeyError (loaded : OAuthRefreshToken) :
    NoKeyError (exchangeRefreshToken env time draw loaded) := by
  intro db key h
  simp [exchangeRefreshToken, refresh, Repository.revokeFamily, Repository.revokeRefreshToken,
    Repository.revokeWhere, permissionDenied, issueSession_noKeyError _ _ _ _ _ _ _] at h

end Ekip.Mcp.OAuth
