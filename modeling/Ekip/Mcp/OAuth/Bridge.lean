import Ekip.Core.Auth.ReuseDetection
import Ekip.Mcp.OAuth.Provider

/-!
# The bridge and its requests

Any number of requests to `EkipOAuthProvider`, as coroutines that may be
suspended wherever the source awaits, beside the REST requests of
`ReuseDetection` on the same database. A step runs one request from one such
point to the next. The history records what requests answered, and the events
that the properties of the bridge speak of.
-/
namespace Ekip.Mcp.OAuth

open Ekip.Lib Ekip.Database Ekip.Shared Ekip.Core Ekip.Core.Auth Ekip.Core.Tenancy

abbrev Rid := Nat

/-- The form of the confirmation page. -/
structure ConfirmationForm where
  flowId : String
  ekipAccessToken : Option Jwt

/-- The token endpoint of the `mcp` package has authenticated `client`. -/
inductive Request
  | authorize (client : OAuthClientInformationFull) (params : AuthorizationParams)
  | confirmationGet (flowId : String)
  | confirmationPost (form : ConfirmationForm)
  | authorizationCode (client : OAuthClientInformationFull) (code : String)
  | refreshToken (client : OAuthClientInformationFull) (refreshToken : String)

inductive Response
  | confirmationUrl (url : String)
  /-- The form, with the error of the last attempt. -/
  | confirmationPage (flowId : String) (error : Option String)
  /-- Status 400. -/
  | linkExpired (text : String)
  /-- What `construct_redirect_uri` builds the location from. -/
  | redirect (redirectUri code : String) (state : Option String)
  | token (token : OAuthToken)
  | tokenError (error : TokenError)
  /-- The token endpoint found nothing to exchange. -/
  | notLoaded
  /-- An exception that no handler catches. -/
  | unhandled (error : Exn)

def linkExpiredText : String :=
  "This authorization link has expired or was already used. Return to Claude and try connecting again."

/-- Where a request stands. -/
inductive Phase
  | idle
  | started (request : Request)
  /-- The flow is claimed and the pasted token verified. -/
  | verified (form : ConfirmationForm) (flow : PendingFlow) (claims : TokenClaims)
  | resolved (form : ConfirmationForm) (flow : PendingFlow) (identity : Identity)
  /-- The session is committed. -/
  | minted (form : ConfirmationForm) (flow : PendingFlow) (identity : Identity)
      (tokens : SessionTokens)
  | rendering (flowId : String) (flow : PendingFlow)
  | loaded (client : OAuthClientInformationFull) (code : AuthorizationCode) (loadedAt : Instant)
  | loadedRefresh (client : OAuthClientInformationFull) (refreshToken : OAuthRefreshToken)
  | finished

/-! ## The history -/

structure Authorization where
  clientId : String
  flowId : String

structure Mint where
  form : ConfirmationForm
  familyId : Uuid
  tokens : SessionTokens

/-- A code that was stored for the flow `flowId`. -/
structure Grant where
  flowId : String
  code : AuthorizationCode
  tokens : SessionTokens
  issuedAt : Instant

/-- A token response to a code. -/
structure Redemption where
  clientId : String
  code : AuthorizationCode
  loadedAt : Instant
  token : OAuthToken

/-- A token response to a refresh token, with the family of the row it had. -/
structure Refresh where
  clientId : String
  refreshToken : String
  familyId : Option Uuid
  token : OAuthToken

structure History where
  authorizations : List Authorization := []
  mints : List Mint := []
  grants : List Grant := []
  redemptions : List Redemption := []
  refreshes : List Refresh := []
  responses : List (Rid × Response) := []

namespace History

variable (h : History)

def authorized (a : Authorization) : History := { h with authorizations := h.authorizations ++ [a] }
def minted (m : Mint) : History := { h with mints := h.mints ++ [m] }
def granted (g : Grant) : History := { h with grants := h.grants ++ [g] }
def redeemed (r : Redemption) : History := { h with redemptions := h.redemptions ++ [r] }
def refreshed (r : Refresh) : History := { h with refreshes := h.refreshes ++ [r] }
def responded (t : Rid) (r : Response) : History := { h with responses := h.responses ++ [(t, r)] }

end History

structure St where
  provider : EkipOAuthProvider := {}
  db : Db
  phase : Rid → Phase := fun _ => .idle
  monotonic : Instant := 0
  time : Instant := 0
  history : History := {}

/-- What a step is given from outside: the clocks and what is drawn. -/
structure Outside where
  monotonic : Instant
  time : Instant
  flowId : String := ""
  code : String := ""
  draw : Draw

namespace St

variable (s : St) (t : Rid)

def goto (phase : Phase) : St := { s with phase := Function.update s.phase t phase }

def respond (response : Response) : St :=
  { s with
    phase := Function.update s.phase t .finished
    history := s.history.responded t response }

/-- `except EKIPError`: the flow goes back, and its page shows the error. -/
def confirmationFailed (form : ConfirmationForm) (flow : PendingFlow) : Exn → St
  | .ekip exc =>
    { s with provider := (s.provider.restoreFlow form.flowId flow exc).2 }.goto t
      (.rendering form.flowId (s.provider.restoreFlow form.flowId flow exc).1)
  | error => s.respond t (.unhandled error)

/-- `except EKIPError` of the refresh grant. -/
def exchangeFailed : Exn → St
  | .ekip exc =>
    s.respond t (.tokenError { error := "invalid_grant", errorDescription := exc.message })
  | error => s.respond t (.unhandled error)

end St

/-- `uuid4` draws no family that is in the table. -/
def FamilyUnused (db : Db) (draw : Draw) : Prop :=
  ∀ row ∈ db.refreshTokens, row.familyId ≠ draw.familyId

instance (db : Db) (draw : Draw) : Decidable (FamilyUnused db draw) :=
  inferInstanceAs (Decidable (∀ _ ∈ _, _))

/-- The request `t` up to the next point where it awaits. -/
def advance (env : Env) (s : St) (t : Rid) (outside : Outside) : Option St :=
  match s.phase t with
  | .idle => none
  | .finished => none
  | .started (.authorize client params) =>
    if outside.flowId ∈ s.history.authorizations.map Authorization.flowId then none
    else
      let authorized := s.provider.authorize client params outside.flowId s.monotonic
      some ({ s with
        provider := authorized.2
        history := s.history.authorized ⟨client.clientId, outside.flowId⟩
        }.respond t (.confirmationUrl authorized.1))
  | .started (.confirmationGet flowId) =>
    let page := s.provider.handleConfirmationGet flowId s.monotonic
    let swept := { s with provider := page.2 }
    match page.1 with
    | none => some (swept.respond t (.linkExpired linkExpiredText))
    | some flow => some (swept.goto t (.rendering flowId flow))
  | .started (.confirmationPost form) =>
    let claim := s.provider.claimFlow form.flowId s.monotonic
    let claimed := { s with provider := claim.2 }
    match claim.1 with
    | none => some (claimed.respond t (.linkExpired linkExpiredText))
    | some flow =>
      match (verifyAccessToken s.time form.ekipAccessToken s.db).1 with
      | .error error => some (claimed.confirmationFailed t form flow error)
      | .ok claims => some (claimed.goto t (.verified form flow claims))
  | .verified form flow claims =>
    match (Users.resolveIdentity claims.userId claims.organizationId s.db).1 with
    | .error error => some (s.confirmationFailed t form flow error)
    | .ok identity => some (s.goto t (.resolved form flow identity))
  | .resolved form flow identity =>
    if FamilyUnused s.db outside.draw then
      -- what the session has written is seen when it commits
      let mint := getDbSession (mintSession env outside.draw identity) s.db
      match mint.1 with
      | .error error => some (s.confirmationFailed t form flow error)
      | .ok tokens =>
        some ({ s with
          db := mint.2
          history := s.history.minted ⟨form, outside.draw.familyId, tokens⟩
          }.goto t (.minted form flow identity tokens))
    else none
  | .minted form flow identity tokens =>
    if outside.code ∈ s.history.grants.map (fun grant => grant.code.code) then none
    else
      let code := flow.authorizationCode outside.code identity.userId s.time
      some ({ s with
        provider := s.provider.storeCode code tokens
        history := s.history.granted ⟨form.flowId, code, tokens, s.time⟩
        }.respond t (.redirect flow.params.redirectUri outside.code flow.params.state))
  | .rendering flowId flow => some (s.respond t (.confirmationPage flowId flow.error))
  | .started (.authorizationCode client code) =>
    let load := s.provider.loadAuthorizationCode client code s.time
    let swept := { s with provider := load.2 }
    match load.1 with
    | none => some (swept.respond t .notLoaded)
    | some entry => some (swept.goto t (.loaded client entry s.time))
  | .loaded client code loadedAt =>
    let exchange := s.provider.exchangeAuthorizationCode code
    let popped := { s with provider := exchange.2 }
    match exchange.1 with
    | .error error => some (popped.respond t (.tokenError error))
    | .ok token =>
      some ({ popped with
        history := s.history.redeemed ⟨client.clientId, code, loadedAt, token⟩
        }.respond t (.token token))
  | .started (.refreshToken client refreshToken) =>
    match (loadRefreshToken env s.time client refreshToken s.db).1 with
    | .error error => some (s.respond t (.unhandled error))
    | .ok none => some (s.respond t .notLoaded)
    | .ok (some loaded) =>
      if loaded.clientId ≠ client.clientId then some (s.respond t .notLoaded)
      else some (s.goto t (.loadedRefresh client loaded))
  | .loadedRefresh client loaded =>
    let exchange := getDbSession (exchangeRefreshToken env s.time outside.draw loaded) s.db
    let row := Repository.lookupRefreshToken s.db (hashToken env loaded.token)
    match exchange.1 with
    | .error error => some (s.exchangeFailed t error)
    | .ok token =>
      some ({ s with
        db := exchange.2
        history := s.history.refreshed
          ⟨client.clientId, loaded.token, row.map RefreshToken.familyId, token⟩
        }.respond t (.token token))

/-- `abort` is an exception from outside at an await: a cancellation, a failing
connection, or a check that the endpoint of the package makes on its own (the
redirect URI, the PKCE verifier, the scopes). `elsewhere` is whatever else of
the application writes to the other tables. -/
inductive Label
  | start (t : Rid) (request : Request)
  | advance (t : Rid) (outside : Outside)
  | abort (t : Rid)
  | rest (call : ReuseDetection.Call)
  | elsewhere (db : Db)

/-- The clocks do not run backwards. -/
def Label.Timely (s : St) : Label → Prop
  | .advance _ outside => s.monotonic ≤ outside.monotonic ∧ s.time ≤ outside.time
  | _ => True

instance (s : St) : (a : Label) → Decidable (a.Timely s)
  | .advance _ _ => inferInstanceAs (Decidable (_ ∧ _))
  | .start _ _ | .abort _ | .rest _ | .elsewhere _ => inferInstanceAs (Decidable True)

def St.tick (s : St) (outside : Outside) : St :=
  { s with monotonic := outside.monotonic, time := outside.time }

def step (env : Env) (s : St) (a : Label) : Option St :=
  if a.Timely s then
    match a with
    | .start t request =>
      match s.phase t with
      | .idle => some (s.goto t (.started request))
      | _ => none
    | .advance t outside => advance env (s.tick outside) t outside
    | .abort t =>
      match s.phase t with
      | .idle | .finished => none
      | _ => some (s.goto t .finished)
    | .rest call =>
      (ReuseDetection.step env { db := s.db, clock := s.time } call).map fun server =>
        { s with db := server.db, time := server.clock }
    | .elsewhere db => some { s with db := { db with refreshTokens := s.db.refreshTokens } }
  else none

/-! ## One connection, from `/authorize` to the first tokens -/

def claude : OAuthClientInformationFull := { clientId := "claude" }

def oneUser : St where
  db := { users := [{ id := 1, email := "u@a.example", displayName := "U" }] }

/-- What the requests of a connection draw. -/
def connection : Outside where
  monotonic := 0
  time := 0
  flowId := "flow"
  code := "code"
  draw := { issuedAt := 0, refreshTokenId := 10, rawRefreshToken := "first", familyId := 7 }

def pasted : ConfirmationForm where
  flowId := "flow"
  ekipAccessToken := some
    { sub := 1, organizationId := some 2, type := some .access, iat := 0, exp := 1000 }

/-- The request is started and runs for `n` steps. -/
def runs (t : Rid) (request : Request) (outside : Outside) (n : Nat) : List Label :=
  .start t request :: List.replicate n (.advance t outside)

def connect : List Label :=
  runs 1 (.authorize claude { codeChallenge := "challenge", redirectUri := "https://claude.ai" })
      connection 1 ++
    runs 2 (.confirmationPost pasted) connection 4 ++
    runs 3 (.authorizationCode claude "code") connection 2

/-! ## What a step can do -/

namespace Phase

/-- The flow that a POST has claimed and not finished with. -/
def flow? : Phase → Option (String × PendingFlow)
  | verified form flow _ => some (form.flowId, flow)
  | resolved form flow _ => some (form.flowId, flow)
  | minted form flow _ _ => some (form.flowId, flow)
  | _ => none

/-- The request holds nothing it has read or claimed but what it is to answer. -/
def plain : Phase → Bool
  | idle | started _ | rendering _ _ | finished => true
  | _ => false

end Phase

/-- One request, from one await to the next. -/
inductive Move (env : Env) (s : St) (t : Rid) : St → Prop
  | respond {provider : EkipOAuthProvider} (hshrinks : Shrinks provider s.provider)
      {response : Response} (hresponse : ∀ key, response ≠ .unhandled (.keyError key)) :
      Move env s t ({ s with provider }.respond t response)
  | goto {provider : EkipOAuthProvider} (hshrinks : Shrinks provider s.provider) {p : Phase}
      (hplain : p.plain = true) : Move env s t ({ s with provider }.goto t p)
  | authorize {client : OAuthClientInformationFull} {params : AuthorizationParams} {flowId : String}
      (hnew : flowId ∉ s.history.authorizations.map Authorization.flowId) :
      Move env s t ({ s with
        provider := (s.provider.authorize client params flowId s.monotonic).2
        history := s.history.authorized ⟨client.clientId, flowId⟩
        }.respond t (.confirmationUrl (s.provider.authorize client params flowId s.monotonic).1))
  | claim {provider : EkipOAuthProvider} (hshrinks : Shrinks provider s.provider)
      {form : ConfirmationForm} {flow : PendingFlow} {claims : TokenClaims}
      (hpending : s.provider.pendingFlows.lookup form.flowId = some flow)
      (hgone : provider.pendingFlows.lookup form.flowId = none)
      (hclaims : (verifyAccessToken s.time form.ekipAccessToken s.db).1 = .ok claims) :
      Move env s t ({ s with provider }.goto t (.verified form flow claims))
  | restore {provider : EkipOAuthProvider} (hshrinks : Shrinks provider s.provider)
      {form : ConfirmationForm} {flow : PendingFlow} {exc : EkipError}
      (hflow : s.provider.pendingFlows.lookup form.flowId = some flow ∨
        (s.phase t).flow? = some (form.flowId, flow)) :
      Move env s t ({ s with provider := (provider.restoreFlow form.flowId flow exc).2 }.goto t
        (.rendering form.flowId (provider.restoreFlow form.flowId flow exc).1))
  | resolve {form : ConfirmationForm} {flow : PendingFlow} {claims : TokenClaims}
      {identity : Identity} (hphase : s.phase t = .verified form flow claims)
      (hidentity : (Users.resolveIdentity claims.userId claims.organizationId s.db).1 =
        .ok identity) :
      Move env s t (s.goto t (.resolved form flow identity))
  | mint {form : ConfirmationForm} {flow : PendingFlow} {identity : Identity} {draw : Draw}
      {userId : Uuid} {tokens : SessionTokens} {db : Db}
      (hphase : s.phase t = .resolved form flow identity) (hunused : FamilyUnused s.db draw)
      (huser : identity.userId = some userId)
      (hissue : (issueSession env draw userId identity.organizationId draw.familyId).Returns
        s.db tokens db) :
      Move env s t ({ s with
        db
        history := s.history.minted ⟨form, draw.familyId, tokens⟩
        }.goto t (.minted form flow identity tokens))
  | grant {form : ConfirmationForm} {flow : PendingFlow} {identity : Identity}
      {tokens : SessionTokens} {code : AuthorizationCode} {response : Response}
      (hphase : s.phase t = .minted form flow identity tokens)
      (hnew : code.code ∉ s.history.grants.map (fun grant => grant.code.code))
      (hclient : code.clientId = flow.clientId) (hexpiry : code.expiresAt = s.time + codeTtl)
      (hresponse : ∀ key, response ≠ .unhandled (.keyError key)) :
      Move env s t ({ s with
        provider := s.provider.storeCode code tokens
        history := s.history.granted ⟨form.flowId, code, tokens, s.time⟩
        }.respond t response)
  | load {provider : EkipOAuthProvider} (hshrinks : Shrinks provider s.provider)
      {client : OAuthClientInformationFull} {key : String} {code : AuthorizationCode}
      (hstored : s.provider.authCodes.lookup key = some code)
      (hclient : code.clientId = client.clientId) (hlifetime : s.time ≤ code.expiresAt) :
      Move env s t ({ s with provider }.goto t (.loaded client code s.time))
  | redeem {provider : EkipOAuthProvider} (hshrinks : Shrinks provider s.provider)
      {client : OAuthClientInformationFull} {code : AuthorizationCode} {loadedAt : Instant}
      {tokens : SessionTokens} (hphase : s.phase t = .loaded client code loadedAt)
      (hsession : s.provider.issuedSessions.lookup code.code = some tokens)
      (hgone : provider.issuedSessions.lookup code.code = none) :
      Move env s t ({ s with
        provider
        history := s.history.redeemed ⟨client.clientId, code, loadedAt, oauthToken tokens⟩
        }.respond t (.token (oauthToken tokens)))
  | loadRefresh {client : OAuthClientInformationFull} {loaded : OAuthRefreshToken}
      (hphase : s.phase t = .started (.refreshToken client loaded.token))
      {row : RefreshToken}
      (hrow : Repository.lookupRefreshToken s.db (hashToken env loaded.token) = some row)
      (husable : row.Usable s.time) :
      Move env s t (s.goto t (.loadedRefresh client loaded))
  | refresh {client : OAuthClientInformationFull} {loaded : OAuthRefreshToken} {draw : Draw}
      {tokens : SessionTokens} {db : Db} (hphase : s.phase t = .loadedRefresh client loaded)
      (hrefresh : (Auth.refresh env s.time draw loaded.token).Returns s.db tokens db) :
      Move env s t ({ s with
        db
        history := s.history.refreshed
          ⟨client.clientId, loaded.token,
            (Repository.lookupRefreshToken s.db (hashToken env loaded.token)).map
              RefreshToken.familyId, oauthToken tokens⟩
        }.respond t (.token (oauthToken tokens)))

variable {env : Env} {s s' : St} {t : Rid} {outside : Outside}

theorem confirmationFailed_move {provider : EkipOAuthProvider} {form : ConfirmationForm}
    {flow : PendingFlow} {error : Exn} (hshrinks : Shrinks provider s.provider)
    (hflow : s.provider.pendingFlows.lookup form.flowId = some flow ∨
      (s.phase t).flow? = some (form.flowId, flow))
    (hkey : ∀ key, error ≠ .keyError key) :
    Move env s t (({ s with provider } : St).confirmationFailed t form flow error) := by
  have hunhandled : ∀ key, Response.unhandled error ≠ .unhandled (.keyError key) := by
    rintro key heq
    exact hkey key (Response.unhandled.inj heq)
  cases error with
  | ekip exc => exact .restore hshrinks hflow
  | integrityError constraint | runtimeError message | valueError message | typeError message =>
    exact .respond hshrinks hunhandled
  | keyError key => exact absurd rfl (hkey key)

theorem exchangeFailed_move {error : Exn} (hkey : ∀ key, error ≠ .keyError key) :
    Move env s t (s.exchangeFailed t error) := by
  have hunhandled : ∀ key, Response.unhandled error ≠ .unhandled (.keyError key) := by
    rintro key heq
    exact hkey key (Response.unhandled.inj heq)
  cases error with
  | ekip exc => exact .respond (.refl _) (fun key h => nomatch h)
  | integrityError constraint | runtimeError message | valueError message | typeError message =>
    exact .respond (.refl _) hunhandled
  | keyError key => exact absurd rfl (hkey key)

/-- One case for each point where a request may be suspended. -/
theorem advance_move (h : advance env s t outside = some s') : Move env s t s' := by
  unfold advance at h
  cases hphase : s.phase t with
  | idle | finished => simp [hphase] at h
  | started request =>
    cases request with
    | authorize client params =>
      simp only [hphase] at h
      split at h
      case isTrue => cases h
      case isFalse hnew =>
        obtain rfl := Option.some.inj h
        exact .authorize hnew
    | confirmationGet flowId =>
      simp only [hphase] at h
      split at h <;> obtain rfl := Option.some.inj h
      · exact .respond (popExpired_shrinks _) (fun key h => nomatch h)
      · exact .goto (popExpired_shrinks _) rfl
    | confirmationPost form =>
      simp only [hphase] at h
      split at h
      next =>
        obtain rfl := Option.some.inj h
        exact .respond (claimFlow_shrinks _ _) (fun key h => nomatch h)
      next flow hclaim =>
        obtain ⟨hpending, hgone⟩ := claimFlow_some hclaim
        split at h <;> obtain rfl := Option.some.inj h
        next error herror =>
          exact confirmationFailed_move (claimFlow_shrinks _ _) (.inl hpending)
            ((verifyAccessToken_noKeyError _ _).ne herror)
        next claims hclaims =>
          exact .claim (claimFlow_shrinks _ _) hpending hgone hclaims
    | authorizationCode client code =>
      simp only [hphase] at h
      split at h <;> obtain rfl := Option.some.inj h
      next => exact .respond (loadAuthorizationCode_shrinks _ _ _) (fun key h => nomatch h)
      next entry hload =>
        obtain ⟨hstored, hclient, hlifetime⟩ := loadAuthorizationCode_some hload
        exact .load (loadAuthorizationCode_shrinks _ _ _) hstored hclient hlifetime
    | refreshToken client refreshToken =>
      simp only [hphase] at h
      split at h
      next error herror =>
        obtain rfl := Option.some.inj h
        refine .respond (.refl _) fun key heq => ?_
        exact (loadRefreshToken_noKeyError _ _).ne herror key (Response.unhandled.inj heq)
      next =>
        obtain rfl := Option.some.inj h
        exact .respond (.refl _) (fun key h => nomatch h)
      next loaded hload =>
        split at h <;> obtain rfl := Option.some.inj h
        next => exact .respond (.refl _) (fun key h => nomatch h)
        next =>
          obtain ⟨rfl, _, row, hrow, husable⟩ := loadRefreshToken_some hload
          exact .loadRefresh hphase hrow husable
  | verified form flow claims =>
    simp only [hphase] at h
    split at h <;> obtain rfl := Option.some.inj h
    next error herror =>
      exact confirmationFailed_move (.refl _) (.inr (by rw [hphase]; rfl))
        ((resolveIdentity_noKeyError _ _).ne herror)
    next identity hidentity => exact .resolve hphase hidentity
  | resolved form flow identity =>
    simp only [hphase] at h
    split at h
    case isFalse => cases h
    case isTrue hunused =>
      split at h <;> obtain rfl := Option.some.inj h
      next error herror =>
        have hraises : (mintSession env outside.draw identity).Raises s.db error :=
          Service.transaction_raises.mp herror
        exact confirmationFailed_move (.refl _) (.inr (by rw [hphase]; rfl))
          ((mintSession_noKeyError _).ne hraises)
      next tokens htokens =>
        have hmint : (mintSession env outside.draw identity).Returns s.db tokens
            (getDbSession (mintSession env outside.draw identity) s.db).2 :=
          Service.transaction_returns.mp (Prod.ext htokens rfl)
        obtain ⟨userId, huser, hissue⟩ := mintSession_returns.mp hmint
        exact .mint hphase hunused huser hissue
  | minted form flow identity tokens =>
    simp only [hphase] at h
    split at h
    case isTrue => cases h
    case isFalse hnew =>
      obtain rfl := Option.some.inj h
      exact .grant hphase hnew rfl rfl (fun key h => nomatch h)
  | rendering flowId flow =>
    simp only [hphase] at h
    obtain rfl := Option.some.inj h
    exact .respond (.refl _) (fun key h => nomatch h)
  | loaded client code loadedAt =>
    simp only [hphase] at h
    split at h <;> obtain rfl := Option.some.inj h
    next => exact .respond (exchangeAuthorizationCode_shrinks _) (fun key h => nomatch h)
    next token htoken =>
      obtain ⟨⟨tokens, hsession, rfl⟩, hgone⟩ := exchangeAuthorizationCode_ok htoken
      exact .redeem (exchangeAuthorizationCode_shrinks _) hphase hsession hgone
  | loadedRefresh client loaded =>
    simp only [hphase] at h
    split at h <;> obtain rfl := Option.some.inj h
    next error herror =>
      have hraises : (exchangeRefreshToken env s.time outside.draw loaded).Raises s.db error :=
        Service.transaction_raises.mp herror
      exact exchangeFailed_move ((exchangeRefreshToken_noKeyError _).ne hraises)
    next token htoken =>
      have hexchange : (exchangeRefreshToken env s.time outside.draw loaded).Returns s.db token
          (getDbSession (exchangeRefreshToken env s.time outside.draw loaded) s.db).2 :=
        Service.transaction_returns.mp (Prod.ext htoken rfl)
      obtain ⟨tokens, hrefresh, rfl⟩ := exchangeRefreshToken_returns.mp hexchange
      exact .refresh hphase hrefresh

/-- A step of the bridge, or of what runs beside it on the database. -/
theorem step_cases {a : Label} (h : step env s a = some s') :
    (∃ t outside, a = .advance t outside ∧ s.monotonic ≤ outside.monotonic ∧
        s.time ≤ outside.time ∧ Move env (s.tick outside) t s') ∨
      (∃ t p, p.plain = true ∧ s' = s.goto t p) ∨
      (∃ call db, s' = { s with db, time := call.now } ∧ s.time ≤ call.now ∧
        (∀ row ∈ s.db.refreshTokens, row.familyId ≠ call.draw.familyId) ∧
        ReuseDetection.Effect env call s.db.refreshTokens db.refreshTokens) ∨
      ∃ db, s' = { s with db } ∧ db.refreshTokens = s.db.refreshTokens := by
  unfold step at h
  split at h
  case isFalse => cases h
  case isTrue htimely =>
    cases a with
    | start t request =>
      dsimp only at h
      split at h
      · obtain rfl := Option.some.inj h
        exact .inr (.inl ⟨t, _, rfl, rfl⟩)
      · cases h
    | advance t outside => exact .inl ⟨t, outside, rfl, htimely.1, htimely.2, advance_move h⟩
    | abort t =>
      dsimp only at h
      split at h
      · cases h
      · cases h
      · obtain rfl := Option.some.inj h
        exact .inr (.inl ⟨t, _, rfl, rfl⟩)
    | rest call =>
      obtain ⟨server, hserver, rfl⟩ := Option.map_eq_some_iff.mp h
      obtain ⟨⟨hle, hunused⟩, hclock, heffect⟩ := ReuseDetection.step_effect hserver
      exact .inr (.inr (.inl ⟨call, server.db, by rw [hclock], hle, hunused, heffect⟩))
    | elsewhere db =>
      obtain rfl := Option.some.inj h
      exact .inr (.inr (.inr ⟨_, rfl, rfl⟩))

end Ekip.Mcp.OAuth
