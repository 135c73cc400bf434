import Ekip.Lib.Custody
import Ekip.Mcp.OAuth.Bridge

/-!
# The authorization-code bridge is one-shot

A flow is a ticket: it is in the dictionary or with the one POST that claimed it,
and is spent on a code. A code is a ticket too: the session behind it is in the
dictionary until the token response that spends it. Both are instances of
`Lib.Custody`; what is stored or held besides agrees with the history.
-/
namespace Ekip.Mcp.OAuth

open Ekip.Lib Ekip.Lib.Custody Ekip.Database Ekip.Shared Ekip.Core Ekip.Core.Auth
open Ekip.Core.Tenancy

/-! ## Flows and codes as tickets -/

/-- The flow is pending, or with the request that has claimed it. -/
def St.holdsFlow (s : St) (flowId : String) (flow : PendingFlow) : Option Rid → Prop
  | none => s.provider.pendingFlows.lookup flowId = some flow
  | some t => (s.phase t).flow? = some (flowId, flow)

def St.flows (s : St) : Ledger String (Option Rid) where
  holds flowId holder := ∃ flow, s.holdsFlow flowId flow holder
  issued := s.history.authorizations.map Authorization.flowId
  spent := s.history.grants.map Grant.flowId

def St.codes (s : St) : Ledger String Unit where
  holds code _ := ∃ tokens, s.provider.issuedSessions.lookup code = some tokens
  issued := s.history.grants.map fun grant => grant.code.code
  spent := s.history.redemptions.map fun redemption => redemption.code.code

variable {env : Env} {s s' : St} {t : Rid}

@[simp] theorem holdsFlow_none {flowId : String} {flow : PendingFlow} :
    s.holdsFlow flowId flow none ↔ s.provider.pendingFlows.lookup flowId = some flow := Iff.rfl

@[simp] theorem holdsFlow_some {flowId : String} {flow : PendingFlow} :
    s.holdsFlow flowId flow (some t) ↔ (s.phase t).flow? = some (flowId, flow) := Iff.rfl

theorem holdsFlow_cases {p : Phase} (hphase : s'.phase = Function.update s.phase t p)
    {flowId : String} {flow : PendingFlow} {t' : Rid} (h : s'.holdsFlow flowId flow (some t')) :
    (t' = t ∧ p.flow? = some (flowId, flow)) ∨ (t' ≠ t ∧ s.holdsFlow flowId flow (some t')) := by
  rw [holdsFlow_some, hphase] at h
  exact of_update (P := fun p : Phase => p.flow? = some (flowId, flow)) h

/-- Moving one request to a phase that claims nothing new, with no new entry. -/
theorem holdsFlow_keep {p : Phase} {flowId : String} {flow : PendingFlow} {holder : Option Rid}
    (h : s'.holdsFlow flowId flow holder) (hphase : s'.phase = Function.update s.phase t p)
    (hp : p.flow? = none ∨ p.flow? = (s.phase t).flow?)
    (hshrinks : Shrinks s'.provider s.provider) : s.holdsFlow flowId flow holder := by
  cases holder with
  | none => exact hshrinks.flows _ _ h
  | some t' =>
    rcases holdsFlow_cases hphase h with ⟨rfl, h⟩ | ⟨_, h⟩
    · rcases hp with hp | hp
      · rw [hp] at h
        cases h
      · rwa [holdsFlow_some, ← hp]
    · exact h

theorem flows_keep {p : Phase} (hphase : s'.phase = Function.update s.phase t p)
    (hp : p.flow? = none ∨ p.flow? = (s.phase t).flow?) (hshrinks : Shrinks s'.provider s.provider)
    (hauthorizations : s'.history.authorizations = s.history.authorizations)
    (hgrants : s'.history.grants = s.history.grants) : Step s.flows s'.flows := by
  refine .keep (by rw [St.flows, hauthorizations, St.flows]) (by rw [St.flows, hgrants, St.flows]) ?_
  rintro flowId holder ⟨flow, h⟩
  exact ⟨flow, holdsFlow_keep h hphase hp hshrinks⟩

theorem codes_keep (hshrinks : Shrinks s'.provider s.provider)
    (hgrants : s'.history.grants = s.history.grants)
    (hredemptions : s'.history.redemptions = s.history.redemptions) :
    Step s.codes s'.codes := by
  refine .keep (by rw [St.codes, hgrants, St.codes]) (by rw [St.codes, hredemptions, St.codes]) ?_
  rintro key _ ⟨tokens, h⟩
  exact ⟨tokens, hshrinks.sessions _ _ h⟩

theorem flow?_of_plain {p : Phase} (hp : p.plain = true) : p.flow? = none := by
  cases p <;> first | rfl | cases hp

/-! ## What is stored or held agrees with the history -/

/-- The token is a signed access token of the user for the organization. -/
def Confirms (token : Option Jwt) (userId organizationId : Uuid) : Prop :=
  ∃ jwt, token = some jwt ∧ jwt.type.getD .access = .access ∧ jwt.sub = userId ∧
    jwt.organizationId = some organizationId

/-- The session is one of the identity whose token the form carried. -/
def Mint.Confirmed (m : Mint) : Prop :=
  ∃ userId organizationId, Confirms m.form.ekipAccessToken userId organizationId ∧
    m.tokens.accessToken.sub = userId ∧
    m.tokens.accessToken.organizationId = some organizationId

def Phase.Justified (h : History) : Phase → Prop
  | .verified form _ claims =>
    Confirms form.ekipAccessToken claims.userId claims.organizationId
  | .resolved form _ identity =>
    ∃ userId, identity.userId = some userId ∧
      Confirms form.ekipAccessToken userId identity.organizationId
  | .minted form _ _ tokens => ∃ m ∈ h.mints, m.form = form ∧ m.tokens = tokens
  | .loaded client code loadedAt =>
    code.clientId = client.clientId ∧ loadedAt ≤ code.expiresAt ∧
      ∃ g ∈ h.grants, g.code = code ∧ g.issuedAt ≤ loadedAt
  | _ => True

theorem Phase.justified_of_plain {h : History} {p : Phase} (hp : p.plain = true) :
    p.Justified h := by
  cases p <;> trivial

/-- Nothing of `h` is missing in `h'`. -/
structure Extends (h h' : History) : Prop where
  authorizations : ∀ x ∈ h.authorizations, x ∈ h'.authorizations
  mints : ∀ x ∈ h.mints, x ∈ h'.mints
  grants : ∀ x ∈ h.grants, x ∈ h'.grants
  redemptions : ∀ x ∈ h.redemptions, x ∈ h'.redemptions
  refreshes : ∀ x ∈ h.refreshes, x ∈ h'.refreshes

theorem Phase.Justified.extend {h h' : History} (hext : Extends h h') {p : Phase}
    (hp : p.Justified h) : p.Justified h' := by
  cases p with
  | minted form flow identity tokens =>
    obtain ⟨m, hm, hrest⟩ := hp
    exact ⟨m, hext.mints m hm, hrest⟩
  | loaded client code loadedAt =>
    obtain ⟨hclient, hlifetime, g, hg, hrest⟩ := hp
    exact ⟨hclient, hlifetime, g, hext.grants g hg, hrest⟩
  | _ => exact hp

/-- The record of a code: a session minted for a flow that its client started. -/
def Grant.Recorded (h : History) (g : Grant) : Prop :=
  ⟨g.code.clientId, g.flowId⟩ ∈ h.authorizations ∧
    g.code.expiresAt = g.issuedAt + codeTtl ∧
    ∃ m ∈ h.mints, m.form.flowId = g.flowId ∧ m.tokens = g.tokens

/-- The record of a token response. -/
def Redemption.Recorded (h : History) (r : Redemption) : Prop :=
  r.code.clientId = r.clientId ∧ r.loadedAt ≤ r.code.expiresAt ∧
    ∃ g ∈ h.grants, g.code = r.code ∧ g.issuedAt ≤ r.loadedAt ∧ r.token = oauthToken g.tokens

structure Inv (s : St) : Prop where
  flows : Sound s.flows
  codes : Sound s.codes
  started : ∀ flowId flow holder, s.holdsFlow flowId flow holder →
    ⟨flow.clientId, flowId⟩ ∈ s.history.authorizations
  justified : ∀ t, (s.phase t).Justified s.history
  mints : ∀ m ∈ s.history.mints, m.Confirmed
  grants : ∀ g ∈ s.history.grants, g.Recorded s.history ∧ g.issuedAt ≤ s.time
  stored : ∀ key code, s.provider.authCodes.lookup key = some code →
    ∃ g ∈ s.history.grants, g.code = code
  sessions : ∀ key tokens, s.provider.issuedSessions.lookup key = some tokens →
    ∃ g ∈ s.history.grants, g.code.code = key ∧ g.tokens = tokens
  redemptions : ∀ r ∈ s.history.redemptions, r.Recorded s.history
  keys : ∀ x ∈ s.history.responses, ∀ key, x.2 ≠ .unhandled (.keyError key)

/-- Nothing is in memory yet; the database is any. -/
structure Start (s : St) : Prop where
  provider : s.provider = {}
  phase : ∀ t, s.phase t = .idle
  history : s.history = {}

theorem Start.inv (h : Start s) : Inv s := by
  have hflow : ∀ flowId flow holder, ¬ s.holdsFlow flowId flow holder := by
    intro flowId flow holder hholds
    cases holder with
    | none =>
      rw [holdsFlow_none, h.provider] at hholds
      cases hholds
    | some t =>
      rw [holdsFlow_some, h.phase t] at hholds
      cases hholds
  have hsession : ∀ key tokens, s.provider.issuedSessions.lookup key ≠ some tokens := by
    intro key tokens hlookup
    rw [h.provider] at hlookup
    cases hlookup
  refine ⟨sound_empty ?_ ?_ ?_, sound_empty ?_ ?_ ?_, ?_, ?_, ?_, ?_, ?_, ?_, ?_, ?_⟩
  · simp [St.flows, h.history]
  · simp [St.flows, h.history]
  · rintro flowId holder ⟨flow, hholds⟩
    exact hflow flowId flow holder hholds
  · simp [St.codes, h.history]
  · simp [St.codes, h.history]
  · rintro key _ ⟨tokens, hlookup⟩
    exact hsession key tokens hlookup
  · intro flowId flow holder hholds
    exact absurd hholds (hflow flowId flow holder)
  · intro t
    rw [h.phase t]
    trivial
  · simp [h.history]
  · simp [h.history]
  · intro key code hlookup
    rw [h.provider] at hlookup
    cases hlookup
  · intro key tokens hlookup
    exact absurd hlookup (hsession key tokens)
  · simp [h.history]
  · simp [h.history]

/-! ## What a move keeps -/

/-- A flow is issued by `authorize`, passed to the POST that claims it and back
to the dictionary by one that fails, and spent on the code. -/
theorem Move.flows (h : Move env s t s') (hs : Sound s.flows) : Step s.flows s'.flows := by
  cases h with
  | respond hshrinks _ => exact flows_keep rfl (.inl rfl) hshrinks rfl rfl
  | goto hshrinks hplain => exact flows_keep rfl (.inl (flow?_of_plain hplain)) hshrinks rfl rfl
  | @authorize client params flowId hnew =>
    refine .issue flowId none hnew (by simp [St.flows, St.respond, History.authorized,
      History.responded]) rfl ?_
    rintro flowId' holder ⟨flow, hholds⟩
    cases holder with
    | none =>
      rcases lookup_of_insert hholds with ⟨rfl, _⟩ | ⟨_, hholds⟩
      · exact .inr ⟨rfl, rfl⟩
      · exact .inl ⟨flow, hholds⟩
    | some t' =>
      rcases holdsFlow_cases rfl hholds with ⟨_, hholds⟩ | ⟨_, hholds⟩
      · cases hholds
      · exact .inl ⟨flow, hholds⟩
  | @claim provider hshrinks form flow claims hpending hgone hclaims =>
    have hheld : s.flows.holds form.flowId none := ⟨flow, hpending⟩
    refine .pass form.flowId none (some t) hheld rfl rfl ?_
    rintro flowId holder ⟨flow', hholds⟩
    cases holder with
    | none =>
      refine .inl ⟨?_, flow', hshrinks.flows _ _ hholds⟩
      rintro rfl
      rw [holdsFlow_none] at hholds
      cases hgone.symm.trans hholds
    | some t' =>
      rcases holdsFlow_cases (s := s) rfl hholds with ⟨rfl, hclaimed⟩ | ⟨_, hbefore⟩
      · obtain ⟨rfl, _⟩ := Prod.ext_iff.mp (Option.some.inj hclaimed)
        exact .inr ⟨rfl, rfl⟩
      · refine .inl ⟨?_, flow', hbefore⟩
        rintro rfl
        cases hs.exclusive _ _ _ hheld ⟨flow', hbefore⟩
  | @restore provider hshrinks form flow exc hflow =>
    obtain ⟨holder₀, hheld, hother⟩ : ∃ holder₀, s.flows.holds form.flowId holder₀ ∧
        ∀ t', t' ≠ t → holder₀ ≠ some t' := by
      rcases hflow with hpending | hclaimed
      · exact ⟨none, ⟨flow, hpending⟩, fun t' _ h => nomatch h⟩
      · exact ⟨some t, ⟨flow, hclaimed⟩, fun t' ht h => ht (Option.some.inj h).symm⟩
    refine .pass form.flowId holder₀ none hheld rfl rfl ?_
    rintro flowId holder ⟨flow', hholds⟩
    cases holder with
    | none =>
      rcases lookup_of_insert hholds with ⟨rfl, _⟩ | ⟨hne, hholds⟩
      · exact .inr ⟨rfl, rfl⟩
      · exact .inl ⟨hne, flow', hshrinks.flows _ _ hholds⟩
    | some t' =>
      rcases holdsFlow_cases rfl hholds with ⟨_, hholds⟩ | ⟨ht, hholds⟩
      · cases hholds
      · refine .inl ⟨?_, flow', hholds⟩
        rintro rfl
        exact hother t' ht (hs.exclusive _ _ _ hheld ⟨flow', hholds⟩)
  | resolve hphase _ | mint hphase _ _ _ =>
    exact flows_keep rfl (.inr (by rw [hphase]; rfl)) (.refl _) rfl rfl
  | @grant form flow identity tokens code response hphase hnew hclient hexpiry hresponse =>
    have hheld : s.flows.holds form.flowId (some t) := ⟨flow, by rw [holdsFlow_some, hphase]; rfl⟩
    refine .spend form.flowId (some t) hheld rfl
      (by simp [St.flows, St.respond, History.granted, History.responded]) ?_
    rintro flowId holder ⟨flow', hholds⟩
    have hbefore : s.flows.holds flowId holder ∧ holder ≠ some t := by
      cases holder with
      | none => exact ⟨⟨flow', hholds⟩, fun h => nomatch h⟩
      | some t' =>
        rcases holdsFlow_cases rfl hholds with ⟨_, hholds⟩ | ⟨ht, hholds⟩
        · cases hholds
        · exact ⟨⟨flow', hholds⟩, fun h => ht (Option.some.inj h)⟩
    refine ⟨?_, hbefore.1⟩
    rintro rfl
    exact hbefore.2 (hs.exclusive _ _ _ hbefore.1 hheld)
  | load hshrinks _ _ _ | redeem hshrinks _ _ _ => exact flows_keep rfl (.inl rfl) hshrinks rfl rfl
  | loadRefresh _ _ _ | refresh _ _ => exact flows_keep rfl (.inl rfl) (.refl _) rfl rfl

/-- A code is issued with the session behind it, and spent on a token response. -/
theorem Move.codes (h : Move env s t s') : Step s.codes s'.codes := by
  cases h with
  | respond hshrinks _ | goto hshrinks _ => exact codes_keep hshrinks rfl rfl
  | authorize _ => exact .keep rfl rfl fun _ _ h => h
  | claim hshrinks _ _ _ => exact codes_keep hshrinks rfl rfl
  | restore hshrinks _ => exact .keep rfl rfl fun key _ ⟨tokens, h⟩ => ⟨tokens, hshrinks.sessions _ _ h⟩
  | resolve _ _ | mint _ _ _ _ => exact codes_keep (.refl _) rfl rfl
  | @grant form flow identity tokens code response hphase hnew hclient hexpiry hresponse =>
    refine .issue code.code () hnew
      (by simp [St.codes, St.respond, History.granted, History.responded]) rfl ?_
    rintro key _ ⟨tokens', hlookup⟩
    rcases lookup_of_insert hlookup with ⟨rfl, _⟩ | ⟨_, hlookup⟩
    · exact .inr ⟨rfl, rfl⟩
    · exact .inl ⟨tokens', hlookup⟩
  | load hshrinks _ _ _ => exact codes_keep hshrinks rfl rfl
  | @redeem provider hshrinks client code loadedAt tokens hphase hsession hgone =>
    refine .spend code.code () ⟨tokens, hsession⟩ rfl
      (by simp [St.codes, St.respond, History.redeemed, History.responded]) ?_
    rintro key _ ⟨tokens', hlookup⟩
    refine ⟨?_, tokens', hshrinks.sessions _ _ hlookup⟩
    rintro rfl
    cases hgone.symm.trans hlookup
  | loadRefresh _ _ _ | refresh _ _ => exact codes_keep (.refl _) rfl rfl

theorem Move.extends (h : Move env s t s') : Extends s.history s'.history := by
  cases h <;> constructor <;> intro x hx <;>
    first | exact hx | exact List.mem_append_left _ hx

/-- A flow is only ever held under the client that started it. -/
theorem Move.started (h : Move env s t s') (hi : Inv s) {flowId : String} {flow : PendingFlow}
    {holder : Option Rid} (hholds : s'.holdsFlow flowId flow holder) :
    ⟨flow.clientId, flowId⟩ ∈ s'.history.authorizations := by
  have hkept : s.holdsFlow flowId flow holder → ⟨flow.clientId, flowId⟩ ∈ s'.history.authorizations :=
    fun hbefore => h.extends.authorizations _ (hi.started _ _ _ hbefore)
  cases h with
  | respond hshrinks _ => exact hkept (holdsFlow_keep hholds rfl (.inl rfl) hshrinks)
  | goto hshrinks hplain =>
    exact hkept (holdsFlow_keep hholds rfl (.inl (flow?_of_plain hplain)) hshrinks)
  | authorize hnew =>
    cases holder with
    | none =>
      rcases lookup_of_insert hholds with ⟨rfl, rfl⟩ | ⟨_, hbefore⟩
      · exact List.mem_append_right _ (List.mem_singleton_self _)
      · exact hkept hbefore
    | some t' =>
      rcases holdsFlow_cases (s := s) rfl hholds with ⟨_, hclaimed⟩ | ⟨_, hbefore⟩
      · cases hclaimed
      · exact hkept hbefore
  | @claim provider hshrinks form flow₀ claims hpending hgone hclaims =>
    cases holder with
    | none => exact hkept (hshrinks.flows _ _ hholds)
    | some t' =>
      rcases holdsFlow_cases (s := s) rfl hholds with ⟨_, hclaimed⟩ | ⟨_, hbefore⟩
      · obtain ⟨rfl, rfl⟩ := Prod.ext_iff.mp (Option.some.inj hclaimed)
        exact hi.started form.flowId flow₀ none hpending
      · exact hkept hbefore
  | @restore provider hshrinks form flow₀ exc hflow =>
    cases holder with
    | none =>
      rcases lookup_of_insert hholds with ⟨rfl, rfl⟩ | ⟨_, hbefore⟩
      · rcases hflow with hpending | hclaimed
        · exact hi.started form.flowId flow₀ none hpending
        · exact hi.started form.flowId flow₀ (some t) hclaimed
      · exact hkept (hshrinks.flows _ _ hbefore)
    | some t' =>
      rcases holdsFlow_cases (s := s) rfl hholds with ⟨_, hclaimed⟩ | ⟨_, hbefore⟩
      · cases hclaimed
      · exact hkept hbefore
  | resolve hphase _ | mint hphase _ _ _ =>
    exact hkept (holdsFlow_keep hholds rfl (.inr (by rw [hphase]; rfl)) (.refl _))
  | grant _ _ _ _ _ =>
    cases holder with
    | none => exact hkept hholds
    | some t' =>
      rcases holdsFlow_cases (s := s) rfl hholds with ⟨_, hclaimed⟩ | ⟨_, hbefore⟩
      · cases hclaimed
      · exact hkept hbefore
  | load hshrinks _ _ _ | redeem hshrinks _ _ _ =>
    exact hkept (holdsFlow_keep hholds rfl (.inl rfl) hshrinks)
  | loadRefresh _ _ _ | refresh _ _ => exact hkept (holdsFlow_keep hholds rfl (.inl rfl) (.refl _))

/-- The claims of a verified token are those of an access token. -/
theorem confirms_of_verified {token : Option Jwt} {claims : TokenClaims}
    (h : (verifyAccessToken s.time token s.db).1 = .ok claims) :
    Confirms token claims.userId claims.organizationId := by
  have hreturns : (verifyAccessToken s.time token).Returns s.db claims
      (verifyAccessToken s.time token s.db).2 := Prod.ext h rfl
  obtain ⟨_, jwt, htoken, htype, hsub, horganization⟩ := verifyAccessToken_returns hreturns
  exact ⟨jwt, htoken, htype, hsub, horganization⟩

/-- The identity is that of the account and organization it was asked for. -/
theorem identity_of_resolved {userId organizationId : Uuid} {identity : Identity}
    (h : (Users.resolveIdentity userId organizationId s.db).1 = .ok identity) :
    identity.userId = some userId ∧ identity.organizationId = organizationId := by
  have hreturns : (Users.resolveIdentity userId organizationId).Returns s.db identity
      (Users.resolveIdentity userId organizationId s.db).2 := Prod.ext h rfl
  obtain ⟨user, hget, _, _, rfl⟩ := Users.resolveIdentity_returns.mp hreturns
  exact ⟨congrArg some (Table.get?_some hget).2, rfl⟩

theorem Move.justified (h : Move env s t s') (hi : Inv s) (t' : Rid) :
    (s'.phase t').Justified s'.history := by
  have hkept : ∀ t', (s.phase t').Justified s'.history :=
    fun t' => (hi.justified t').extend h.extends
  have hmoved : ∀ p : Phase, p.Justified s'.history → ∀ t',
      (Function.update s.phase t p t').Justified s'.history := fun p hp =>
    forall_update (P := fun p : Phase => p.Justified s'.history) hp hkept
  cases h with
  | respond _ _ => exact hmoved .finished trivial t'
  | goto _ hplain => exact hmoved _ (Phase.justified_of_plain hplain) t'
  | authorize _ => exact hmoved .finished trivial t'
  | claim _ _ _ hclaims => exact hmoved (.verified _ _ _) (confirms_of_verified hclaims) t'
  | restore _ _ => exact hmoved (.rendering _ _) trivial t'
  | resolve hphase hidentity =>
    obtain ⟨huser, horganization⟩ := identity_of_resolved hidentity
    have hclaims := hi.justified t
    rw [hphase] at hclaims
    exact hmoved (.resolved _ _ _) ⟨_, huser, horganization ▸ hclaims⟩ t'
  | mint _ _ _ _ =>
    exact hmoved (.minted _ _ _ _)
      ⟨_, List.mem_append_right _ (List.mem_singleton_self _), rfl, rfl⟩ t'
  | grant _ _ _ _ _ => exact hmoved .finished trivial t'
  | load _ hstored hclient hlifetime =>
    obtain ⟨g, hg, hcode⟩ := hi.stored _ _ hstored
    exact hmoved (.loaded _ _ _) ⟨hclient, hlifetime, g, hg, hcode, (hi.grants g hg).2⟩ t'
  | redeem _ _ _ _ => exact hmoved .finished trivial t'
  | loadRefresh _ _ _ => exact hmoved (.loadedRefresh _ _) trivial t'
  | refresh _ _ => exact hmoved .finished trivial t'

theorem mem_append_one {α : Type} {xs : List α} {x y : α} (h : y ∈ xs ++ [x]) : y ∈ xs ∨ y = x :=
  (List.mem_append.mp h).imp_right List.mem_singleton.mp

/-- A session is minted for the identity that the verified token names. -/
theorem Move.mints (h : Move env s t s') (hi : Inv s) : ∀ m ∈ s'.history.mints, m.Confirmed := by
  cases h with
  | @mint form flow identity draw userId tokens db hphase hunused huser hissue =>
    intro m hm
    rcases mem_append_one hm with hold | rfl
    · exact hi.mints m hold
    · obtain ⟨_, rfl, _⟩ := issueSession_returns.mp hissue
      have hresolved := hi.justified t
      rw [hphase] at hresolved
      obtain ⟨userId', huser', hconfirms⟩ := hresolved
      obtain rfl : userId = userId' := Option.some.inj (huser.symm.trans huser')
      exact ⟨userId, identity.organizationId, hconfirms, rfl, rfl⟩
  | _ => exact hi.mints

theorem Grant.Recorded.extend {h h' : History} (hext : Extends h h') {g : Grant}
    (hg : g.Recorded h) : g.Recorded h' := by
  obtain ⟨hstarted, hexpiry, m, hm, hrest⟩ := hg
  exact ⟨hext.authorizations _ hstarted, hexpiry, m, hext.mints m hm, hrest⟩

theorem Redemption.Recorded.extend {h h' : History} (hext : Extends h h') {r : Redemption}
    (hr : r.Recorded h) : r.Recorded h' := by
  obtain ⟨hclient, hlifetime, g, hg, hrest⟩ := hr
  exact ⟨hclient, hlifetime, g, hext.grants g hg, hrest⟩

theorem Move.time (h : Move env s t s') : s'.time = s.time := by
  cases h <;> rfl

theorem Move.grants (h : Move env s t s') (hi : Inv s) :
    ∀ g ∈ s'.history.grants, g.Recorded s'.history ∧ g.issuedAt ≤ s'.time := by
  have hkept : ∀ g ∈ s.history.grants, g.Recorded s'.history ∧ g.issuedAt ≤ s'.time := by
    intro g hg
    obtain ⟨hrecorded, htime⟩ := hi.grants g hg
    exact ⟨hrecorded.extend h.extends, h.time.symm ▸ htime⟩
  cases h with
  | @grant form flow identity tokens code response hphase hnew hclient hexpiry hresponse =>
    intro g hg
    rcases mem_append_one hg with hold | rfl
    · exact hkept g hold
    · have hminted := hi.justified t
      rw [hphase] at hminted
      obtain ⟨m, hm, rfl, rfl⟩ := hminted
      have hstarted := hi.started m.form.flowId flow (some t) (by rw [holdsFlow_some, hphase]; rfl)
      refine ⟨⟨?_, hexpiry, m, hm, rfl, rfl⟩, le_refl _⟩
      rw [hclient]
      exact hstarted
  | _ => exact hkept

theorem Move.stored (h : Move env s t s') (hi : Inv s) (key : String) (code : AuthorizationCode)
    (hlookup : s'.provider.authCodes.lookup key = some code) :
    ∃ g ∈ s'.history.grants, g.code = code := by
  have hkept : s.provider.authCodes.lookup key = some code →
      ∃ g ∈ s'.history.grants, g.code = code := by
    intro hbefore
    obtain ⟨g, hg, hcode⟩ := hi.stored key code hbefore
    exact ⟨g, h.extends.grants g hg, hcode⟩
  cases h with
  | respond hshrinks _ | goto hshrinks _ | claim hshrinks _ _ _ | restore hshrinks _
  | load hshrinks _ _ _ | redeem hshrinks _ _ _ => exact hkept (hshrinks.codes _ _ hlookup)
  | grant _ _ _ _ _ =>
    rcases lookup_of_insert hlookup with ⟨_, rfl⟩ | ⟨_, hbefore⟩
    · exact ⟨_, List.mem_append_right _ (List.mem_singleton_self _), rfl⟩
    · exact hkept hbefore
  | _ => exact hkept hlookup

theorem Move.sessions (h : Move env s t s') (hi : Inv s) (key : String) (tokens : SessionTokens)
    (hlookup : s'.provider.issuedSessions.lookup key = some tokens) :
    ∃ g ∈ s'.history.grants, g.code.code = key ∧ g.tokens = tokens := by
  have hkept : s.provider.issuedSessions.lookup key = some tokens →
      ∃ g ∈ s'.history.grants, g.code.code = key ∧ g.tokens = tokens := by
    intro hbefore
    obtain ⟨g, hg, hrest⟩ := hi.sessions key tokens hbefore
    exact ⟨g, h.extends.grants g hg, hrest⟩
  cases h with
  | respond hshrinks _ | goto hshrinks _ | claim hshrinks _ _ _ | restore hshrinks _
  | load hshrinks _ _ _ | redeem hshrinks _ _ _ => exact hkept (hshrinks.sessions _ _ hlookup)
  | grant _ _ _ _ _ =>
    rcases lookup_of_insert hlookup with ⟨rfl, rfl⟩ | ⟨_, hbefore⟩
    · exact ⟨_, List.mem_append_right _ (List.mem_singleton_self _), rfl, rfl⟩
    · exact hkept hbefore
  | _ => exact hkept hlookup

/-- The code that was loaded and the session that is popped were stored together. -/
theorem Move.redemptions (h : Move env s t s') (hi : Inv s) :
    ∀ r ∈ s'.history.redemptions, r.Recorded s'.history := by
  have hkept : ∀ r ∈ s.history.redemptions, r.Recorded s'.history :=
    fun r hr => (hi.redemptions r hr).extend h.extends
  cases h with
  | @redeem provider hshrinks client code loadedAt tokens hphase hsession hgone =>
    intro r hr
    rcases mem_append_one hr with hold | rfl
    · exact hkept r hold
    · have hloaded := hi.justified t
      rw [hphase] at hloaded
      obtain ⟨hclient, hlifetime, g, hg, rfl, hissued⟩ := hloaded
      obtain ⟨g', hg', hcode, rfl⟩ := hi.sessions _ _ hsession
      obtain rfl : g' = g := List.inj_on_of_nodup_map hi.codes.issuedOnce hg' hg hcode
      exact ⟨hclient, hlifetime, g', hg, rfl, hissued, rfl⟩
  | _ => exact hkept

theorem Move.keys (h : Move env s t s') (hi : Inv s) :
    ∀ x ∈ s'.history.responses, ∀ key, x.2 ≠ .unhandled (.keyError key) := by
  have happend : ∀ response : Response, (∀ key, response ≠ .unhandled (.keyError key)) →
      ∀ x ∈ s.history.responses ++ [(t, response)], ∀ key, x.2 ≠ .unhandled (.keyError key) := by
    intro response hresponse x hx
    rcases mem_append_one hx with hold | rfl
    · exact hi.keys x hold
    · exact hresponse
  cases h with
  | respond _ hresponse | grant _ _ _ _ hresponse => exact happend _ hresponse
  | authorize _ | redeem _ _ _ _ | refresh _ _ => exact happend _ fun key h => nomatch h
  | _ => exact hi.keys

theorem Inv.move (hi : Inv s) (h : Move env s t s') : Inv s' where
  flows := hi.flows.step (h.flows hi.flows)
  codes := hi.codes.step h.codes
  started _ _ _ hholds := h.started hi hholds
  justified := h.justified hi
  mints := h.mints hi
  grants := h.grants hi
  stored := h.stored hi
  sessions := h.sessions hi
  redemptions := h.redemptions hi
  keys := h.keys hi

/-- Only the database and the clocks change. -/
theorem Inv.beside (hi : Inv s) (db : Db) (monotonic : Instant) {time : Instant}
    (htime : s.time ≤ time) : Inv { s with db, monotonic, time } where
  flows := hi.flows
  codes := hi.codes
  started := hi.started
  justified := hi.justified
  mints := hi.mints
  grants g hg := ⟨(hi.grants g hg).1, le_trans (hi.grants g hg).2 htime⟩
  stored := hi.stored
  sessions := hi.sessions
  redemptions := hi.redemptions
  keys := hi.keys

theorem Inv.step {a : Label} (hi : Inv s) (h : step env s a = some s') : Inv s' := by
  rcases step_cases h with ⟨t, outside, _, _, htime, hmove⟩ | ⟨t, p, hplain, rfl⟩ |
    ⟨call, db, rfl, htime, _, _⟩ | ⟨db, rfl, _⟩
  · exact (hi.beside s.db outside.monotonic htime).move hmove
  · have hmove : Move env s t (s.goto t p) := .goto (.refl _) hplain
    exact hi.move hmove
  · exact hi.beside db s.monotonic htime
  · exact hi.beside db s.monotonic (le_refl _)

/-! ## The bridge is one-shot -/

/-- A flow has one client and yields one code at most; a code yields one token
response at most, to the client of its flow, loaded within its lifetime, with
the session of the identity that confirmed the flow; no key is missing. -/
structure OneShot (h : History) : Prop where
  flowOnce : (h.authorizations.map Authorization.flowId).Nodup
  codeOnce : (h.grants.map Grant.flowId).Nodup
  tokenOnce : (h.redemptions.map fun r => r.code.code).Nodup
  bound : ∀ r ∈ h.redemptions, ∃ g ∈ h.grants, ∃ m ∈ h.mints,
    g.code = r.code ∧ ⟨r.clientId, g.flowId⟩ ∈ h.authorizations ∧
      g.issuedAt ≤ r.loadedAt ∧ r.loadedAt ≤ g.issuedAt + codeTtl ∧
      m.form.flowId = g.flowId ∧ m.Confirmed ∧ r.token = oauthToken m.tokens
  noKeyError : ∀ x ∈ h.responses, ∀ key, x.2 ≠ .unhandled (.keyError key)

theorem Inv.oneShot (hi : Inv s) : OneShot s.history where
  flowOnce := hi.flows.issuedOnce
  codeOnce := hi.flows.spentOnce
  tokenOnce := hi.codes.spentOnce
  bound r hr := by
    obtain ⟨hclient, hlifetime, g, hg, hcode, hissued, htoken⟩ := hi.redemptions r hr
    obtain ⟨⟨hstarted, hexpiry, m, hm, hflow, htokens⟩, _⟩ := hi.grants g hg
    refine ⟨g, hg, m, hm, hcode, ?_, hissued, ?_, hflow, hi.mints m hm, ?_⟩
    · rw [← hclient, ← hcode]
      exact hstarted
    · rw [← hexpiry, hcode]
      exact hlifetime
    · rw [htoken, htokens]
  noKeyError := hi.keys

theorem bridge_oneShot {s₀ : St} (hstart : Start s₀) (hrun : Run (step env) anyStep s₀ s) :
    OneShot s.history := by
  have hinv : Inv s := hrun.invariant (I := Inv) (fun _ _ _ hi _ hstep => hi.step hstep) hstart.inv
  exact hinv.oneShot

theorem oneUser_start : Start oneUser := ⟨rfl, fun _ => rfl, rfl⟩

/-- A connection ends with one token response. -/
theorem bridge_oneShot_connect :
    ∃ s, Run (step plainEnv) anyStep oneUser s ∧
      s.history.redemptions.map (fun r => (r.clientId, r.code.code, r.token.refreshToken)) =
        [("claude", "code", "first")] ∧
      OneShot s.history := by
  have hsummary : ((exec (step plainEnv) oneUser connect).map fun s =>
      s.history.redemptions.map fun r => (r.clientId, r.code.code, r.token.refreshToken)) =
        some [("claude", "code", "first")] := by
    decide
  obtain ⟨s, hs, hredemptions⟩ := Option.map_eq_some_iff.mp hsummary
  exact ⟨s, run_of_exec hs, hredemptions, bridge_oneShot oneUser_start (run_of_exec hs)⟩

end Ekip.Mcp.OAuth
