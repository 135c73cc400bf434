import Ekip.Mcp.OAuth.OneShot

/-!
# Refresh tokens and the clients they were issued to

`load_refresh_token` builds its answer with the id of the client that asks, so
the check of the token endpoint never fails. What ties a family to a client is
that nobody else knows its tokens: as long as each client presents tokens it was
handed itself, a family stays with the client that redeemed its first one.
-/
namespace Ekip.Mcp.OAuth

open Ekip.Lib Ekip.Database Ekip.Core.Auth Ekip.Core.Tenancy

/-! ## The row of a token -/

/-- The token has a row, and its row is one of the family. -/
structure Belongs (env : Env) (rows : List RefreshToken) (token : String) (familyId : Uuid) :
    Prop where
  stored : ∃ row ∈ rows, row.tokenHash = hashToken env token
  family : ∀ row ∈ rows, row.tokenHash = hashToken env token → row.familyId = familyId

variable {env : Env} {rows : List RefreshToken} {token : String} {familyId : Uuid} {draw : Draw}

theorem Belongs.append (h : Belongs env rows token familyId) (hunused : draw.TokenUnused env rows)
    (userId organizationId familyId' : Uuid) :
    Belongs env (rows ++ [sessionRow env draw userId organizationId familyId']) token familyId := by
  obtain ⟨⟨row, hrow, hhash⟩, hfamily⟩ := h
  refine ⟨⟨row, List.mem_append_left _ hrow, hhash⟩, fun other hother hhash' => ?_⟩
  rcases mem_append_one hother with hold | rfl
  · exact hfamily other hold hhash'
  · exact absurd (hhash.trans hhash'.symm) (hunused row hrow).2

theorem Belongs.revoke (h : Belongs env rows token familyId) (which : RefreshToken → Bool)
    (now : Instant) :
    Belongs env (Table.updateWhere rows which fun row => row.revoke now) token familyId := by
  have hsame : ∀ row : RefreshToken, (if which row then row.revoke now else row).tokenHash =
      row.tokenHash ∧ (if which row then row.revoke now else row).familyId = row.familyId := by
    intro row
    split <;> exact ⟨rfl, rfl⟩
  obtain ⟨⟨row, hrow, hhash⟩, hfamily⟩ := h
  refine ⟨⟨_, Table.mem_updateWhere.mpr ⟨row, hrow, rfl⟩, (hsame row).1.trans hhash⟩, ?_⟩
  intro other hother hhash'
  obtain ⟨old, hold, rfl⟩ := Table.mem_updateWhere.mp hother
  rw [(hsame old).2]
  exact hfamily old hold ((hsame old).1.symm.trans hhash')

/-- A row that goes in is the only one of its token. -/
theorem belongs_of_insert (hunused : draw.TokenUnused env rows) (userId organizationId : Uuid) :
    Belongs env (rows ++ [sessionRow env draw userId organizationId familyId])
      draw.rawRefreshToken familyId := by
  refine ⟨⟨_, List.mem_append_right _ (List.mem_singleton_self _), rfl⟩, ?_⟩
  intro other hother hhash
  rcases mem_append_one hother with hold | rfl
  · exact absurd hhash (hunused other hold).2
  · rfl

theorem Belongs.effect {call : ReuseDetection.Call} {rows' : List RefreshToken}
    (h : Belongs env rows token familyId) (heffect : ReuseDetection.Effect env call rows rows') :
    Belongs env rows' token familyId := by
  cases heffect with
  | same => exact h
  | login userId organizationId hunused => exact h.append hunused _ _ _
  | rotate row _ _ hunused => exact (h.revoke _ _).append (tokenUnused_updateWhere.mpr hunused) _ _ _
  | revoke row => exact h.revoke _ _

/-! ## Who was handed a token, and whose a family is -/

/-- A token response of the bridge handed the token to the client. -/
def Handed (h : History) (clientId token : String) : Prop :=
  (∃ r ∈ h.redemptions, r.clientId = clientId ∧ r.token.refreshToken = token) ∨
    ∃ r ∈ h.refreshes, r.clientId = clientId ∧ r.token.refreshToken = token

instance (h : History) (clientId token : String) : Decidable (Handed h clientId token) :=
  inferInstanceAs (Decidable (_ ∨ _))

/-- The first token of the family went to the client, for an authorization code. -/
def IssuedTo (h : History) (familyId : Uuid) (clientId : String) : Prop :=
  ∃ m ∈ h.mints, m.familyId = familyId ∧
    ∃ r ∈ h.redemptions, r.clientId = clientId ∧ r.token = oauthToken m.tokens

/-- Whatever is refreshed belongs to the client that refreshes it, and to no
other one. -/
structure ClientBound (h : History) : Prop where
  owner : ∀ r ∈ h.refreshes, ∃ familyId, r.familyId = some familyId ∧
    IssuedTo h familyId r.clientId
  unique : ∀ familyId clientId clientId', IssuedTo h familyId clientId →
    IssuedTo h familyId clientId' → clientId = clientId'

/-- The client and the token of a refresh grant that is about to be loaded, and
the time of it. -/
def Label.presents (s : St) : Label → Option (String × String × Instant)
  | .advance t outside =>
    match s.phase t with
    | .started (.refreshToken client refreshToken) =>
      some (client.clientId, refreshToken, outside.time)
    | _ => none
  | _ => none

/-- The token has a row that is neither revoked nor expired. -/
def Live (env : Env) (db : Db) (token : String) (time : Instant) : Prop :=
  ∃ row ∈ Repository.lookupRefreshToken db (hashToken env token), row.Usable time

instance (db : Db) (token : String) (time : Instant) : Decidable (Live env db token time) :=
  inferInstanceAs (Decidable (∃ row ∈ _, _))

/-- A client that presents a live token was handed it. -/
def PresentsOwn (env : Env) (s : St) (a : Label) : Prop :=
  ∀ x ∈ a.presents s, Live env s.db x.2.1 x.2.2 → Handed s.history x.1 x.2.1

instance (s : St) (a : Label) : Decidable (PresentsOwn env s a) :=
  inferInstanceAs (Decidable (∀ x ∈ a.presents s, _ → _))

/-! ## Rotation keeps a family with its client -/

structure Binding (env : Env) (s : St) : Prop where
  bridge : Inv s
  familyOnce : (s.history.mints.map Mint.familyId).Nodup
  mints : ∀ m ∈ s.history.mints,
    Belongs env s.db.refreshTokens m.tokens.refreshToken m.familyId
  refreshes : ∀ r ∈ s.history.refreshes, ∃ familyId, r.familyId = some familyId ∧
    Belongs env s.db.refreshTokens r.token.refreshToken familyId ∧
      IssuedTo s.history familyId r.clientId
  presented : ∀ t client loaded, s.phase t = .loadedRefresh client loaded →
    Handed s.history client.clientId loaded.token

variable {s s' : St} {t : Rid}

/-- A token that was handed to a client is of a family issued to it. -/
theorem Binding.family_of_handed (hi : Binding env s) {clientId : String}
    (h : Handed s.history clientId token) :
    ∃ familyId, Belongs env s.db.refreshTokens token familyId ∧
      IssuedTo s.history familyId clientId := by
  rcases h with ⟨r, hr, rfl, rfl⟩ | ⟨r, hr, rfl, rfl⟩
  · obtain ⟨_, _, m, hm, _, _, _, _, _, _, htoken⟩ := hi.bridge.oneShot.bound r hr
    refine ⟨m.familyId, ?_, m, hm, rfl, r, hr, rfl, htoken⟩
    rw [htoken]
    exact hi.mints m hm
  · obtain ⟨familyId, _, hbelongs, hissued⟩ := hi.refreshes r hr
    exact ⟨familyId, hbelongs, hissued⟩

/-- A family that was issued through the bridge was issued to one client. -/
theorem Binding.unique (hi : Binding env s) {clientId clientId' : String}
    (h : IssuedTo s.history familyId clientId) (h' : IssuedTo s.history familyId clientId') :
    clientId = clientId' := by
  obtain ⟨m, hm, rfl, r, hr, rfl, htoken⟩ := h
  obtain ⟨m', hm', hfamily, r', hr', rfl, htoken'⟩ := h'
  obtain rfl : m' = m := List.inj_on_of_nodup_map hi.familyOnce hm' hm hfamily
  -- the mint behind a redemption is the one whose refresh token it hands out
  have hmint : ∀ m₁ ∈ s.history.mints, oauthToken m'.tokens = oauthToken m₁.tokens → m₁ = m' := by
    intro m₁ hm₁ heq
    have hraw : m'.tokens.refreshToken = m₁.tokens.refreshToken := congrArg OAuthToken.refreshToken heq
    obtain ⟨⟨row, hrow, hhash⟩, hfamily₁⟩ := hi.mints m₁ hm₁
    have hfamily' := (hi.mints m' hm').family row hrow (by rw [hraw]; exact hhash)
    exact List.inj_on_of_nodup_map hi.familyOnce hm₁ hm' ((hfamily₁ row hrow hhash).symm.trans hfamily')
  obtain ⟨g, hg, m₁, hm₁, hcode, _, _, _, hflow, _, htoken₁⟩ := hi.bridge.oneShot.bound r hr
  obtain ⟨g', hg', m₂, hm₂, hcode', _, _, _, hflow', _, htoken₂⟩ := hi.bridge.oneShot.bound r' hr'
  obtain rfl := hmint m₁ hm₁ (htoken.symm.trans htoken₁)
  obtain rfl := hmint m₂ hm₂ (htoken'.symm.trans htoken₂)
  obtain rfl : g = g' :=
    List.inj_on_of_nodup_map hi.bridge.flows.spentOnce hg hg' (hflow.symm.trans hflow')
  rw [← (hi.bridge.redemptions r hr).1, ← (hi.bridge.redemptions r' hr').1, ← hcode, ← hcode']

theorem Handed.extend {h h' : History} (hext : Extends h h') {clientId : String}
    (hh : Handed h clientId token) : Handed h' clientId token := by
  rcases hh with ⟨r, hr, hrest⟩ | ⟨r, hr, hrest⟩
  · exact .inl ⟨r, hext.redemptions r hr, hrest⟩
  · exact .inr ⟨r, hext.refreshes r hr, hrest⟩

theorem IssuedTo.extend {h h' : History} (hext : Extends h h') {clientId : String}
    (hi : IssuedTo h familyId clientId) : IssuedTo h' familyId clientId := by
  obtain ⟨m, hm, hfamily, r, hr, hrest⟩ := hi
  exact ⟨m, hext.mints m hm, hfamily, r, hext.redemptions r hr, hrest⟩

theorem Move.belongs (h : Move env s t s') (hb : Belongs env s.db.refreshTokens token familyId) :
    Belongs env s'.db.refreshTokens token familyId := by
  cases h with
  | mint _ _ _ hissue =>
    obtain ⟨hunused, _, rfl⟩ := issueSession_returns.mp hissue
    exact hb.append hunused _ _ _
  | refresh _ hrefresh =>
    obtain ⟨row, _, _, hunused, _, rfl⟩ := refresh_returns.mp hrefresh
    exact (hb.revoke _ _).append (tokenUnused_updateWhere.mpr hunused) _ _ _
  | _ => exact hb

theorem Binding.move_familyOnce (hi : Binding env s) (h : Move env s t s') :
    (s'.history.mints.map Mint.familyId).Nodup := by
  cases h with
  | @mint form flow identity draw userId tokens db hphase hunused huser hissue =>
    have hnew : draw.familyId ∉ s.history.mints.map Mint.familyId := by
      intro hmem
      obtain ⟨m, hm, hfamily⟩ := List.mem_map.mp hmem
      obtain ⟨⟨row, hrow, hhash⟩, hrows⟩ := hi.mints m hm
      exact hunused row hrow ((hrows row hrow hhash).trans hfamily)
    have hnodup := Custody.nodup_append_new hi.familyOnce hnew
    simpa [St.goto, History.minted] using hnodup
  | _ => exact hi.familyOnce

theorem Binding.move_mints (hi : Binding env s) (h : Move env s t s') :
    ∀ m ∈ s'.history.mints, Belongs env s'.db.refreshTokens m.tokens.refreshToken m.familyId := by
  have hkept : ∀ m ∈ s.history.mints,
      Belongs env s'.db.refreshTokens m.tokens.refreshToken m.familyId :=
    fun m hm => h.belongs (hi.mints m hm)
  cases h with
  | mint _ _ _ hissue =>
    intro m hm
    rcases mem_append_one hm with hold | rfl
    · exact hkept m hold
    · obtain ⟨hunused, rfl, rfl⟩ := issueSession_returns.mp hissue
      exact belongs_of_insert hunused _ _
  | _ => exact hkept

/-- The successor of a token that was handed to the client is of the same family. -/
theorem Binding.move_refreshes (hi : Binding env s) (h : Move env s t s') :
    ∀ r ∈ s'.history.refreshes, ∃ familyId, r.familyId = some familyId ∧
      Belongs env s'.db.refreshTokens r.token.refreshToken familyId ∧
        IssuedTo s'.history familyId r.clientId := by
  have hkept : ∀ r ∈ s.history.refreshes, ∃ familyId, r.familyId = some familyId ∧
      Belongs env s'.db.refreshTokens r.token.refreshToken familyId ∧
        IssuedTo s'.history familyId r.clientId := by
    intro r hr
    obtain ⟨familyId, hfamily, hbelongs, hissued⟩ := hi.refreshes r hr
    exact ⟨familyId, hfamily, h.belongs hbelongs, hissued.extend h.extends⟩
  cases h with
  | @refresh client loaded draw tokens db hphase hrefresh =>
    intro r hr
    rcases mem_append_one hr with hold | rfl
    · exact hkept r hold
    · obtain ⟨familyId, hbelongs, hissued⟩ :=
        hi.family_of_handed (hi.presented t client loaded hphase)
      obtain ⟨row, hrow, _, hunused, rfl, rfl⟩ := refresh_returns.mp hrefresh
      have hget := hrow
      rw [Repository.lookupRefreshToken_eq] at hget
      obtain ⟨hmem, hhash⟩ := Table.get?_some hget
      obtain rfl : row.familyId = familyId := hbelongs.family row hmem hhash
      exact ⟨row.familyId, by rw [hrow]; rfl,
        belongs_of_insert (tokenUnused_updateWhere.mpr hunused) _ _, hissued⟩
  | _ => exact hkept

theorem Move.phase_of_ne (h : Move env s t s') {t' : Rid} (ht : t' ≠ t) :
    s'.phase t' = s.phase t' := by
  cases h <;> exact Function.update_of_ne ht _ _

/-- A request that holds a loaded refresh token has just found it live. -/
theorem Move.loads (h : Move env s t s') {client : OAuthClientInformationFull}
    {loaded : OAuthRefreshToken} (hphase' : s'.phase t = .loadedRefresh client loaded) :
    s.phase t = .started (.refreshToken client loaded.token) ∧
      Live env s.db loaded.token s.time := by
  have hself : ∀ p : Phase, Function.update s.phase t p t = .loadedRefresh client loaded →
      p = .loadedRefresh client loaded := by
    intro p hp
    rwa [Function.update_self] at hp
  cases h with
  | goto _ hplain =>
    rw [hself _ hphase'] at hplain
    cases hplain
  | loadRefresh hphase hrow husable =>
    obtain ⟨rfl, rfl⟩ := Phase.loadedRefresh.inj (hself _ hphase')
    exact ⟨hphase, _, hrow, husable⟩
  | respond _ _ | authorize _ => cases hself .finished hphase'
  | claim _ _ _ _ => cases hself (.verified _ _ _) hphase'
  | restore _ _ => cases hself (.rendering _ _) hphase'
  | resolve _ _ => cases hself (.resolved _ _ _) hphase'
  | mint _ _ _ _ => cases hself (.minted _ _ _ _) hphase'
  | grant _ _ _ _ _ => cases hself .finished hphase'
  | load _ _ _ _ => cases hself (.loaded _ _ _) hphase'
  | redeem _ _ _ _ | refresh _ _ => cases hself .finished hphase'

theorem Binding.move (hi : Binding env s) (h : Move env s t s')
    (hown : ∀ client loaded, s'.phase t = .loadedRefresh client loaded →
      Handed s.history client.clientId loaded.token) : Binding env s' where
  bridge := hi.bridge.move h
  familyOnce := hi.move_familyOnce h
  mints := hi.move_mints h
  refreshes := hi.move_refreshes h
  presented := by
    intro t' client loaded hphase
    by_cases ht : t' = t
    · subst ht
      exact (hown client loaded hphase).extend h.extends
    · rw [h.phase_of_ne ht] at hphase
      exact (hi.presented t' client loaded hphase).extend h.extends

/-- What runs beside the bridge moves no token to another family. -/
theorem Binding.beside (hi : Binding env s) {db : Db} (monotonic : Instant) {time : Instant}
    (htime : s.time ≤ time)
    (hrows : ∀ token familyId, Belongs env s.db.refreshTokens token familyId →
      Belongs env db.refreshTokens token familyId) :
    Binding env { s with db, monotonic, time } where
  bridge := hi.bridge.beside db monotonic htime
  familyOnce := hi.familyOnce
  mints m hm := hrows _ _ (hi.mints m hm)
  refreshes r hr := by
    obtain ⟨familyId, hfamily, hbelongs, hissued⟩ := hi.refreshes r hr
    exact ⟨familyId, hfamily, hrows _ _ hbelongs, hissued⟩
  presented := hi.presented

theorem Binding.step {a : Label} (hi : Binding env s) (hown : PresentsOwn env s a)
    (h : step env s a = some s') : Binding env s' := by
  rcases step_cases h with ⟨t, outside, rfl, _, htime, hmove⟩ | ⟨t, p, hplain, rfl⟩ |
    ⟨call, db, rfl, htime, _, heffect⟩ | ⟨db, rfl, hsame⟩
  · have hticked : Binding env (s.tick outside) :=
      hi.beside outside.monotonic htime fun _ _ hb => hb
    refine hticked.move hmove fun client loaded hphase' => ?_
    obtain ⟨hphase, hlive⟩ := hmove.loads hphase'
    have hpresents : (Label.advance t outside).presents s =
        some (client.clientId, loaded.token, outside.time) := by
      have hbefore : s.phase t = .started (.refreshToken client loaded.token) := hphase
      simp [Label.presents, hbefore]
    exact hown _ hpresents hlive
  · refine hi.move (.goto (.refl _) hplain) fun client loaded hphase' => ?_
    have hself : (s.goto t p).phase t = p := by simp [St.goto]
    rw [hself.symm.trans hphase'] at hplain
    cases hplain
  · exact hi.beside s.monotonic htime fun _ _ hb => hb.effect heffect
  · exact hi.beside s.monotonic (le_refl _) fun _ _ hb => hsame.symm ▸ hb

theorem Start.binding (h : Start s) : Binding env s where
  bridge := h.inv
  familyOnce := by simp [h.history]
  mints := by simp [h.history]
  refreshes := by simp [h.history]
  presented t client loaded hphase := by
    rw [h.phase t] at hphase
    cases hphase

theorem Binding.clientBound (hi : Binding env s) : ClientBound s.history where
  owner r hr := by
    obtain ⟨familyId, hfamily, _, hissued⟩ := hi.refreshes r hr
    exact ⟨familyId, hfamily, hissued⟩
  unique _ _ _ := hi.unique

theorem refresh_clientBound {s₀ : St} (hstart : Start s₀)
    (hrun : Run (step env) (PresentsOwn env) s₀ s) : ClientBound s.history := by
  have hbinding : Binding env s :=
    hrun.invariant (I := Binding env) (fun _ _ _ hi hown hstep => hi.step hown hstep) hstart.binding
  exact hbinding.clientBound

/-! ## Another client with the token -/

/-- What the refresh of the first token draws. -/
def rotation : Outside where
  monotonic := 1
  time := 1
  draw := { issuedAt := 1, refreshTokenId := 11, rawRefreshToken := "second", familyId := 8 }

/-- The client and the token of each token response. -/
def History.summary (h : History) : List (String × String) × List (String × String × Option Uuid) :=
  (h.redemptions.map fun r => (r.clientId, r.token.refreshToken),
    h.refreshes.map fun r => (r.clientId, r.refreshToken, r.familyId))

/-- `claude` redeemed the code, and `other` refreshes the token. -/
theorem refresh_of_other :
    ((exec (step plainEnv) oneUser
        (connect ++ runs 4 (.refreshToken { clientId := "other" } "first") rotation 2)).map
      fun s => s.history.summary) =
      some ([("claude", "first")], [("other", "first", some 7)]) := by
  decide

theorem refresh_clientBound_fails :
    ¬ ∀ (env : Env) (s₀ s : St), Start s₀ → Run (step env) anyStep s₀ s →
      ClientBound s.history := by
  intro hall
  obtain ⟨s, hs, hsummary⟩ := Option.map_eq_some_iff.mp refresh_of_other
  obtain ⟨hredemptions, hrefreshes⟩ := Prod.ext_iff.mp hsummary
  have hbound := hall plainEnv oneUser s oneUser_start (run_of_exec hs)
  have hother : ("other", "first", some 7) ∈
      s.history.refreshes.map fun r => (r.clientId, r.refreshToken, r.familyId) := by
    rw [show s.history.refreshes.map (fun r => (r.clientId, r.refreshToken, r.familyId)) =
      [("other", "first", some 7)] from hrefreshes]
    exact List.mem_singleton_self _
  obtain ⟨r, hr, hclient⟩ := List.mem_map.mp hother
  obtain ⟨familyId, _, m, _, _, r', hr', hclient', _⟩ := hbound.owner r hr
  have hredeemed : (r'.clientId, r'.token.refreshToken) ∈
      s.history.redemptions.map fun r => (r.clientId, r.token.refreshToken) :=
    List.mem_map_of_mem hr'
  rw [show s.history.redemptions.map (fun r => (r.clientId, r.token.refreshToken)) =
    [("claude", "first")] from hredemptions] at hredeemed
  have hclaude : r'.clientId = "claude" := congrArg Prod.fst (List.mem_singleton.mp hredeemed)
  have hname : r.clientId = "other" := congrArg Prod.fst hclient
  rw [hclient', hname] at hclaude
  exact absurd hclaude (by decide)

/-- The client that redeemed the code refreshes its token. -/
theorem refresh_clientBound_own :
    ∃ s, Run (step plainEnv) (PresentsOwn plainEnv) oneUser s ∧
      s.history.summary = ([("claude", "first")], [("claude", "first", some 7)]) ∧
      ClientBound s.history := by
  have hsummary : ((execWithin (step plainEnv) (PresentsOwn plainEnv) oneUser
      (connect ++ runs 4 (.refreshToken claude "first") rotation 2)).map
        fun s => s.history.summary) =
      some ([("claude", "first")], [("claude", "first", some 7)]) := by
    decide
  obtain ⟨s, hs, hrefreshes⟩ := Option.map_eq_some_iff.mp hsummary
  have hrun := run_of_execWithin hs
  exact ⟨s, hrun, hrefreshes, refresh_clientBound oneUser_start hrun⟩

end Ekip.Mcp.OAuth
