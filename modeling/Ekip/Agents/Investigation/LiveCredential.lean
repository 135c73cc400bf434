import Ekip.Agents.Investigation.GatheredOnce

/-!
# The credential of the live evidence

`list_connectors` is made for the management of connectors: it wants `tenancy:manage`, knows
nothing of projects and hides the credential. The live sources take what it hides the
credential behind for the credential.
-/
namespace Ekip.Agents.Investigation.Evidence

open Ekip.Lib Ekip.Database Ekip.Shared Ekip.Core

variable {ε τ ω α : Type}

/-! ## What is claimed -/

/-- The rows that `list_connectors` reads, in their order. -/
def organizationRows (actor : Identity) (rows : List Connector) : List Connector :=
  rows.filter fun row => row.organizationId = actor.organizationId

section Law

variable (decrypt : String → Option String) (reads : Uuid → Bool) (actor : Identity)
  (rows : List Connector)

/-- Every request for a connector carries its decrypted credential. -/
def RealCredential (requests : List (Nat × Request)) : Prop :=
  ∀ position request, (position, request) ∈ requests →
    ∀ row, (organizationRows actor rows)[position]? = some row →
      ∀ secret, decrypt row.credentialRef = some secret →
        request.authorization = "Bearer " ++ secret

/-- Live items come of connectors whose project the actor can read. -/
def WithinProjects (evidence : Gathered ω) : Prop :=
  ∀ position item, (.live position, item) ∈ evidence →
    ∀ row, (organizationRows actor rows)[position]? = some row →
      ∀ project, row.projectId = some project → reads project = true

/-- Whatever is asked, of whatever index and sites, and whatever fails. -/
def LiveLaw (enabled : Bool) : Prop :=
  ∀ (ε τ ω : Type) (env : Env ε τ ω) (query : String) (incidentId : Option Uuid)
    (db : EvidenceDb ε), env.investigationLiveEvidenceEnabled = enabled →
    db.connectorConfigs = rows →
      RealCredential decrypt actor rows (gatherEvidence env query actor incidentId db).1 ∧
        ∀ evidence, (gatherEvidence env query actor incidentId db).2 = .ok evidence →
          WithinProjects reads actor rows evidence

end Law

/-- The live source has a repository or a channel to ask for. -/
def hasTarget (connector : Connector) : Bool :=
  match connector.source with
  | .github => !(reposOf connector.config.operator).isEmpty
  | .slack => !(channelsOf connector.config.operator).isEmpty
  | _ => false

/-! ## Requests -/

theorem mem_callWithRetry {operation : Nat → Asked α} {request : Request} {remaining : Nat}
    (h : request ∈ (callWithRetry operation remaining).1) :
    ∃ attempt, request ∈ (operation attempt).1 := by
  induction remaining with
  | zero => exact ⟨maxRetries, h⟩
  | succ remaining ih =>
    unfold callWithRetry at h
    split at h
    case h_1 requests a hfirst =>
      refine ⟨maxRetries - (remaining + 1), ?_⟩
      rw [hfirst]
      exact h
    case h_2 requests e hfirst =>
      rcases List.mem_append.mp h with hnow | hlater
      · refine ⟨maxRetries - (remaining + 1), ?_⟩
        rw [hfirst]
        exact hnow
      · exact ih hlater

/-- Every source sends the reference of the connector, and only where it has a target. -/
theorem liveSources_requests {connector : Connector}
    {fetchLiveEvidence : Sites → Clock → String → Connector → Nat → Asked (List GatheredItem)}
    (hfetch : liveSources connector.source = some fetchLiveEvidence) {sites : Sites}
    {clock : Clock} {query : String} {limit : Nat} {request : Request}
    (h : request ∈ (fetchLiveEvidence sites clock query connector limit).1) :
    request.authorization = bearer connector ∧ hasTarget connector = true := by
  unfold liveSources at hfetch
  unfold hasTarget
  split at hfetch
  case h_1 hsource =>
    cases hfetch
    obtain ⟨repo, hrepo, hrequest⟩ := List.mem_flatMap.mp h
    rw [hsource]
    refine ⟨?_, by simpa using List.ne_nil_of_mem hrepo⟩
    simp only [List.mem_cons, List.not_mem_nil, or_false] at hrequest
    rcases hrequest with rfl | rfl <;> rfl
  case h_2 hsource =>
    cases hfetch
    obtain ⟨channelId, hchannel, rfl⟩ := List.mem_map.mp h
    rw [hsource]
    exact ⟨rfl, by simpa using List.ne_nil_of_mem hchannel⟩
  case h_3 =>
    cases hfetch
    cases h
  case h_4 => cases hfetch

/-- Items, too, come only where there is a target. -/
theorem liveSources_items {connector : Connector}
    {fetchLiveEvidence : Sites → Clock → String → Connector → Nat → Asked (List GatheredItem)}
    (hfetch : liveSources connector.source = some fetchLiveEvidence) {sites : Sites}
    {clock : Clock} {query : String} {limit : Nat} {items : List GatheredItem}
    (h : (fetchLiveEvidence sites clock query connector limit).2 = .ok items)
    {item : GatheredItem} (hitem : item ∈ items) : hasTarget connector = true := by
  unfold liveSources at hfetch
  unfold hasTarget
  split at hfetch
  case h_1 hsource =>
    cases hfetch
    obtain ⟨sorted, hsorted, rfl⟩ := Query.map_ok.mp h
    obtain ⟨repo, hrepo, -⟩ :=
      List.mem_flatMap.mp (newestFirst_mem hsorted item (List.mem_of_mem_take hitem))
    rw [hsource]
    simpa using List.ne_nil_of_mem hrepo
  case h_2 hsource =>
    cases hfetch
    obtain ⟨sorted, hsorted, rfl⟩ := Query.map_ok.mp h
    obtain ⟨channelId, hchannel, -⟩ :=
      List.mem_flatMap.mp (newestFirst_mem hsorted item (List.mem_of_mem_take hitem))
    rw [hsource]
    simpa using List.ne_nil_of_mem hchannel
  case h_3 =>
    cases hfetch
    cases h
    cases hitem
  case h_4 => cases hfetch

theorem gatherLive_requests {answers : Answers ω} {position : Nat} {request : Request}
    (h : (position, request) ∈ (gatherLiveEvidence answers).1) :
    ∃ connectorConfigs connector asked, answers.connectors = .ok connectorConfigs ∧
      connectorConfigs[position]? = some connector ∧ connector.status = .active ∧
      answers.live position connector = some asked ∧ request ∈ asked.1 := by
  unfold gatherLiveEvidence at h
  split at h
  case h_1 => cases h
  case h_2 connectorConfigs hconnectors =>
    obtain ⟨⟨connector, position'⟩, hconnector, hentry⟩ := List.mem_flatMap.mp h
    unfold askConnector at hentry
    split at hentry
    case isFalse => cases hentry
    case isTrue hactive =>
      split at hentry
      case h_1 => cases hentry
      case h_2 requests outcome hasked =>
        obtain ⟨request', hrequest, heq⟩ := List.mem_map.mp hentry
        cases heq
        exact ⟨connectorConfigs, connector, _, hconnectors,
          List.mem_zipIdx_iff_getElem?.mp hconnector, hactive, hasked, hrequest⟩

section Actor

variable {env : Env ε τ ω} {query : String} {actor : Identity} {db : EvidenceDb ε}
  {incidentId : Option Uuid}

/-- Only a manager of the organization has connectors listed, and with no credential. -/
theorem connectors_answer {connectorConfigs : List Connector}
    (h : (answersOf env query actor db).connectors = .ok connectorConfigs) :
    Users.authorize actor Tenancy.managePermission = true ∧
      connectorConfigs = (organizationRows actor db.connectorConfigs).map redactCredential := by
  have hlist := attempted_ok h
  unfold listConnectors at hlist
  rw [if_neg (by simp)] at hlist
  by_cases hauthorize : Users.authorize actor Tenancy.managePermission = true
  · rw [if_pos hauthorize] at hlist
    cases hlist
    exact ⟨hauthorize, rfl⟩
  · rw [if_neg hauthorize] at hlist
    cases hlist

/-- A connector that is asked is a redacted row. -/
theorem listed_row {connectorConfigs : List Connector} {position : Nat} {connector row : Connector}
    (h : (answersOf env query actor db).connectors = .ok connectorConfigs)
    (hconnector : connectorConfigs[position]? = some connector)
    (hrow : (organizationRows actor db.connectorConfigs)[position]? = some row) :
    connector = redactCredential row := by
  obtain ⟨-, rfl⟩ := connectors_answer h
  rw [List.getElem?_map, hrow] at hconnector
  exact (Option.some.inj hconnector).symm

theorem not_live_of_indexed {now : Datetime} {le : ω → ω → Bool} {answers : Answers ω}
    {position : Nat} {item : GatheredItem} :
    (.live position, item) ∉ indexedEvidence now le answers := by
  intro hin
  have hpriority : 7 ≤ 5 := (indexed_upto answers).bounded _ hin
  omega

/-- What is gathered is of the index, or live where that is enabled. -/
theorem gatherFrom_live {now : Datetime} {le : ω → ω → Bool} {enabled : Bool}
    {answers : Answers ω} {position : Nat} :
    (∀ request, (position, request) ∈ (gatherFrom now le enabled incidentId answers).1 →
      enabled = true ∧ (position, request) ∈ (gatherLiveEvidence answers).1) ∧
    ∀ evidence item, (gatherFrom now le enabled incidentId answers).2 = .ok evidence →
      (.live position, item) ∈ evidence →
        enabled = true ∧ (.live position, item) ∈ (gatherLiveEvidence answers).2 := by
  have hindexed (item : GatheredItem) : (.live position, item) ∉ indexedEvidence now le answers :=
    not_live_of_indexed
  unfold gatherFrom
  dsimp only
  generalize indexedEvidence now le answers = indexed at hindexed ⊢
  by_cases hask : indexed.length < evidenceCap ∧ enabled = true
  · rw [if_pos hask]
    split
    case h_1 =>
      refine ⟨fun request h => ?_, fun evidence item h => ?_⟩
      · cases h
      · cases h
    case h_2 =>
      refine ⟨fun request h => ?_, fun evidence item h hitem => ?_⟩
      · cases h
      · obtain rfl := Except.ok.inj h
        exact absurd (List.mem_of_mem_take hitem) (hindexed item)
    case h_3 =>
      refine ⟨fun request h => ⟨hask.2, h⟩, fun evidence item h hitem => ⟨hask.2, ?_⟩⟩
      obtain rfl := Except.ok.inj h
      rcases List.mem_append.mp (List.mem_of_mem_take hitem) with hin | hin
      · exact absurd hin (hindexed item)
      · exact hin
  · rw [if_neg hask]
    refine ⟨fun request h => ?_, fun evidence item h hitem => ?_⟩
    · cases h
    · obtain rfl := Except.ok.inj h
      exact absurd (List.mem_of_mem_take hitem) (hindexed item)

end Actor

/-! ## When the law holds -/

/-- Every connector that is asked has the bullets for its credential, and a project that the
actor can read. -/
def LiveReady (decrypt : String → Option String) (reads : Uuid → Bool) (actor : Identity)
    (rows : List Connector) (enabled : Bool) : Prop :=
  enabled = true → Users.authorize actor Tenancy.managePermission = true →
    ∀ row ∈ organizationRows actor rows, row.status = .active → hasTarget row = true →
      (∀ secret, decrypt row.credentialRef = some secret → secret = redactedCredential) ∧
        ∀ project, row.projectId = some project → reads project = true

variable {decrypt : String → Option String} {reads : Uuid → Bool} {actor : Identity}
  {rows : List Connector} {enabled : Bool}

/-- What the live source of a connector was asked, and what it answered. -/
theorem askLive_eq_some {env : Env ε τ ω} {query : String} {position : Nat} {connector : Connector}
    {asked : Asked (List GatheredItem)} (h : askLive env query position connector = some asked) :
    (∀ request ∈ asked.1,
        request.authorization = bearer connector ∧ hasTarget connector = true) ∧
      ∀ items, asked.2 = .ok items → ∀ item ∈ items, hasTarget connector = true := by
  obtain ⟨fetchLiveEvidence, hfetch, rfl⟩ := Option.map_eq_some_iff.mp h
  constructor
  · intro request hrequest
    obtain ⟨attempt, hattempt⟩ := mem_callWithRetry hrequest
    exact liveSources_requests hfetch hattempt
  · intro items hok item hitem
    obtain ⟨attempt, hattempt⟩ := callWithRetry_ok hok
    exact liveSources_items hfetch (attempted_ok hattempt) hitem

theorem law_of_ready (h : LiveReady decrypt reads actor rows enabled) :
    LiveLaw decrypt reads actor rows enabled := by
  rintro ε τ ω env query incidentId db rfl rfl
  constructor
  · intro position request hrequest row hrow secret hsecret
    obtain ⟨henabled, hlive⟩ := gatherFrom_live.1 request hrequest
    obtain ⟨connectorConfigs, connector, asked, hconnectors, hconnector, hactive, hasked, hmem⟩ :=
      gatherLive_requests hlive
    obtain ⟨hauthorize, -⟩ := connectors_answer hconnectors
    obtain rfl := listed_row hconnectors hconnector hrow
    obtain ⟨hauthorization, htarget⟩ := (askLive_eq_some hasked).1 request hmem
    have hready := h henabled hauthorize row (List.mem_of_getElem? hrow) hactive htarget
    rw [hauthorization, hready.1 secret hsecret]
    rfl
  · intro evidence hevidence position item hitem row hrow project hproject
    obtain ⟨henabled, hlive⟩ := gatherFrom_live.2 evidence item hevidence hitem
    obtain ⟨connectorConfigs, position', connector, asked, items, hconnectors, hconnector, hactive,
      hasked, hok, horigin, hmem⟩ := gatherLive_mem hlive
    cases horigin
    obtain ⟨hauthorize, -⟩ := connectors_answer hconnectors
    obtain rfl := listed_row hconnectors hconnector hrow
    have htarget := (askLive_eq_some hasked).2 items hok item hmem
    exact (h henabled hauthorize row (List.mem_of_getElem? hrow) hactive htarget).2 project hproject

/-! ## Asking one connector alone -/

/-- The index fails, every other connector fails, and every site has something to say. -/
def onlyLive (position : Nat) : Env (Rat × Rat) String Rat :=
  { planeEnv with
    fault := fun source _ =>
      if source = .connectors ∨ source = .live position then none else some incomparable
    sites := fun _ _ =>
      { searchIssues := fun _ => .ok [{ number := 1 }]
        searchCommits := fun _ => .ok []
        conversationsHistory := fun _ => .ok { ok := true, messages := [{}] } } }

variable {position : Nat}

theorem retried_faulty {answer : Except Exn α} {source : Source}
    (hconnectors : source ≠ .connectors) (hlive : source ≠ .live position) :
    retried (onlyLive position) source answer = .error incomparable := by
  have hfault (attempt : Nat) :
      attempted (onlyLive position) source attempt answer = .error incomparable := by
    have hnone : ¬ (source = .connectors ∨ source = .live position) :=
      not_or.mpr ⟨hconnectors, hlive⟩
    unfold attempted onlyLive
    dsimp only
    rw [if_neg hnone]
  unfold retried maxRetries callWithRetry
  simp only [hfault, callWithRetry]

/-- Then the index has nothing, and the sites are asked. -/
theorem gather_onlyLive (hauthorize : Users.authorize actor Tenancy.managePermission = true) :
    let answers := answersOf (onlyLive position) "" actor { connectorConfigs := rows }
    answers.connectors = .ok ((organizationRows actor rows).map redactCredential) ∧
      gatherEvidence (onlyLive position) "" actor none { connectorConfigs := rows } =
        ((gatherLiveEvidence answers).1, .ok ((gatherLiveEvidence answers).2.take evidenceCap)) := by
  intro answers
  have hconnectors : answers.connectors =
      .ok ((organizationRows actor rows).map redactCredential) := by
    show attempted (onlyLive position) .connectors 0
      (listConnectors actor actor.organizationId rows) = _
    unfold attempted onlyLive listConnectors
    dsimp only
    rw [if_pos (.inl rfl), if_neg (by simp), if_pos hauthorize]
    rfl
  have hcode : answers.code = .error incomparable := retried_faulty (by simp) (by simp)
  have hknowledge : answers.knowledge = .error incomparable := retried_faulty (by simp) (by simp)
  have hslack : answers.slack = .error incomparable := retried_faulty (by simp) (by simp)
  have hpostmortems : answers.postmortems = .error incomparable :=
    retried_faulty (by simp) (by simp)
  have hindexed : indexedEvidence (onlyLive position).clock.now (onlyLive position).engine.le
      answers = [] := by
    unfold indexedEvidence
    rw [hcode, hknowledge, hslack, hpostmortems]
    rfl
  refine ⟨hconnectors, ?_⟩
  unfold gatherEvidence gatherFrom
  dsimp only
  rw [hindexed]
  rfl

/-- Items without a time are in any order the newest. -/
theorem newestFirst_untimed (clock : Clock) {items : List GatheredItem}
    (h : ∀ item ∈ items, item.sourceTimestamp = none) :
    ∃ sorted, newestFirst clock.since items = .ok sorted ∧ ∀ item ∈ items, item ∈ sorted := by
  have hzoned : (items.any fun item =>
      (item.sourceTimestamp.getD clock.since).utcoffset.isNone) = false := by
    refine List.any_eq_false.mpr fun item hitem => ?_
    rw [h item hitem, Option.getD_none, clock.isUtc.2]
    exact Bool.false_ne_true
  unfold newestFirst
  dsimp only
  rw [hzoned, Bool.false_and, if_neg Bool.false_ne_true]
  exact ⟨_, rfl, fun item hitem => Query.mem_orderBy.mpr hitem⟩

theorem fetchGithub_answered {clock : Clock} {sites : Sites} {authorization query : String}
    {settings : LiveSettings} {limit : Nat} (hlimit : 0 < limit) (htarget : reposOf settings ≠ [])
    (hissues : ∀ request, sites.searchIssues request = .ok [{ number := 1 }])
    (hcommits : ∀ request, sites.searchCommits request = .ok []) :
    (fetchGithub sites clock authorization query settings limit).1 ≠ [] ∧
      ∃ items, (fetchGithub sites clock authorization query settings limit).2 = .ok items ∧
        items ≠ [] := by
  obtain ⟨repo, hrepo⟩ := List.exists_mem_of_ne_nil _ htarget
  have hfound (repo : String) : searchIssuesAndPulls sites clock authorization query repo ++
      searchCommits sites clock authorization query repo = [issueItem clock repo { number := 1 }] := by
    unfold searchIssuesAndPulls searchCommits
    rw [hissues, hcommits]
    rfl
  have huntimed : ∀ item ∈ (reposOf settings).flatMap (fun repo =>
      searchIssuesAndPulls sites clock authorization query repo ++
        searchCommits sites clock authorization query repo), item.sourceTimestamp = none := by
    intro item hitem
    obtain ⟨repo, -, hin⟩ := List.mem_flatMap.mp hitem
    rw [hfound, List.mem_singleton] at hin
    rw [hin]
    rfl
  obtain ⟨sorted, hsorted, hkept⟩ := newestFirst_untimed clock huntimed
  have hmem : issueItem clock repo { number := 1 } ∈ sorted := by
    refine hkept _ (List.mem_flatMap.mpr ⟨repo, hrepo, ?_⟩)
    rw [hfound]
    exact List.mem_singleton_self _
  constructor
  · refine List.ne_nil_of_mem (a := issuesRequest clock authorization query repo) ?_
    exact List.mem_flatMap.mpr ⟨repo, hrepo, List.mem_cons_self⟩
  · refine ⟨sorted.take limit, ?_, ?_⟩
    · unfold fetchGithub
      dsimp only
      rw [hsorted]
      rfl
    · rw [Ne, List.take_eq_nil_iff, not_or]
      exact ⟨by omega, List.ne_nil_of_mem hmem⟩

theorem fetchSlack_answered {clock : Clock} {sites : Sites} {authorization : String}
    {settings : LiveSettings} {limit : Nat} (hlimit : 0 < limit)
    (htarget : channelsOf settings ≠ []) (hts : clock.parseTs "" = none)
    (hhistory : ∀ request,
      sites.conversationsHistory request = .ok { ok := true, messages := [{}] }) :
    (fetchSlack sites clock authorization "" settings limit).1 ≠ [] ∧
      ∃ items, (fetchSlack sites clock authorization "" settings limit).2 = .ok items ∧
        items ≠ [] := by
  obtain ⟨channelId, hchannel⟩ := List.exists_mem_of_ne_nil _ htarget
  have hfound (channelId : String) : fetchChannelMatches sites clock authorization "" channelId =
      [slackItem clock channelId {}] := by
    unfold fetchChannelMatches
    rw [hhistory]
    rfl
  have huntimed : ∀ item ∈ (channelsOf settings).flatMap
      (fetchChannelMatches sites clock authorization ""), item.sourceTimestamp = none := by
    intro item hitem
    obtain ⟨channelId, -, hin⟩ := List.mem_flatMap.mp hitem
    rw [hfound, List.mem_singleton] at hin
    rw [hin]
    exact hts
  obtain ⟨sorted, hsorted, hkept⟩ := newestFirst_untimed clock huntimed
  have hmem : slackItem clock channelId {} ∈ sorted := by
    refine hkept _ (List.mem_flatMap.mpr ⟨channelId, hchannel, ?_⟩)
    rw [hfound]
    exact List.mem_singleton_self _
  constructor
  · refine List.ne_nil_of_mem (a := historyRequest clock authorization channelId) ?_
    exact List.mem_map_of_mem hchannel
  · refine ⟨sorted.take limit, ?_, ?_⟩
    · unfold fetchSlack
      dsimp only
      rw [hsorted]
      rfl
    · rw [Ne, List.take_eq_nil_iff, not_or]
      exact ⟨by omega, List.ne_nil_of_mem hmem⟩

/-- A first attempt that answers is the last. -/
theorem callWithRetry_first {operation : Nat → Asked α} {a : α}
    (h : (operation 0).2 = .ok a) : callWithRetry operation maxRetries = operation 0 := by
  unfold maxRetries callWithRetry
  split
  case h_1 hfirst => exact hfirst.symm
  case h_2 hfirst =>
    have hzero : (operation 0).2 = .error _ := congrArg Prod.snd hfirst
    rw [h] at hzero
    cases hzero

/-- A connector with a target is asked, and has something to show. -/
theorem askLive_onlyLive {connector : Connector} (htarget : hasTarget connector = true) :
    ∃ requests items, askLive (onlyLive position) "" position connector =
      some (requests, .ok items) ∧ requests ≠ [] ∧ items ≠ [] := by
  have hfault (answer : Except Exn (List GatheredItem)) :
      attempted (onlyLive position) (.live position) 0 answer = answer := by
    unfold attempted onlyLive
    dsimp only
    rw [if_pos (.inr rfl)]
  have hanswered (fetchLiveEvidence : Sites → Clock → String → Connector → Nat →
        Asked (List GatheredItem))
      (hfetch : liveSources connector.source = some fetchLiveEvidence)
      (hasked : (fetchLiveEvidence ((onlyLive position).sites position 0) (onlyLive position).clock ""
          connector perSourceTopK.toNat).1 ≠ [] ∧
        ∃ items, (fetchLiveEvidence ((onlyLive position).sites position 0)
          (onlyLive position).clock "" connector perSourceTopK.toNat).2 = .ok items ∧ items ≠ []) :
      ∃ requests items, askLive (onlyLive position) "" position connector =
        some (requests, .ok items) ∧ requests ≠ [] ∧ items ≠ [] := by
    obtain ⟨hrequests, items, hitems, hne⟩ := hasked
    refine ⟨_, items, ?_, hrequests, hne⟩
    unfold askLive
    rw [hfetch, Option.map_some]
    refine congrArg some ?_
    rw [callWithRetry_first ((hfault _).trans hitems)]
    exact Prod.ext rfl ((hfault _).trans hitems)
  have hlimit : 0 < perSourceTopK.toNat := by decide
  unfold hasTarget at htarget
  split at htarget
  case h_1 hsource =>
    refine hanswered _ (by rw [hsource]; rfl) (fetchGithub_answered hlimit ?_ (fun _ => rfl)
      fun _ => rfl)
    simpa using htarget
  case h_2 hsource =>
    refine hanswered _ (by rw [hsource]; rfl) (fetchSlack_answered hlimit ?_ rfl fun _ => rfl)
    simpa using htarget
  case h_3 => cases htarget

/-- Requests and items of this connector, and items of no other. -/
theorem asked_onlyLive {row : Connector}
    (hauthorize : Users.authorize actor Tenancy.managePermission = true)
    (hrow : (organizationRows actor rows)[position]? = some row) (hactive : row.status = .active)
    (htarget : hasTarget row = true) :
    let gathered := gatherEvidence (onlyLive position) "" actor none { connectorConfigs := rows }
    (∃ request, (position, request) ∈ gathered.1 ∧
        request.authorization = "Bearer " ++ redactedCredential) ∧
      ∃ evidence item, gathered.2 = .ok evidence ∧ (.live position, item) ∈ evidence := by
  intro gathered
  obtain ⟨hconnectors, hgathered⟩ := @gather_onlyLive actor rows position hauthorize
  generalize hanswers : answersOf (onlyLive position) "" actor
    { connectorConfigs := rows } = answers at hconnectors hgathered
  have hlive : answers.live = askLive (onlyLive position) "" := by
    rw [← hanswers]
    rfl
  obtain ⟨requests, items, hasked, hrequests, hitems⟩ :=
    @askLive_onlyLive position (redactCredential row) htarget
  have hentry : (redactCredential row, position) ∈
      ((organizationRows actor rows).map redactCredential).zipIdx := by
    refine List.mem_zipIdx_iff_getElem?.mpr ?_
    rw [List.getElem?_map, hrow]
    rfl
  have hask : askConnector answers (redactCredential row, position) =
      (requests.map fun request => (position, request),
        items.map fun item => (.live position, item)) := by
    have hactive' : (redactCredential row).status = .active := hactive
    unfold askConnector
    rw [if_pos hactive']
    dsimp only
    rw [hlive, hasked]
  have hgather : gatherLiveEvidence answers =
      (((organizationRows actor rows).map redactCredential).zipIdx.flatMap fun entry =>
          (askConnector answers entry).1,
        ((organizationRows actor rows).map redactCredential).zipIdx.flatMap fun entry =>
          (askConnector answers entry).2) := by
    unfold gatherLiveEvidence
    rw [hconnectors]
  constructor
  · obtain ⟨request, hrequest⟩ := List.exists_mem_of_ne_nil _ hrequests
    refine ⟨request, ?_, ((askLive_eq_some hasked).1 request hrequest).1⟩
    show _ ∈ (gatherEvidence _ _ _ _ _).1
    rw [hgathered, hgather]
    refine List.mem_flatMap.mpr ⟨_, hentry, ?_⟩
    rw [hask]
    exact List.mem_map_of_mem hrequest
  · obtain ⟨item, hitem⟩ := List.exists_mem_of_ne_nil _ hitems
    have hmem : (.live position, item) ∈ (gatherLiveEvidence answers).2 := by
      rw [hgather]
      refine List.mem_flatMap.mpr ⟨_, hentry, ?_⟩
      rw [hask]
      exact List.mem_map_of_mem hitem
    -- Every other connector fails, so that the items that the cap leaves are of this one.
    have honly : ∀ entry ∈ (gatherLiveEvidence answers).2, entry.1 = .live position := by
      intro entry hentry
      obtain ⟨-, position', connector, asked, items', -, -, -, hasked', hok, horigin, -⟩ :=
        gatherLive_mem hentry
      rw [hlive] at hasked'
      obtain ⟨fetchLiveEvidence, -, rfl⟩ := Option.map_eq_some_iff.mp hasked'
      obtain ⟨attempt, hattempt⟩ := callWithRetry_ok hok
      by_contra hother
      have hne : ¬ ((Source.live position' : Source) = .connectors ∨
          Source.live position' = .live position) := by
        rintro (hconnector | hposition)
        · cases hconnector
        · cases hposition
          exact hother horigin
      unfold attempted onlyLive at hattempt
      dsimp only at hattempt
      rw [if_neg hne] at hattempt
      cases hattempt
    obtain ⟨first, rest, hcons⟩ := List.exists_cons_of_ne_nil (List.ne_nil_of_mem hmem)
    have hfirst := honly first (by rw [hcons]; exact List.mem_cons_self)
    refine ⟨(gatherLiveEvidence answers).2.take evidenceCap, first.2, ?_, ?_⟩
    · show (gatherEvidence _ _ _ _ _).2 = _
      rw [hgathered]
    · rw [hcons, ← hfirst]
      exact List.mem_cons_self

theorem ready_of_law (h : LiveLaw decrypt reads actor rows enabled) :
    LiveReady decrypt reads actor rows enabled := by
  rintro rfl hauthorize row hrow hactive htarget
  obtain ⟨position, hposition⟩ := List.getElem?_of_mem hrow
  obtain ⟨⟨request, hrequest, hbearer⟩, evidence, item, hevidence, hitem⟩ :=
    asked_onlyLive hauthorize hposition hactive htarget
  obtain ⟨hcredential, hproject⟩ := h _ _ _ (onlyLive position) "" none
    { connectorConfigs := rows } rfl rfl
  refine ⟨fun secret hsecret => ?_, fun project hreads => ?_⟩
  · have hreal := hcredential position request hrequest row hposition secret hsecret
    rw [hbearer] at hreal
    have htext := congrArg String.toList hreal
    rw [String.toList_append, String.toList_append] at htext
    exact String.toList_inj.mp (List.append_cancel_left htext).symm
  · exact hproject evidence hevidence position item hitem row hposition project hreads

/-- Only bullets are sent, to whatever project the connector belongs. -/
theorem live_law_iff (decrypt : String → Option String) (reads : Uuid → Bool) (actor : Identity)
    (rows : List Connector) (enabled : Bool) :
    LiveLaw decrypt reads actor rows enabled ↔ LiveReady decrypt reads actor rows enabled :=
  ⟨ready_of_law, law_of_ready⟩

def manager : Identity := { investigator with permissions := {Tenancy.managePermission} }

def githubConnector : Connector where
  id := 1
  organizationId := 1
  projectId := some 7
  source := .github
  credentialRef := "ciphertext"
  config := { operator := { repos := [some "acme/api"] } }
  status := .active

/-- GitHub is asked with bullets for a token, and answers about a project that is not the actor's. -/
theorem bullets_are_sent :
    ¬ LiveLaw (fun _ => some "token") (fun _ => false) manager [githubConnector] true := by
  intro h
  obtain ⟨hcredential, -⟩ :=
    ready_of_law h rfl (by decide) githubConnector (by decide) rfl (by decide)
  exact absurd (hcredential "token" rfl) (by decide)

end Ekip.Agents.Investigation.Evidence
