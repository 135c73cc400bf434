import Ekip.Ingestion.ResumeToken
import Ekip.Ingestion.Connectors.SharePoint

/-!
# Failed syncs of the SharePoint connector

Graph keeps a log of changes for each site and answers a link from it; a delta
link only ever returns what was changed after it was issued. Against this log the
connector follows a feed, whose places are positions in the logs of its sites.
-/
namespace Ekip.Ingestion.SharePoint

open Ekip.Lib Ekip.Database Ekip.Core ResumeToken

/-! ## The source -/

/-- All changes of each site, in order, and how many were made by a time. -/
structure ChangeLog where
  changes : String → List DriveItem
  made : Instant → String → Nat
  made_mono : ∀ {t t'}, t ≤ t' → ∀ site, made t site ≤ made t' site

/-- What there is to be listed at a time. -/
def ChangeLog.listed (log : ChangeLog) (now : Instant) (url : Link) : List DriveItem :=
  ((log.changes url.site).take (log.made now url.site)).drop url.position

/-- The answer to a link: a page of the changes after it, and a link to what
comes after the page. -/
def Answers (log : ChangeLog) (now : Instant) (url : Link) (response : Response) : Prop :=
  let after : Link := { url with position := url.position + response.value.length }
  (response.value <+: log.listed now url ∧ response.nextLink = some after) ∨
    (response.value = log.listed now url ∧ response.nextLink = none ∧
      response.deltaLink = some after)

def answers (log : ChangeLog) (now : Instant) (client : SharePointClient) (cursor : Option Cursor)
    (resumeToken : Option ResumeState) (response : Response) : Prop :=
  ∀ url ∈ (client.seed resumeToken).request (decodeCursor cursor), Answers log now url response

/-! ## The feed -/

variable {siteIds : List String} {log : ChangeLog} {T : ResumeState} {c : Cursor} {siteId : String}
  {rest : List String} {p : String × Nat}

/-- Of the site at the cursor what comes after its link is ahead, and of the sites
that follow what comes after their delta links. -/
def ahead (siteIds : List String) (T : ResumeState) (c : Cursor) (p : String × Nat) : Prop :=
  match siteIds.drop c.siteIndex with
  | [] => False
  | siteId :: rest =>
    if p.1 = siteId then (c.nextLink.getD (SharePointClient.startUrl T siteId)).position ≤ p.2
    else p.1 ∈ rest ∧ (SharePointClient.startUrl T p.1).position ≤ p.2

def admits (since : Option Instant) (x : RawItem) : Prop :=
  since.all (isRecentEnough x.entry) = true

def feed (siteIds : List String) (log : ChangeLog) :
    Feed (String × Nat) RawItem ResumeState Cursor where
  holds := fun p x => x.siteId = p.1 ∧ (log.changes p.1)[p.2]? = some x.entry ∧
    x.entry.isFile = true ∧ x.entry.content = some x.content
  written := fun t p => p.2 < log.made t p.1
  written_mono := fun ht hwritten => hwritten.trans_le (log.made_mono ht _)
  root := ∅
  start := { siteIndex := 0 }
  ahead := ahead siteIds
  anchored := fun c => c.nextLink.isSome = true

theorem ahead_of_drop (h : siteIds.drop c.siteIndex = siteId :: rest) :
    ahead siteIds T c p ↔
      if p.1 = siteId then (c.nextLink.getD (SharePointClient.startUrl T siteId)).position ≤ p.2
      else p.1 ∈ rest ∧ (SharePointClient.startUrl T p.1).position ≤ p.2 := by
  unfold ahead
  rw [h]

/-- Where a site is begun, all that matters is its delta link. -/
theorem ahead_of_begun (h : c.nextLink = none) :
    ahead siteIds T c p ↔
      p.1 ∈ siteIds.drop c.siteIndex ∧ (SharePointClient.startUrl T p.1).position ≤ p.2 := by
  cases hdrop : siteIds.drop c.siteIndex with
  | nil => simp [ahead, hdrop]
  | cons siteId rest =>
    rw [ahead_of_drop hdrop, h]
    by_cases hsite : p.1 = siteId
    · simp [hsite]
    · simp [hsite]

theorem ahead_start :
    ahead siteIds T (feed siteIds log).start p ↔
      p.1 ∈ siteIds ∧ (SharePointClient.startUrl T p.1).position ≤ p.2 :=
  ahead_of_begun rfl

theorem startUrl_insert (d : Link) : SharePointClient.startUrl (T.insert siteId d) siteId = d := by
  simp [SharePointClient.startUrl]

theorem startUrl_insert_ne {site : String} (d : Link) (h : site ≠ siteId) :
    SharePointClient.startUrl (T.insert siteId d) site = SharePointClient.startUrl T site := by
  simp [SharePointClient.startUrl, AList.lookup_insert_ne h]

theorem ingestible_eq_some {since : Option Instant} {entry : DriveItem} {x : RawItem} :
    ingestible since siteId entry = some x ↔
      entry.isFile = true ∧ admits since x ∧ x.siteId = siteId ∧ x.entry = entry ∧
        entry.content = some x.content := by
  unfold ingestible admits
  constructor
  · intro h
    split at h
    · rename_i hcond
      obtain ⟨content, hcontent, rfl⟩ := Option.map_eq_some_iff.mp h
      exact ⟨hcond.1, hcond.2, rfl, rfl, hcontent⟩
    · cases h
  · rintro ⟨hfile, hsince, rfl, rfl, hcontent⟩
    rw [if_pos ⟨hfile, hsince⟩, hcontent]
    rfl

/-! ## One page -/

section Page

variable {now : Instant} {since : Option Instant} {url : Link} {value : List DriveItem} {x : RawItem}

/-- What is on the page is what the log holds from the link on. -/
theorem getElem?_page (h : value <+: log.listed now url) {i : Nat} {entry : DriveItem}
    (hentry : value[i]? = some entry) :
    (log.changes url.site)[url.position + i]? = some entry ∧
      url.position + i < log.made now url.site := by
  obtain ⟨tail, htail⟩ := h
  have hlisted : (log.listed now url)[i]? = some entry := by
    rw [← htail, List.getElem?_append_left (List.getElem?_eq_some_iff.mp hentry).1, hentry]
  unfold ChangeLog.listed at hlisted
  rw [List.getElem?_drop, List.getElem?_take] at hlisted
  split at hlisted
  · rename_i hmade
    exact ⟨hlisted, hmade⟩
  · cases hlisted

theorem sound_page (h : value <+: log.listed now url) (hsite : url.site = siteId)
    (hx : x ∈ value.filterMap (ingestible since siteId)) :
    ∃ q, url.position ≤ q ∧ (feed siteIds log).holds (siteId, q) x ∧
      (feed siteIds log).written now (siteId, q) ∧ admits since x := by
  obtain ⟨entry, hentry, hingestible⟩ := List.mem_filterMap.mp hx
  obtain ⟨hfile, hadmits, hsiteId, rfl, hcontent⟩ := ingestible_eq_some.mp hingestible
  obtain ⟨i, hi⟩ := List.mem_iff_getElem?.mp hentry
  obtain ⟨hchange, hmade⟩ := getElem?_page h hi
  rw [hsite] at hchange hmade
  exact ⟨url.position + i, Nat.le_add_right _ _, ⟨hsiteId, hchange, hfile, hcontent⟩, hmade,
    hadmits⟩

/-- A change between the link and the end of the page is on the page. -/
theorem mem_page (h : value <+: log.listed now url) (hsite : url.site = siteId) {q : Nat}
    (hx : (feed siteIds log).holds (siteId, q) x) (hadmits : admits since x)
    (hle : url.position ≤ q) (hlt : q < url.position + value.length) :
    x ∈ value.filterMap (ingestible since siteId) := by
  obtain ⟨hsiteId, hchange, hfile, hcontent⟩ := hx
  have hi : q - url.position < value.length := by omega
  obtain ⟨hthere, -⟩ := getElem?_page h (List.getElem?_eq_getElem hi)
  rw [hsite, Nat.add_sub_cancel' hle] at hthere
  refine List.mem_filterMap.mpr ⟨x.entry, ?_, ?_⟩
  · rw [Option.some.inj (hchange.symm.trans hthere)]
    exact List.getElem_mem hi
  · exact ingestible_eq_some.mpr ⟨hfile, hadmits, hsiteId, rfl, hcontent⟩

variable {E : ResumeState} (hdrop : siteIds.drop c.siteIndex = siteId :: rest)
  (hurl : c.nextLink.getD (SharePointClient.startUrl E siteId) = url) (hsite : url.site = siteId)
include hdrop hurl hsite

/-- A page in the middle of a site. -/
theorem advance_nextLink (hvalue : value <+: log.listed now url) :
    (feed siteIds log).Advance (admits since) now E c (value.filterMap (ingestible since siteId)) E
      (some { siteIndex := c.siteIndex, nextLink := some { url with
        position := url.position + value.length } }) := by
  have hahead : ∀ p, ahead siteIds E c p ↔ if p.1 = siteId then url.position ≤ p.2
      else p.1 ∈ rest ∧ (SharePointClient.startUrl E p.1).position ≤ p.2 := by
    intro p
    rw [ahead_of_drop hdrop, hurl]
  have hnext : ∀ p, ahead siteIds E { siteIndex := c.siteIndex, nextLink := some { url with
      position := url.position + value.length } } p ↔
        if p.1 = siteId then url.position + value.length ≤ p.2
        else p.1 ∈ rest ∧ (SharePointClient.startUrl E p.1).position ≤ p.2 := by
    intro p
    exact ahead_of_drop (c := { siteIndex := c.siteIndex, nextLink := some _ }) hdrop
  constructor
  · rintro ⟨site, q⟩ x hx - hadmits hp
    have hp := (hahead _).mp hp
    by_cases hs : site = siteId
    · subst hs
      rw [if_pos rfl] at hp
      by_cases hq : q < url.position + value.length
      · exact .inl (mem_page hvalue hsite hx hadmits hp hq)
      · refine .inr ⟨_, rfl, (hnext _).mpr ?_⟩
        rw [if_pos rfl]
        exact Nat.le_of_not_lt hq
    · refine .inr ⟨_, rfl, (hnext _).mpr ?_⟩
      rw [if_neg hs] at hp ⊢
      exact hp
  · intro x hx
    obtain ⟨q, hle, hholds, hwritten, hadmits⟩ := sound_page hvalue hsite hx
    exact ⟨hadmits, (siteId, q), hholds, hwritten, (hahead _).mpr (by rwa [if_pos rfl])⟩
  · rintro c' hc' p hp
    obtain rfl := Option.some.inj hc'
    have hp := (hnext p).mp hp
    refine (hahead p).mpr ?_
    split at hp
    · rename_i hs
      rw [if_pos hs]
      omega
    · rename_i hs
      rwa [if_neg hs]
  · exact fun p x _ _ _ hstart => .inl hstart
  · exact fun _ p => Iff.rfl

/-- The last page of a site, and its delta link. -/
theorem advance_deltaLink (hvalue : value = log.listed now url) :
    (feed siteIds log).Advance (admits since) now E c (value.filterMap (ingestible since siteId))
      (E.insert siteId { url with position := url.position + value.length })
      (if c.siteIndex + 1 < siteIds.length then some { siteIndex := c.siteIndex + 1 }
        else none) := by
  have hpage : value <+: log.listed now url := hvalue ▸ List.prefix_rfl
  have hahead : ∀ p, ahead siteIds E c p ↔ if p.1 = siteId then url.position ≤ p.2
      else p.1 ∈ rest ∧ (SharePointClient.startUrl E p.1).position ≤ p.2 := by
    intro p
    rw [ahead_of_drop hdrop, hurl]
  have hrest : siteIds.drop (c.siteIndex + 1) = rest := by
    rw [← List.drop_drop, hdrop]
    rfl
  have hnext : ∀ T p, ahead siteIds T { siteIndex := c.siteIndex + 1 } p ↔
      p.1 ∈ rest ∧ (SharePointClient.startUrl T p.1).position ≤ p.2 := by
    intro T p
    rw [ahead_of_begun rfl, hrest]
  constructor
  · rintro ⟨site, q⟩ x hx hwritten hadmits hp
    have hp := (hahead _).mp hp
    by_cases hs : site = siteId
    · subst hs
      rw [if_pos rfl] at hp
      refine .inl (mem_page hpage hsite hx hadmits hp ?_)
      have hlength := (List.getElem?_eq_some_iff.mp hx.2.1).1
      have hmade : q < log.made now site := hwritten
      rw [hvalue]
      simp only [ChangeLog.listed, hsite, List.length_drop, List.length_take]
      have hle : url.position ≤ q := hp
      have hlt : q < (log.changes site).length := hlength
      omega
    · rw [if_neg hs] at hp
      have hlt : c.siteIndex + 1 < siteIds.length := by
        have hpos := List.length_pos_of_mem (hrest ▸ hp.1)
        rw [List.length_drop] at hpos
        omega
      refine .inr ⟨_, if_pos hlt, (hnext _ _).mpr ⟨hp.1, ?_⟩⟩
      rw [startUrl_insert_ne _ hs]
      exact hp.2
  · intro x hx
    obtain ⟨q, hle, hholds, hwritten, hadmits⟩ := sound_page hpage hsite hx
    exact ⟨hadmits, (siteId, q), hholds, hwritten, (hahead _).mpr (by rwa [if_pos rfl])⟩
  · intro c' hc' p hp
    obtain ⟨-, hc'⟩ := Option.ite_none_right_eq_some.mp hc'
    obtain rfl := Option.some.inj hc'
    obtain ⟨hmem, hle⟩ := (hnext _ p).mp hp
    refine (hahead p).mpr ?_
    by_cases hs : p.1 = siteId
    · rw [hs, startUrl_insert] at hle
      rw [if_pos hs]
      exact (Nat.le_add_right _ _).trans hle
    · rw [startUrl_insert_ne _ hs] at hle
      rw [if_neg hs]
      exact ⟨hmem, hle⟩
  · rintro ⟨site, q⟩ x hx hadmits hp hstart
    obtain ⟨hmem, hle⟩ := ahead_start.mp hstart
    have hp := (hahead _).mp hp
    by_cases hs : site = siteId
    · subst hs
      rw [if_pos rfl] at hp
      by_cases hq : q < url.position + value.length
      · exact .inr (mem_page hpage hsite hx hadmits hp hq)
      · refine .inl (ahead_start.mpr ⟨hmem, ?_⟩)
        rw [startUrl_insert]
        exact Nat.le_of_not_lt hq
    · refine .inl (ahead_start.mpr ⟨hmem, ?_⟩)
      rw [startUrl_insert_ne _ hs]
      exact hle
  · intro hanchored p
    obtain ⟨link, hlink⟩ := Option.isSome_iff_exists.mp hanchored
    change ahead siteIds _ c p ↔ ahead siteIds E c p
    rw [ahead_of_drop hdrop, ahead_of_drop hdrop, hlink]
    by_cases hs : p.1 = siteId
    · rw [if_pos hs, if_pos hs]
      rfl
    · rw [if_neg hs, if_neg hs, startUrl_insert_ne _ hs]

end Page

/-- Past the last site nothing is ahead. -/
theorem advance_nowhere {now : Instant} {since : Option Instant} {E : ResumeState}
    (h : siteIds[c.siteIndex]? = none) :
    (feed siteIds log).Advance (admits since) now E c [] E none := by
  have hnone : ∀ p, ¬ ahead siteIds E c p := by
    intro p hp
    rw [ahead, List.drop_eq_nil_of_le (List.getElem?_eq_none_iff.mp h)] at hp
    exact hp
  constructor
  · exact fun p x _ _ _ hp => absurd hp (hnone p)
  · exact fun x hx => absurd hx List.not_mem_nil
  · exact fun c' hc' => by cases hc'
  · exact fun p x _ _ _ hstart => .inl hstart
  · exact fun _ p => Iff.rfl

/-! ## The connector follows the feed -/

/-- Every link leads to its own site. -/
def Located (T : ResumeState) : Prop := ∀ site, (SharePointClient.startUrl T site).site = site

theorem located_empty : Located ∅ := fun _ => rfl

theorem located_insert {d : Link} (h : Located T) (hd : d.site = siteId) :
    Located (T.insert siteId d) := by
  intro site
  by_cases hs : site = siteId
  · rw [hs, startUrl_insert, hd]
  · rw [startUrl_insert_ne _ hs]
    exact h site

def follows (siteIds : List String) (log : ChangeLog) :
    Follows sharePointConnector { siteIds } (feed siteIds log) admits (answers log) where
  effective := fun client T => (client.seed T).resumeState
  client := fun client => client.siteIds = siteIds
  token := Located
  cursor := fun c => ∀ link ∈ c.nextLink, siteIds[c.siteIndex]? = some link.site
  supports := rfl
  root := located_empty
  start := fun link hlink => by cases hlink
  authenticate := by
    intro client hclient
    simp only [sharePointConnector, authenticate] at hclient
    split at hclient
    · cases hclient
    · cases hclient
      refine ⟨rfl, fun T => ?_⟩
      cases T with
      | none | some token => rfl
  fetch := by
    rintro now client response since cursor T rfl hlocated hcursor hanswer
    cases hsite : client.siteIds[(decodeCursor cursor).siteIndex]? with
    | none =>
      have hfetch : sharePointConnector.fetchBatch client response since cursor T = _ :=
        fetchBatch_nowhere hsite
      rw [hfetch]
      refine ⟨seed_siteIds client T, ?_, fun c' hc' => (by cases hc'), ?_⟩
      · rwa [seed_seed]
      · dsimp only
        rw [seed_seed]
        exact ⟨advance_nowhere hsite, rfl, fun _ c' hc' => by cases hc'⟩
    | some siteId =>
      obtain ⟨hlt, hget⟩ := List.getElem?_eq_some_iff.mp hsite
      have hdrop : client.siteIds.drop (decodeCursor cursor).siteIndex =
          siteId :: client.siteIds.drop ((decodeCursor cursor).siteIndex + 1) := by
        rw [List.drop_eq_getElem_cons hlt, hget]
      obtain ⟨url, hurl⟩ : ∃ url, (decodeCursor cursor).nextLink.getD
          (SharePointClient.startUrl (client.seed T).resumeState siteId) = url := ⟨_, rfl⟩
      have hurlSite : url.site = siteId := by
        rw [← hurl]
        cases hlink : (decodeCursor cursor).nextLink with
        | none => exact hlocated siteId
        | some link => exact (Option.some.inj (hsite.symm.trans (hcursor link hlink))).symm
      have hrequest : (client.seed T).request (decodeCursor cursor) = some url := by
        simp [SharePointClient.request, seed_siteIds, hsite, hurl]
      rcases hanswer url hrequest with ⟨hvalue, hnext⟩ | ⟨hvalue, hnext, hdelta⟩
      · have hfetch : sharePointConnector.fetchBatch client response since cursor T = _ :=
          fetchBatch_nextLink hsite hnext
        rw [hfetch]
        refine ⟨seed_siteIds client T, ?_, ?_, ?_⟩
        · rwa [seed_seed]
        · rintro c' hc' link hlink
          obtain rfl := Option.some.inj hc'
          obtain rfl := Option.some.inj hlink
          rw [hsite, hurlSite]
        · dsimp only
          rw [seed_seed]
          refine ⟨advance_nextLink hdrop hurl hurlSite hvalue, rfl, ?_⟩
          intro _ c' hc'
          obtain rfl := Option.some.inj hc'
          rfl
      · have hfetch : sharePointConnector.fetchBatch client response since cursor T = _ :=
          fetchBatch_deltaLink hsite hnext hdelta
        rw [hfetch]
        dsimp only
        rw [seed_insert]
        refine ⟨seed_siteIds client T, located_insert hlocated hurlSite, ?_, ?_⟩
        · rintro c' hc' link hlink
          rw [FetchResult.next_ite] at hc'
          obtain ⟨-, hc'⟩ := Option.ite_none_right_eq_some.mp hc'
          obtain rfl := Option.some.inj hc'
          cases hlink
        · refine ⟨?_, rfl, fun hnone => by cases hnone⟩
          rw [FetchResult.next_ite]
          exact advance_deltaLink hdrop hurl hurlSite hvalue

/-! ## Runs -/

abbrev SharePointWorker :=
  Worker SharePointConfig SharePointClient Response RawItem Cursor ResumeState

abbrev SharePointSt := St SharePointConfig SharePointClient Response RawItem Cursor ResumeState

def sharePointWorker (settings : Settings) (contentHash : RawDocument → Except Exn String) :
    SharePointWorker where
  settings := settings
  contentHash := contentHash
  connector := sharePointConnector

/-- Every execution that walks to its end is returned what the executions before
it were returned and had not committed, as long as none begins at a loss: it
resumes the checkpoint of the execution before it, or nothing that is owed was
left on a page whose token the failure path has stored. -/
theorem failedSync_returnedAgain (settings : Settings)
    (contentHash : RawDocument → Except Exn String) (siteIds : List String) (log : ChangeLog)
    (documents : List Document) {s : SharePointSt}
    (h : Run (step (sharePointWorker settings contentHash))
      (Admitted (sharePointWorker settings contentHash) admits (answers log))
      (.registered "sharepoint" { siteIds } documents) s) : ReturnedAgain s := by
  have hfollows : Follows (sharePointWorker settings contentHash).connector { siteIds }
      (feed siteIds log) admits (answers log) := follows siteIds log
  exact returnedAgain_of_follows hfollows h

/-! ## A site with two files -/

instance (log : ChangeLog) (now : Instant) (url : Link) (response : Response) :
    Decidable (Answers log now url response) :=
  inferInstanceAs (Decidable ((_ ∧ _) ∨ (_ ∧ _ ∧ _)))

instance (log : ChangeLog) (now : Instant) (client : SharePointClient) (cursor : Option Cursor)
    (resumeToken : Option ResumeState) (response : Response) :
    Decidable (answers log now client cursor resumeToken response) :=
  inferInstanceAs (Decidable (∀ _ ∈ _, _))

instance (since : Option Instant) (x : RawItem) : Decidable (admits since x) :=
  inferInstanceAs (Decidable (_ = true))

instance (worker : SharePointWorker) (log : ChangeLog) : ∀ (s : SharePointSt) (a : Label Response),
    Decidable (Answered worker (answers log) s a)
  | s, .fetched now remote =>
    match h : s.phase with
    | .fetching job client =>
      decidable_of_iff (answers log now client job.cursor (job.passedToken worker) remote)
        (by simp only [Answered, h])
    | .idle | .authenticating _ | .refused _ | .processing _ _ _ _ =>
      isTrue (by simp only [Answered, h])
  | _, .started _ _ | _, .authenticated _ | _, .processed _ | _, .saved _ | _, .completed _
  | _, .raised _ _ => inferInstanceAs (Decidable True)

instance (worker : SharePointWorker) (s : SharePointSt) (forceFullSync : Bool) :
    Decidable (MayStart worker admits s forceFullSync) :=
  inferInstanceAs (Decidable (if (s.load worker forceFullSync).isSome then s.ownCheckpoint = true
    else ∀ x ∈ s.returned, x ∉ s.committed → x ∉ s.exposed ∧ admits (s.baseSince forceFullSync) x))

instance (worker : SharePointWorker) : ∀ (s : SharePointSt) (a : Label Response),
    Decidable (Resumable worker admits s a)
  | s, .started now forceFullSync =>
    inferInstanceAs (Decidable (MayStart worker admits (s.tick now) forceFullSync))
  | _, .authenticated _ | _, .fetched _ _ | _, .processed _ | _, .saved _ | _, .completed _
  | _, .raised _ _ => inferInstanceAs (Decidable True)

instance (worker : SharePointWorker) (log : ChangeLog) (s : SharePointSt) (a : Label Response) :
    Decidable (Admitted worker admits (answers log) s a) :=
  inferInstanceAs (Decidable (_ ∧ _))

/-- The content stands for its hash. -/
def plainWorker : SharePointWorker :=
  sharePointWorker
    { ingestionCheckpointTtl := 100, ingestionMaxPagesPerAttempt := 10
      ingestionMaxItemsPerPage := 10 } fun raw => .ok raw.content

def notes : DriveItem := { id := "1", name := some "notes.md", content := some "notes" }
def plan : DriveItem := { id := "2", name := some "plan.md", content := some "plan" }

def twoFiles : ChangeLog where
  changes := fun site => if site = "site" then [notes, plan] else []
  made := fun _ _ => 2
  made_mono := fun _ _ => Nat.le_refl _

def oneSite : SharePointSt := .registered "sharepoint" { siteIds := ["site"] } []

/-- The execution fails on the second page, which carries the delta link. The
next one resumes from the checkpoint after the first. -/
def resumedSync : List (Label Response) :=
  [.started 1 false, .authenticated 1,
   .fetched 2 { value := [notes], nextLink := some ⟨"site", 1⟩ }, .processed 2, .saved 2,
   .fetched 3 { value := [plan], deltaLink := some ⟨"site", 2⟩ }, .raised 3 true,
   .started 4 false, .authenticated 4,
   .fetched 5 { value := [plan], deltaLink := some ⟨"site", 2⟩ }, .processed 5]

/-- The execution fails on its only page. There is no checkpoint, and the next
one begins after the delta link. -/
def skippedSync : List (Label Response) :=
  [.started 1 false, .authenticated 1,
   .fetched 2 { value := [notes, plan], deltaLink := some ⟨"site", 2⟩ }, .raised 3 true,
   .started 4 false, .authenticated 4,
   .fetched 5 { deltaLink := some ⟨"site", 2⟩ }]

theorem failedSync_resumed : ∃ s,
    execWithin (step plainWorker) (Admitted plainWorker admits (answers twoFiles)) oneSite
      resumedSync = some s ∧ (∃ x returned, walkedOut s = some ([x], returned)) ∧
    ReturnedAgain s := by
  have hsync : (execWithin (step plainWorker) (Admitted plainWorker admits (answers twoFiles))
      oneSite resumedSync).map walkedOut =
        some (some ([⟨"site", plan, "plan"⟩], [⟨"site", plan, "plan"⟩])) := by decide
  obtain ⟨s, hs, hend⟩ := Option.map_eq_some_iff.mp hsync
  exact ⟨s, hs, ⟨_, _, hend⟩, failedSync_returnedAgain _ _ ["site"] twoFiles []
    (run_of_execWithin hs)⟩

/-- Both files were returned to the first execution, neither is committed, and
the second one is returned nothing. -/
theorem failedSync_skipped : ∃ s,
    execWithin (step plainWorker) (Answered plainWorker (answers twoFiles)) oneSite skippedSync =
      some s ∧ ¬ ReturnedAgain s := by
  have hsync : (execWithin (step plainWorker) (Answered plainWorker (answers twoFiles))
      oneSite skippedSync).map walkedOut =
        some (some ([⟨"site", notes, "notes"⟩, ⟨"site", plan, "plan"⟩], [])) := by decide
  obtain ⟨s, hs, hend⟩ := Option.map_eq_some_iff.mp hsync
  exact ⟨s, hs, fun hagain => absurd (hagain.mem hend _ List.mem_cons_self) List.not_mem_nil⟩

end Ekip.Ingestion.SharePoint
