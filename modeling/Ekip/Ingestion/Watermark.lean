import Ekip.Ingestion.Execution

/-!
# The watermark of incremental syncs

A source is a set of items and the history of their modifications. A page shows
some items as they are when it is fetched, and the connector keeps those that
were modified at or after `since`. A run that completes moves `last_synced_at` to
the time of its completion, which is later than any of its fetches.
-/
namespace Ekip.Ingestion.Watermark

open Ekip.Lib Ekip.Database Ekip.Core

/-! ## The source -/

structure Modification where
  item : String
  time : Instant
  content : String
deriving DecidableEq

/-- The state of an item at `τ`. -/
def stateAt (history : List Modification) (item : String) (τ : Instant) : Option Modification :=
  (history.filter fun m => m.item = item ∧ m.time ≤ τ).argmax Modification.time

structure Listing (κ : Type) where
  entries : List Modification
  nextCursor : Option κ := none
  hasMore : Bool := false

variable {υ κ : Type}

/-- Each item of the page is shown as it is at `τ`. -/
def Listing.Shows (listing : Listing κ) (history : List Modification) (τ : Instant) : Prop :=
  ∀ e ∈ listing.entries, stateAt history e.item τ = some e

instance (listing : Listing κ) (history : List Modification) (τ : Instant) :
    Decidable (listing.Shows history τ) :=
  inferInstanceAs (Decidable (∀ _ ∈ _, _))

/-- A connector without resume tokens. What is on a page, and in which order
pages follow each other, is up to the source. -/
def timedConnector (sourceName : String) (blank : κ → Bool) :
    Connector υ Unit (Listing κ) Modification κ Empty where
  sourceName := sourceName
  authenticate := fun _ => .ok ()
  fetchBatch := fun client listing since _ _ =>
    ({ items := listing.entries.filter fun e => admitsTime since e.time
       nextCursor := listing.nextCursor
       hasMore := listing.hasMore }, client)
  normalize := fun e => { source := sourceName, externalId := e.item, content := e.content }
  blank := blank

theorem stateAt_some {history : List Modification} {item : String} {τ : Instant} {e : Modification}
    (h : stateAt history item τ = some e) : e ∈ history ∧ e.item = item ∧ e.time ≤ τ := by
  simpa using List.argmax_mem h

/-- The state at `τ` is not older than a modification before `τ`. -/
theorem le_stateAt {history : List Modification} {item : String} {τ : Instant} {e m : Modification}
    (h : stateAt history item τ = some e) (hm : m ∈ history) (hitem : m.item = item)
    (htime : m.time ≤ τ) : m.time ≤ e.time :=
  List.le_of_mem_argmax (by simp [hm, hitem, htime]) h

/-! ## What a sync must not lose -/

variable (settings : Settings)
  (contentHash : RawDocument → Except Exn String) (sourceName : String) (blank : κ → Bool)
  (history : List Modification)

abbrev TimedWorker (υ κ : Type) := Worker υ Unit (Listing κ) Modification κ Empty

abbrev TimedSt (υ κ : Type) := St υ Unit (Listing κ) Modification κ Empty

abbrev TimedJob (κ : Type) := Job (Listing κ) Modification κ Empty

def timedWorker : TimedWorker υ κ where
  settings := settings
  contentHash := contentHash
  connector := timedConnector sourceName blank

/-- The current document of the item is its content at some time from `t` on. -/
def Reflects (worker : TimedWorker υ κ) (documents : List Document) (fetchedAt : Instant)
    (item : String) (t : Instant) : Prop :=
  ∃ τ e, t ≤ τ ∧ τ ≤ fetchedAt ∧ stateAt history item τ = some e ∧
    Current worker documents (worker.connector.normalize e)

/-- Every modification is reflected, or passes the filter of the next
incremental run. -/
def NothingLost (worker : TimedWorker υ κ) (s : TimedSt υ κ) : Prop :=
  ∀ m ∈ history,
    Reflects history worker s.documents s.fetchedAt m.item m.time ∨
      admitsTime s.row.lastSyncedAt m.time = true

/-- What the source promises: a page shows items as they are when it is fetched. -/
def Outside : TimedSt υ κ → Label (Listing κ) → Prop
  | _, .fetched now listing => listing.Shows history now
  | _, _ => True

/-- The page lists the item, at the time of the modification or later. -/
def ListedAfter (m : Modification) (page : FetchedPage (Listing κ)) : Prop :=
  m.time ≤ page.fetchedAt ∧ ∃ e ∈ page.remote.entries, e.item = m.item

/-- When a run completes, what was modified since the last completion is followed
by a page of the walk that lists the item. -/
def CaughtUp : TimedSt υ κ → Label (Listing κ) → Prop
  | s, .completed now =>
    ∀ m ∈ history, admitsTime s.row.lastSyncedAt m.time = true → m.time < now →
      ∀ job ∈ s.phase.job?, ∃ page ∈ job.walked, ListedAfter m page
  | _, _ => True

instance : ∀ (s : TimedSt υ κ) (a : Label (Listing κ)), Decidable (Outside history s a)
  | _, .fetched _ _ => inferInstanceAs (Decidable (Listing.Shows _ _ _))
  | _, .started _ _ | _, .authenticated _ | _, .processed _ | _, .saved _ | _, .completed _
  | _, .raised _ _ => inferInstanceAs (Decidable True)

def Admitted (s : TimedSt υ κ) (a : Label (Listing κ)) : Prop :=
  Outside history s a ∧ CaughtUp history s a

/-! ## The invariant -/

/-- `since` lets through whatever `base` lets through. -/
def NotAfter (since base : Option Instant) : Prop :=
  ∀ t, admitsTime base t = true → admitsTime since t = true

/-- Of the pages of a walk everything is reflected, but what is still to be
processed of the last one. -/
structure Walked (worker : TimedWorker υ κ) (documents : List Document) (fetchedAt : Instant)
    (since : Option Instant) (pages : List (FetchedPage (Listing κ))) (rest : List Modification) : Prop where
  shows : ∀ page ∈ pages, page.remote.Shows history page.fetchedAt
  reflects : ∀ page ∈ pages, ∀ e ∈ page.remote.entries, admitsTime since e.time = true →
    (page.fetchedAt = fetchedAt ∧ e ∈ rest) ∨
      Reflects history worker documents fetchedAt e.item page.fetchedAt
  current : ∀ e ∈ rest, stateAt history e.item fetchedAt = some e

/-- An execution that is under way. -/
structure Running (worker : TimedWorker υ κ) (row : IngestionRow υ κ Empty)
    (documents : List Document) (fetchedAt : Instant) (job : TimedJob κ)
    (rest : List Modification) : Prop where
  connected : row.status ≠ .disconnected
  since : NotAfter job.since row.lastSyncedAt
  walked : Walked history worker documents fetchedAt job.since job.walked rest

def PhaseInv (worker : TimedWorker υ κ) (s : TimedSt υ κ) : Prop :=
  match s.phase with
  | .idle | .refused _ => True
  | .authenticating job | .fetching job _ => Running history worker s.row s.documents s.fetchedAt job []
  | .processing job _ _ rest => Running history worker s.row s.documents s.fetchedAt job rest

structure Inv (worker : TimedWorker υ κ) (s : TimedSt υ κ) : Prop where
  nothingLost : NothingLost history worker s
  checkpoint : ∀ C ∈ s.row.config.ingestionCheckpoint,
    NotAfter C.since s.row.lastSyncedAt ∧
      Walked history worker s.documents s.fetchedAt C.since s.walked []
  fetchedAt : s.fetchedAt ≤ s.clock
  phase : PhaseInv history worker s

variable {history} {worker : TimedWorker υ κ} {s s' : TimedSt υ κ}
  {documents documents' : List Document} {fetchedAt fetchedAt' t t' : Instant} {item : String}
  {since base : Option Instant} {pages : List (FetchedPage (Listing κ))} {rest : List Modification}

theorem notAfter_none : NotAfter none base := fun _ _ => rfl

theorem notAfter_refl : NotAfter base base := fun _ h => h

theorem admitsTime_of_le (ht : t ≤ t') (h : admitsTime since t = true) :
    admitsTime since t' = true := by
  cases since with
  | none => rfl
  | some bound =>
    simp only [admitsTime, Option.all_some, decide_eq_true_eq] at h ⊢
    exact h.trans ht

theorem Reflects.earlier (h : Reflects history worker documents fetchedAt item t) (ht : t' ≤ t) :
    Reflects history worker documents fetchedAt item t' := by
  obtain ⟨τ, e, hτ, hfetched, hstate, hcurrent⟩ := h
  exact ⟨τ, e, ht.trans hτ, hfetched, hstate, hcurrent⟩

/-- Fetching a page does not change what is reflected. -/
theorem Reflects.later (h : Reflects history worker documents fetchedAt item t)
    (hfetched : fetchedAt ≤ fetchedAt') : Reflects history worker documents fetchedAt' item t := by
  obtain ⟨τ, e, hτ, hbound, hstate, hcurrent⟩ := h
  exact ⟨τ, e, hτ, hbound.trans hfetched, hstate, hcurrent⟩

theorem Walked.later (h : Walked history worker documents fetchedAt since pages [])
    (hfetched : fetchedAt ≤ fetchedAt') :
    Walked history worker documents fetchedAt' since pages [] where
  shows := h.shows
  reflects := by
    intro page hpage e he hsince
    rcases h.reflects page hpage e he hsince with ⟨-, hrest⟩ | hreflects
    · cases hrest
    · exact .inr (hreflects.later hfetched)
  current := fun _ hrest => absurd hrest List.not_mem_nil

/-- Nothing has been walked yet. -/
theorem walked_nil : Walked history worker documents fetchedAt since [] [] where
  shows := fun _ hpage => absurd hpage List.not_mem_nil
  reflects := fun _ hpage => absurd hpage List.not_mem_nil
  current := fun _ hrest => absurd hrest List.not_mem_nil

/-! ## One item -/

/-- The document of an item that is processed has its content as it was when the
page was fetched. -/
theorem reflects_processed {e : Modification} {written : Nat}
    (hprocess : processOneItem worker documents e = .ok (written, documents'))
    (hstate : stateAt history e.item fetchedAt = some e) :
    Reflects history worker documents' fetchedAt e.item fetchedAt :=
  ⟨fetchedAt, e, Nat.le_refl _, Nat.le_refl _, hstate, (processOneItem_ok hprocess).1⟩

variable (hconnector : ∃ sourceName blank, worker.connector = timedConnector sourceName blank)
include hconnector

/-- What was reflected stays so: the item that is processed is now shown at a
later time, and other items keep their documents. -/
theorem Reflects.processed {e : Modification} {written : Nat}
    (h : Reflects history worker documents fetchedAt item t)
    (hprocess : processOneItem worker documents e = .ok (written, documents'))
    (hstate : stateAt history e.item fetchedAt = some e) :
    Reflects history worker documents' fetchedAt item t := by
  obtain ⟨sourceName, blank, hconnector⟩ := hconnector
  obtain ⟨τ, shown, hτ, hbound, hshown, hcurrent⟩ := h
  by_cases hitem : item = e.item
  · rw [hitem]
    exact (reflects_processed hprocess hstate).earlier (hτ.trans hbound)
  · refine ⟨τ, shown, hτ, hbound, hshown, ?_⟩
    have hother : (worker.connector.normalize shown).externalId ≠
        (worker.connector.normalize e).externalId := by
      rw [hconnector]
      change shown.item ≠ e.item
      rwa [(stateAt_some hshown).2.1]
    obtain ⟨hash, hhash, hlatest⟩ := hcurrent
    refine ⟨hash, hhash, ?_⟩
    rwa [(processOneItem_ok hprocess).2 _ hother]

/-- The items of the last page are worked off one by one. -/
theorem Walked.processed {e : Modification} {written : Nat}
    (h : Walked history worker documents fetchedAt since pages (e :: rest))
    (hprocess : processOneItem worker documents e = .ok (written, documents')) :
    Walked history worker documents' fetchedAt since pages rest where
  shows := h.shows
  reflects := by
    have hstate := h.current e List.mem_cons_self
    intro page hpage e' he' hsince
    rcases h.reflects page hpage e' he' hsince with ⟨hlast, hrest⟩ | hreflects
    · rcases List.mem_cons.mp hrest with rfl | hrest
      · rw [hlast]
        exact .inr (reflects_processed hprocess hstate)
      · exact .inl ⟨hlast, hrest⟩
    · exact .inr (hreflects.processed hconnector hprocess hstate)
  current := fun e' he' => h.current e' (List.mem_cons_of_mem _ he')

/-- A walk that has been worked off stays so. -/
theorem Walked.settled {e : Modification} {written : Nat}
    (h : Walked history worker documents fetchedAt since pages [])
    (hprocess : processOneItem worker documents e = .ok (written, documents'))
    (hstate : stateAt history e.item fetchedAt = some e) :
    Walked history worker documents' fetchedAt since pages [] where
  shows := h.shows
  reflects := by
    intro page hpage e' he' hsince
    rcases h.reflects page hpage e' he' hsince with ⟨-, hrest⟩ | hreflects
    · cases hrest
    · exact .inr (hreflects.processed hconnector hprocess hstate)
  current := fun _ hrest => absurd hrest List.not_mem_nil

/-- A page is added to the walk when it is fetched, and what passes the filter
is to be processed. -/
theorem Walked.fetched {job : TimedJob κ} {client client' : Unit} {listing : Listing κ}
    {page : FetchResult Modification κ Empty} {now : Instant}
    (h : Walked history worker documents fetchedAt job.since job.walked [])
    (hnow : fetchedAt ≤ now) (hshows : listing.Shows history now)
    (hpage : job.fetchBatch worker client listing = (page, client')) :
    Walked history worker documents now job.since (job.receive now listing page).walked
      page.items := by
  obtain ⟨sourceName, blank, hconnector⟩ := hconnector
  simp only [Job.fetchBatch, hconnector, timedConnector, Prod.mk.injEq] at hpage
  obtain ⟨rfl, -⟩ := hpage
  constructor
  · intro fetched hfetched
    rcases List.mem_append.mp hfetched with hfetched | hlast
    · exact h.shows fetched hfetched
    · rw [List.mem_singleton.mp hlast]
      exact hshows
  · intro fetched hfetched e he hsince
    rcases List.mem_append.mp hfetched with hfetched | hlast
    · rcases h.reflects fetched hfetched e he hsince with ⟨-, hrest⟩ | hreflects
      · cases hrest
      · exact .inr (hreflects.later hnow)
    · obtain rfl := List.mem_singleton.mp hlast
      exact .inl ⟨rfl, List.mem_filter.mpr ⟨he, hsince⟩⟩
  · intro e he
    exact hshows e (List.mem_filter.mp he).1

omit hconnector

/-! ## The end of a run -/

/-- The watermark may be moved to the time of completion if everything that was
modified since the last one is followed by a page of the walk. -/
theorem NothingLost.complete {job : TimedJob κ} (h : NothingLost history worker s)
    (hrun : Running history worker s.row s.documents s.fetchedAt job [])
    (hcaught : ∀ m ∈ history, admitsTime s.row.lastSyncedAt m.time = true → m.time < s.clock →
      ∃ page ∈ job.walked, ListedAfter m page) :
    NothingLost history worker (s.complete job) := by
  intro m hm
  rcases h m hm with hreflects | hadmits
  · exact .inl hreflects
  · by_cases htime : m.time < s.clock
    · obtain ⟨page, hpage, hafter, e, he, hitem⟩ := hcaught m hm hadmits htime
      -- the page shows the item in a state that is not older than `m`
      have hle : m.time ≤ e.time :=
        le_stateAt (hrun.walked.shows page hpage e he) hm hitem.symm hafter
      have hsince : admitsTime job.since e.time = true :=
        admitsTime_of_le hle (hrun.since m.time hadmits)
      rcases hrun.walked.reflects page hpage e he hsince with ⟨-, hrest⟩ | hreflects
      · cases hrest
      · exact .inl (hitem ▸ hreflects.earlier hafter)
    · refine .inr ?_
      rw [St.complete_row _ _ hrun.connected]
      simp only [admitsTime, Option.all_some, decide_eq_true_eq]
      exact Nat.le_of_not_lt htime

/-! ## Runs -/

variable [DecidableEq υ]

/-- An execution starts from scratch, or goes on with the walk of the checkpoint. -/
theorem running_begin (h : Inv history worker s) (forceFullSync : Bool)
    (hconnected : s.row.status ≠ .disconnected) :
    Running history worker s.row s.documents s.fetchedAt (s.begin worker forceFullSync) [] := by
  rcases begin_cases worker s forceFullSync with ⟨-, hbegin⟩ | ⟨raw, hraw, -, hbegin⟩
  · rw [hbegin]
    refine ⟨hconnected, ?_, walked_nil⟩
    cases forceFullSync with
    | true => exact notAfter_none
    | false => exact notAfter_refl
  · rw [hbegin]
    obtain ⟨hsince, hwalked⟩ := h.checkpoint raw hraw
    exact ⟨hconnected, hsince, hwalked⟩

variable [DecidableEq κ]

theorem inv_move (hconnector : ∃ sourceName blank, worker.connector = timedConnector sourceName blank)
    {a : Label (Listing κ)} (h : Inv history worker s) (hok : Admitted history s a)
    (hnow : a.now = s.clock) (hmove : Move worker s a s') : Inv history worker s' := by
  have hphaseInv := h.phase
  unfold PhaseInv at hphaseInv
  cases hmove with
  | @started now forceFullSync hphase hconnected =>
    exact ⟨h.nothingLost, h.checkpoint, h.fetchedAt, running_begin h forceFullSync hconnected⟩
  | authenticated hphase hclient =>
    rw [hphase] at hphaseInv
    exact ⟨h.nothingLost, h.checkpoint, h.fetchedAt, hphaseInv⟩
  | @refused now remote job client client' page hphase hpage =>
    refine ⟨fun m hm => (h.nothingLost m hm).imp_left fun hreflects =>
      hreflects.later h.fetchedAt, ?_, Nat.le_refl _, trivial⟩
    intro C hC
    exact ⟨(h.checkpoint C hC).1, (h.checkpoint C hC).2.later h.fetchedAt⟩
  | @accepted now remote job client client' page hphase hpage hvalid =>
    rw [hphase] at hphaseInv
    obtain rfl : now = s.clock := hnow
    refine ⟨fun m hm => (h.nothingLost m hm).imp_left fun hreflects =>
      hreflects.later h.fetchedAt, ?_, Nat.le_refl _, ?_⟩
    · intro C hC
      exact ⟨(h.checkpoint C hC).1, (h.checkpoint C hC).2.later h.fetchedAt⟩
    · exact ⟨hphaseInv.connected, hphaseInv.since,
        hphaseInv.walked.fetched hconnector h.fetchedAt hok.1 hpage⟩
  | @processed now job client page e rest written documents hphase hprocess =>
    rw [hphase] at hphaseInv
    have hstate := hphaseInv.walked.current e List.mem_cons_self
    refine ⟨fun m hm => (h.nothingLost m hm).imp_left fun hreflects =>
      hreflects.processed hconnector hprocess hstate, ?_, h.fetchedAt, ?_⟩
    · intro C hC
      exact ⟨(h.checkpoint C hC).1, (h.checkpoint C hC).2.settled hconnector hprocess hstate⟩
    · exact ⟨hphaseInv.connected, hphaseInv.since, hphaseInv.walked.processed hconnector hprocess⟩
  | @saved now job client page cursor hphase hnext =>
    rw [hphase] at hphaseInv
    have hrow := St.saveCheckpoint_row worker s job cursor hphaseInv.connected
    have hsynced : (s.saveCheckpoint worker job cursor).row.lastSyncedAt =
        s.row.lastSyncedAt := by rw [hrow]
    have hcheckpoint : (s.saveCheckpoint worker job cursor).row.config.ingestionCheckpoint =
        some (s.checkpointValue worker job cursor) := by rw [hrow]; rfl
    have hsince : NotAfter job.since (s.saveCheckpoint worker job cursor).row.lastSyncedAt := by
      rw [hsynced]
      exact hphaseInv.since
    refine ⟨?_, ?_, h.fetchedAt, ?_, hsince, hphaseInv.walked⟩
    · intro m hm
      have hkept := h.nothingLost m hm
      rwa [← hsynced] at hkept
    · intro C hC
      obtain rfl := Option.some.inj (hcheckpoint.symm.trans hC)
      exact ⟨hsince, hphaseInv.walked⟩
    · change (s.saveCheckpoint worker job cursor).row.status ≠ .disconnected
      rw [hrow]
      exact hphaseInv.connected
  | @completed now job client page hphase hlast =>
    rw [hphase] at hphaseInv
    obtain rfl : now = s.clock := hnow
    have hrow := St.complete_row s job hphaseInv.connected
    refine ⟨h.nothingLost.complete hphaseInv ?_, ?_, h.fetchedAt, trivial⟩
    · intro m hm hadmits htime
      exact hok.2 m hm hadmits htime job (by rw [hphase]; rfl)
    · intro C hC
      have hnone : (s.complete job).row.config.ingestionCheckpoint = none := by rw [hrow]; rfl
      rw [hnone] at hC
      cases hC
  | @recorded now job hjob =>
    obtain ⟨hsynced, hcheckpoint, -⟩ := St.recordFailure_row s job
    refine ⟨?_, ?_, h.fetchedAt, trivial⟩
    · intro m hm
      have hkept := h.nothingLost m hm
      rwa [← hsynced] at hkept
    · intro C hC
      rw [hcheckpoint] at hC
      rw [hsynced]
      exact h.checkpoint C hC
  | lost hjob => exact ⟨h.nothingLost, h.checkpoint, h.fetchedAt, trivial⟩

omit [DecidableEq υ] [DecidableEq κ] in
theorem inv_registered {operator : υ} {documents : List Document} {sourceName : String} :
    Inv history worker (.registered sourceName operator documents) where
  nothingLost := fun _ _ => .inr rfl
  checkpoint := fun _ hC => by cases hC
  fetchedAt := Nat.le_refl _
  phase := trivial

theorem inv_step (hconnector : ∃ sourceName blank, worker.connector = timedConnector sourceName blank)
    {a : Label (Listing κ)} (h : Inv history worker s) (hok : Admitted history s a)
    (hstep : step worker s a = some s') : Inv history worker s' := by
  obtain ⟨hclock, hmove⟩ := move_of_step hstep
  have htick : Inv history worker (s.tick a.now) :=
    ⟨h.nothingLost, h.checkpoint, h.fetchedAt.trans hclock, h.phase⟩
  have hok' : Admitted history (s.tick a.now) a := by
    cases a <;> exact hok
  exact inv_move hconnector htick hok' rfl hmove

/-- As long as every modification is followed by a page that lists its item
before the run completes, no execution, and no interruption of one, loses any. -/
theorem nothingLost_of_caughtUp (settings : Settings)
    (contentHash : RawDocument → Except Exn String) (sourceName : String) (blank : κ → Bool)
    (history : List Modification) (operator : υ) (documents : List Document) {s : TimedSt υ κ}
    (h : Run (step (timedWorker settings contentHash sourceName blank)) (Admitted history)
      (.registered sourceName operator documents) s) :
    NothingLost history (timedWorker settings contentHash sourceName blank) s :=
  (h.invariant (fun _ _ _ hI hok hstep => inv_step ⟨sourceName, blank, rfl⟩ hI hok hstep)
    inv_registered).nothingLost

/-! ## A source with two items -/

instance (m : Modification) (page : FetchedPage (Listing κ)) : Decidable (ListedAfter m page) :=
  inferInstanceAs (Decidable (_ ∧ ∃ _ ∈ _, _))

instance : ∀ (s : TimedSt υ κ) (a : Label (Listing κ)), Decidable (CaughtUp history s a)
  | _, .completed _ => inferInstanceAs (Decidable (∀ _ ∈ _, _ → _ → ∀ _ ∈ _, ∃ _ ∈ _, _))
  | _, .started _ _ | _, .authenticated _ | _, .fetched _ _ | _, .processed _ | _, .saved _
  | _, .raised _ _ => inferInstanceAs (Decidable True)

instance (s : TimedSt υ κ) (a : Label (Listing κ)) : Decidable (Admitted history s a) :=
  inferInstanceAs (Decidable (_ ∧ _))

def smallSettings : Settings where
  ingestionCheckpointTtl := 100
  ingestionMaxPagesPerAttempt := 10
  ingestionMaxItemsPerPage := 10

/-- The content stands for its hash. -/
def plainWorker : TimedWorker Unit Nat :=
  timedWorker smallSettings (fun raw => .ok raw.content) "wiki" fun _ => false

def firstDraft : Modification := ⟨"page", 5, "draft"⟩
def secondDraft : Modification := ⟨"page", 12, "final"⟩
def otherPage : Modification := ⟨"other", 6, "text"⟩

def wiki : List Modification := [firstDraft, otherPage, secondDraft]

/-- The process dies after the first page. The page is edited, and listed again
by the execution that resumes the walk. -/
def interruptedSync : List (Label (Listing Nat)) :=
  [.started 10 false, .authenticated 10,
   .fetched 11 { entries := [firstDraft], nextCursor := some 1, hasMore := true },
   .processed 11, .saved 11, .raised 11 false,
   .started 13 false, .authenticated 13, .fetched 14 { entries := [otherPage, secondDraft] },
   .processed 14, .processed 14, .completed 15]

/-- The page is edited between its fetch and the completion of the run. -/
def overtakenSync : List (Label (Listing Nat)) :=
  [.started 10 false, .authenticated 10, .fetched 11 { entries := [firstDraft, otherPage] },
   .processed 11, .processed 11, .completed 13]

theorem nothingLost_interrupted : ∃ s,
    execWithin (step plainWorker) (Admitted wiki) (.registered "wiki" () []) interruptedSync =
      some s ∧ s.row.lastSyncedAt = some 15 ∧ NothingLost wiki plainWorker s := by
  have hsync : (execWithin (step plainWorker) (Admitted wiki) (.registered "wiki" () [])
      interruptedSync).map (fun s => s.row.lastSyncedAt) = some (some 15) := by decide
  obtain ⟨s, hs, hsynced⟩ := Option.map_eq_some_iff.mp hsync
  exact ⟨s, hs, hsynced, nothingLost_of_caughtUp smallSettings _ "wiki" _ wiki () []
    (run_of_execWithin hs)⟩

/-- One run that succeeds, and the edit of 12 is neither reflected nor at or
after the watermark. -/
theorem nothingLost_overtaken : ∃ s,
    execWithin (step plainWorker) (Outside wiki) (.registered "wiki" () []) overtakenSync =
      some s ∧ ¬ NothingLost wiki plainWorker s := by
  have hsync : (execWithin (step plainWorker) (Outside wiki) (.registered "wiki" () [])
      overtakenSync).map (fun s => ((getLatestDocument s.documents "page").map Document.contentHash,
        s.row.lastSyncedAt)) = some (some "draft", some 13) := by decide
  obtain ⟨s, hs, hend⟩ := Option.map_eq_some_iff.mp hsync
  obtain ⟨hdocument, hsynced⟩ := Prod.mk.inj hend
  refine ⟨s, hs, fun hlost => ?_⟩
  rcases hlost secondDraft (by decide) with ⟨τ, e, hτ, -, hstate, hash, hhash, hlatest⟩ | hadmits
  · -- from 12 on the state of the page is its second draft
    have htime := le_stateAt hstate (m := secondDraft) (by decide) rfl hτ
    obtain ⟨hmem, hitem, -⟩ := stateAt_some hstate
    have honly : ∀ e ∈ wiki, e.item = secondDraft.item → secondDraft.time ≤ e.time →
        e = secondDraft := by decide
    obtain rfl := honly e hmem hitem htime
    rw [show (plainWorker.connector.normalize secondDraft).externalId = "page" from rfl,
      hdocument] at hlatest
    cases hhash
    exact absurd hlatest (by decide)
  · rw [hsynced] at hadmits
    exact absurd hadmits (by decide)

end Ekip.Ingestion.Watermark
