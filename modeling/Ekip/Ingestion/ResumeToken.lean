import Ekip.Lib.Feed
import Ekip.Ingestion.Execution

/-!
# Resume tokens across executions

A connector with resume tokens follows a feed: a token says where the next sync
begins, a cursor where the walk of this one stands. What the source has returned
and what is not committed is owed, and the stored token and checkpoint must leave
it ahead of the next execution.
-/
namespace Ekip.Ingestion.ResumeToken

open Ekip.Lib Ekip.Database Ekip.Core.Tenancy

variable {υ χ ρ ι κ τ π : Type}

/-! ## Connectors that follow a feed -/

/-- One page, for a reader whose effective token goes from `E` to `E'`. -/
structure PageOf (F : Feed π ι τ κ) (admits : ι → Prop) (now : Instant) (E : τ) (c : κ)
    (page : FetchResult ι κ τ) (E' : τ) : Prop where
  advance : F.Advance admits now E c page.items E' page.next
  /-- A token that is returned is the complete state. -/
  token : page.resumeToken.getD E = E'
  anchored : page.resumeToken = none → ∀ c', page.next = some c' → F.anchored c'

/-- `fetchBatch` reads the feed `F` whenever the source `answers` it. -/
structure Follows (connector : Connector υ χ ρ ι κ τ) (operator : υ) (F : Feed π ι τ κ)
    (admits : Option Instant → ι → Prop) (answers : Instant → χ → Option κ → Option τ → ρ → Prop) where
  /-- The token that a client goes by when it is passed one. -/
  effective : χ → Option τ → τ
  client : χ → Prop
  token : τ → Prop
  cursor : κ → Prop
  supports : connector.supportsResumeToken = true
  root : token F.root
  start : cursor F.start
  authenticate : ∀ {c}, connector.authenticate operator = .ok c →
    client c ∧ ∀ T, effective c T = T.getD F.root
  fetch : ∀ {now c remote} since {cur T}, client c → token (effective c T) → cursor (cur.getD F.start) →
    answers now c cur T remote →
    client (connector.fetchBatch c remote since cur T).2 ∧
      token (effective (connector.fetchBatch c remote since cur T).2 T) ∧
      (∀ c', (connector.fetchBatch c remote since cur T).1.next = some c' → cursor c') ∧
      PageOf F (admits since) now (effective c T) (cur.getD F.start)
        (connector.fetchBatch c remote since cur T).1
        (effective (connector.fetchBatch c remote since cur T).2 T)

/-! ## What is stored -/

/-- The parts of the state that bear on what the next execution is returned. -/
structure Books (υ ι κ τ : Type) where
  row : IngestionRow υ κ τ
  fetchedAt : Instant
  ownCheckpoint : Bool
  returned : List ι
  committed : List ι
  exposed : List ι

def books (s : St υ χ ρ ι κ τ) : Books υ ι κ τ :=
  ⟨s.row, s.fetchedAt, s.ownCheckpoint, s.returned, s.committed, s.exposed⟩

namespace Books

variable (b : Books υ ι κ τ)

/-- Returned by the source, and not committed. -/
def Owed (x : ι) : Prop := x ∈ b.returned ∧ x ∉ b.committed

/-- No token need lead back to the item. -/
def Settled (x : ι) : Prop := x ∈ b.committed ∨ x ∈ b.exposed

/-- The token that an execution begins with. -/
def token (root : τ) : τ := b.row.config.resumeToken.getD root

/-- The token that an execution goes by when it resumes the checkpoint. -/
def resumedToken (root : τ) (C : Checkpoint υ κ τ) : τ := C.resumeToken.getD (b.token root)

theorem Owed.exposed {b : Books υ ι κ τ} {x : ι} (howed : b.Owed x) (hsettled : b.Settled x) :
    x ∈ b.exposed :=
  hsettled.resolve_left howed.2

end Books

variable {worker : Worker υ χ ρ ι κ τ} {operator : υ} {F : Feed π ι τ κ}
  {admits : Option Instant → ι → Prop} {answers : Instant → χ → Option κ → Option τ → ρ → Prop}
  (H : Follows worker.connector operator F admits answers)

/-- What is owed lies ahead of the checkpoint, and so does nothing that the
stored token would skip unless it is settled. -/
structure CheckpointInv (b : Books υ ι κ τ) (C : Checkpoint υ κ τ) : Prop where
  token : H.token (b.resumedToken F.root C)
  cursor : H.cursor C.cursor
  due : ∀ x, b.Owed x → F.Due (admits C.since) b.fetchedAt (b.resumedToken F.root C) C.cursor x
  accounted : F.Accounted (admits C.since) b.Settled (b.resumedToken F.root C)
    (b.resumedToken F.root C) C.cursor
  stored : F.Accounted (admits C.since) b.Settled (b.token F.root) (b.resumedToken F.root C)
    C.cursor
  anchored : C.resumeToken = none → F.anchored C.cursor

structure Stored (b : Books υ ι κ τ) : Prop where
  token : H.token (b.token F.root)
  ahead : ∀ x, b.Owed x → x ∈ b.exposed ∨ F.Ahead b.fetchedAt (b.token F.root) F.start x
  checkpoint : b.ownCheckpoint = true → ∀ C ∈ b.row.config.ingestionCheckpoint,
    CheckpointInv H b C

/-! ## An execution under way -/

def place (F : Feed π ι τ κ) (job : Job ρ ι κ τ) : κ := job.cursor.getD F.start

/-- An execution reads the page at its cursor: its effective token was `E` and is
now `E'`, of the `items` of the page the `rest` is to be processed, and it will
go on at `next`. -/
structure Reading (b : Books υ ι κ τ) (job : Job ρ ι κ τ) (E : τ) (items rest : List ι) (E' : τ)
    (next : Option κ) : Prop where
  connected : b.row.status ≠ .disconnected
  token : H.token E'
  cursor : ∀ c', next = some c' → H.cursor c'
  advance : F.Advance (admits job.since) b.fetchedAt E (place F job) items E' next
  latest : job.latestResumeToken.getD (b.token F.root) = E'
  accounted : F.Accounted (admits job.since) b.Settled E E (place F job)
  stored : F.Accounted (admits job.since) b.Settled (b.token F.root) E (place F job)
  worked : ∀ x ∈ items, x ∈ rest ∨ x ∈ b.committed
  pending : ∀ x ∈ rest, x ∈ items ∧ x ∈ job.returned
  due : ∀ x, b.Owed x → x ∈ rest ∨ ∃ c', next = some c' ∧ F.Due (admits job.since) b.fetchedAt E' c' x
  checkpoint : b.ownCheckpoint = true → ∀ C ∈ b.row.config.ingestionCheckpoint,
    C.cursor = place F job ∧ C.since = job.since ∧ b.resumedToken F.root C = E
  owed : ∀ x ∈ job.owed, x ∈ job.returned ∨ b.Owed x

/-- Between two pages. -/
abbrev Between (b : Books υ ι κ τ) (job : Job ρ ι κ τ) (E : τ) : Prop :=
  Reading H b job E [] [] E (some (place F job))

def PhaseInv (b : Books υ ι κ τ) : Phase χ ρ ι κ τ → Prop
  | .idle => True
  | .authenticating job => Between H b job ((job.passedToken worker).getD F.root)
  | .fetching job client =>
    H.client client ∧ Between H b job (H.effective client (job.passedToken worker))
  | .refused job => ∃ E, Between H b job E
  | .processing job client page rest =>
    H.client client ∧ ∃ E,
      Reading H b job E page.items rest (H.effective client (job.passedToken worker))
        page.next ∧
      (page.resumeToken = none → E = H.effective client (job.passedToken worker)) ∧
      (job.latestResumeToken = none → ∀ c', page.next = some c' → F.anchored c')

structure Inv (s : St υ χ ρ ι κ τ) : Prop where
  operator : s.row.config.operator = operator
  fetchedAt : s.fetchedAt ≤ s.clock
  stored : Stored H (books s)
  phase : PhaseInv H (books s) s.phase

variable {H} {b b' : Books υ ι κ τ} {job job' : Job ρ ι κ τ} {E E' : τ} {items rest : List ι}
  {next : Option κ} {x : ι}

/-- What is owed was still ahead when the page was fetched. -/
theorem Reading.due_before (h : Reading H b job E items rest E' next) (hx : b.Owed x) :
    F.Due (admits job.since) b.fetchedAt E (place F job) x := by
  rcases h.due x hx with hrest | ⟨c', hc', hdue⟩
  · exact h.advance.sound x (h.pending x hrest).1
  · exact h.advance.due_of_next hc' hdue

/-- Once the rest of the page is settled, the token that came with it may be
stored. -/
theorem Reading.accounted_after (h : Reading H b job E items rest E' next)
    {settled : ι → Prop} (hsettled : ∀ x, b.Settled x → settled x)
    (hrest : E = E' ∨ ∀ x ∈ rest, settled x) :
    F.Accounted (admits job.since) settled E' E (place F job) := by
  have hbefore := h.accounted.mono hsettled
  rcases hrest with rfl | hrest
  · exact hbefore
  · refine hbefore.replace h.advance fun x hx => ?_
    rcases h.worked x hx with hpending | hcommitted
    · exact hrest x hpending
    · exact hsettled x (.inl hcommitted)

/-! ## The start of an execution -/

/-- What the books say when an execution begins with the token `E` at `c`. -/
theorem between_of_stored (hconnected : b.row.status ≠ .disconnected) (htoken : H.token E)
    (hcursor : H.cursor (place F job)) (hlatest : job.latestResumeToken.getD (b.token F.root) = E)
    (haccounted : F.Accounted (admits job.since) b.Settled E E (place F job))
    (hstored : F.Accounted (admits job.since) b.Settled (b.token F.root) E (place F job))
    (hdue : ∀ x, b.Owed x → F.Due (admits job.since) b.fetchedAt E (place F job) x)
    (hcheckpoint : b.ownCheckpoint = true → ∀ C ∈ b.row.config.ingestionCheckpoint,
      C.cursor = place F job ∧ C.since = job.since ∧ b.resumedToken F.root C = E)
    (howed : ∀ x ∈ job.owed, x ∈ job.returned ∨ b.Owed x) : Between H b job E where
  connected := hconnected
  token := htoken
  cursor := by
    rintro c' hc'
    obtain rfl := Option.some.inj hc'
    exact hcursor
  advance := .refl
  latest := hlatest
  accounted := haccounted
  stored := hstored
  worked := fun _ hx => absurd hx List.not_mem_nil
  pending := fun _ hx => absurd hx List.not_mem_nil
  due := fun x hx => .inr ⟨_, rfl, hdue x hx⟩
  checkpoint := hcheckpoint
  owed := howed

theorem passedToken_eq (H : Follows worker.connector operator F admits answers)
    (job : Job ρ ι κ τ) : job.passedToken worker = job.resumeTokenIn := by
  unfold Job.passedToken
  rw [if_pos H.supports]

theorem storedToken_eq (H : Follows worker.connector operator F admits answers)
    (s : St υ χ ρ ι κ τ) : s.storedToken worker = s.row.config.resumeToken := by
  unfold St.storedToken
  rw [if_pos H.supports]

section Start

variable [DecidableEq ι] {s : St υ χ ρ ι κ τ} {forceFullSync : Bool}

theorem mem_owed {x : ι} (hx : x ∈ s.owed) : (books s).Owed x := by
  obtain ⟨hreturned, hcommitted⟩ := List.mem_filter.mp hx
  exact ⟨hreturned, of_decide_eq_true hcommitted⟩

variable [DecidableEq υ]

/-- An execution may resume the checkpoint of the one before it. One that resumes
none must let through what is owed, and nothing owed may have been left on a page
whose token was stored. -/
def MayStart (worker : Worker υ χ ρ ι κ τ) (admits : Option Instant → ι → Prop)
    (s : St υ χ ρ ι κ τ) (forceFullSync : Bool) : Prop :=
  if (s.load worker forceFullSync).isSome then s.ownCheckpoint = true
  else ∀ x ∈ s.returned, x ∉ s.committed → x ∉ s.exposed ∧ admits (s.baseSince forceFullSync) x

theorem stored_start (h : Stored H (books s)) (hok : MayStart worker admits s forceFullSync) :
    Stored H (books (s.start worker forceFullSync)) where
  token := h.token
  ahead := h.ahead
  checkpoint := by
    intro hown C hC
    unfold MayStart at hok
    have hload : (s.load worker forceFullSync).isSome = true := hown
    rw [if_pos hload] at hok
    have hinv := h.checkpoint hok C hC
    exact ⟨hinv.token, hinv.cursor, hinv.due, hinv.accounted, hinv.stored, hinv.anchored⟩

theorem between_begin (h : Stored H (books s)) (hconnected : s.row.status ≠ .disconnected)
    (hok : MayStart worker admits s forceFullSync) :
    Between H (books (s.start worker forceFullSync)) (s.begin worker forceFullSync)
      (((s.begin worker forceFullSync).passedToken worker).getD F.root) := by
  unfold MayStart at hok
  rw [passedToken_eq H]
  rcases begin_cases worker s forceFullSync with ⟨hload, hbegin⟩ | ⟨raw, hraw, hload, hbegin⟩
  · rw [hload, Option.isSome_none, if_neg (by decide)] at hok
    rw [hbegin]
    have htoken : (s.storedToken worker).getD F.root = (books s).token F.root := by
      rw [storedToken_eq H]
      rfl
    change Between H _ _ ((s.storedToken worker).getD F.root)
    rw [htoken]
    refine between_of_stored hconnected h.token H.start rfl .start .start ?_ ?_ ?_
    · intro x hx
      obtain ⟨hexposed, hadmits⟩ := hok x hx.1 hx.2
      exact ⟨hadmits, (h.ahead x hx).resolve_left hexposed⟩
    · intro hown
      have hsome : (s.load worker forceFullSync).isSome = true := hown
      rw [hload] at hsome
      cases hsome
    · exact fun x hx => .inr (mem_owed hx)
  · rw [if_pos hload] at hok
    have hinv := h.checkpoint hok raw hraw
    rw [hbegin]
    have htoken : (raw.resumeToken.or (s.storedToken worker)).getD F.root =
        (books s).resumedToken F.root raw := by
      rw [storedToken_eq H]
      cases hresume : raw.resumeToken <;> simp [Books.resumedToken, Books.token, books, hresume]
    change Between H _ _ ((raw.resumeToken.or (s.storedToken worker)).getD F.root)
    rw [htoken]
    refine between_of_stored hconnected hinv.token hinv.cursor rfl hinv.accounted hinv.stored
      hinv.due ?_ ?_
    · intro _ C hC
      obtain rfl := Option.some.inj (hraw.symm.trans hC)
      exact ⟨rfl, rfl, rfl⟩
    · exact fun x hx => .inr (mem_owed hx)

end Start

/-! ## The pages -/

def Books.receive (b : Books υ ι κ τ) (now : Instant) (items : List ι) : Books υ ι κ τ :=
  { b with fetchedAt := now, returned := b.returned ++ items }

section Receive

variable {now : Instant} {remote : ρ} {page : FetchResult ι κ τ}

theorem Books.owed_receive (hx : (b.receive now items).Owed x) :
    b.Owed x ∨ (x ∈ items ∧ x ∉ b.committed) := by
  obtain ⟨hreturned, hcommitted⟩ := hx
  exact (List.mem_append.mp hreturned).imp (fun hold => ⟨hold, hcommitted⟩) fun hnew =>
    ⟨hnew, hcommitted⟩

variable (h : Between H b job E) (hnow : b.fetchedAt ≤ now)
  (hsound : ∀ x ∈ page.items, F.Due (admits job.since) now E (place F job) x)
include h hnow hsound

/-- The items of a page are ahead of where it was fetched. -/
theorem due_receive (hx : (b.receive now page.items).Owed x) :
    F.Due (admits job.since) now E (place F job) x := by
  rcases Books.owed_receive hx with howed | ⟨hitem, -⟩
  · exact (h.due_before howed).later hnow
  · exact hsound x hitem

theorem stored_receive (hb : Stored H b) : Stored H (b.receive now page.items) where
  token := hb.token
  ahead := by
    intro x hx
    rcases h.stored.ahead (due_receive h hnow hsound hx) with hahead | hsettled
    · exact .inr hahead
    · exact .inl (Books.Owed.exposed hx hsettled)
  checkpoint := by
    intro hown C hC
    have hinv := hb.checkpoint hown C hC
    obtain ⟨hcursor, hsince, htoken⟩ := h.checkpoint hown C hC
    refine ⟨hinv.token, hinv.cursor, ?_, hinv.accounted, hinv.stored, hinv.anchored⟩
    intro x hx
    change F.Due (admits C.since) now (b.resumedToken F.root C) C.cursor x
    rw [hcursor, hsince, htoken]
    exact due_receive h hnow hsound hx

omit hnow hsound in
theorem owed_receive (remote : ρ) :
    ∀ x ∈ (job.receive now remote page).owed,
      x ∈ (job.receive now remote page).returned ∨ (b.receive now page.items).Owed x := by
  intro x hx
  rcases h.owed x hx with hreturned | ⟨hreturned, hcommitted⟩
  · exact .inl (List.mem_append_left _ hreturned)
  · exact .inr ⟨List.mem_append_left _ hreturned, hcommitted⟩

/-- A page that is refused leaves the execution where it stood. -/
theorem between_refused :
    Between H (b.receive now page.items) (job.receive now remote page) E := by
  have hdue : ∀ x, (b.receive now page.items).Owed x →
      F.Due (admits job.since) now E (place F job) x :=
    fun x hx => due_receive h hnow hsound hx
  exact between_of_stored h.connected h.token (h.cursor _ rfl) h.latest h.accounted h.stored hdue
    h.checkpoint (owed_receive h remote)

omit hsound in
theorem reading_accepted (hpage : PageOf F (admits job.since) now E (place F job) page E')
    (htoken : H.token E') (hcursor : ∀ c', page.next = some c' → H.cursor c') :
    Reading H (b.receive now page.items) ((job.receive now remote page).accept page) E page.items
      page.items E' page.next where
  connected := h.connected
  token := htoken
  cursor := hcursor
  advance := hpage.advance
  latest := by
    change (page.resumeToken.or job.latestResumeToken).getD (b.token F.root) = E'
    rw [← hpage.token, ← h.latest]
    cases page.resumeToken with
    | none => rfl
    | some token => rfl
  accounted := h.accounted
  stored := h.stored
  worked := fun _ hx => .inl hx
  pending := fun _ hx => ⟨hx, List.mem_append_right _ hx⟩
  due := by
    intro x hx
    rcases Books.owed_receive hx with howed | ⟨hitem, -⟩
    · exact hpage.advance.due ((h.due_before howed).later hnow)
    · exact .inl hitem
  checkpoint := h.checkpoint
  owed := owed_receive h remote

end Receive

/-! ## One item -/

def Books.commit (b : Books υ ι κ τ) (x : ι) : Books υ ι κ τ :=
  { b with committed := b.committed ++ [x] }

theorem Books.owed_commit {y : ι} (hx : (b.commit y).Owed x) : b.Owed x ∧ x ≠ y := by
  obtain ⟨hreturned, hcommitted⟩ := hx
  have hnew : x ∉ b.committed ∧ x ≠ y := by
    simpa [Books.commit] using hcommitted
  exact ⟨⟨hreturned, hnew.1⟩, hnew.2⟩

theorem Books.settled_commit {y : ι} (hx : b.Settled x) : (b.commit y).Settled x :=
  hx.imp_left fun hcommitted => List.mem_append_left _ hcommitted

theorem stored_commit {y : ι} (hb : Stored H b) : Stored H (b.commit y) where
  token := hb.token
  ahead := fun x hx => hb.ahead x (Books.owed_commit hx).1
  checkpoint := by
    intro hown C hC
    have hinv := hb.checkpoint hown C hC
    exact ⟨hinv.token, hinv.cursor, fun x hx => hinv.due x (Books.owed_commit hx).1,
      hinv.accounted.mono fun _ => Books.settled_commit,
      hinv.stored.mono fun _ => Books.settled_commit, hinv.anchored⟩

theorem Reading.commit {y : ι} (h : Reading H b job E items (y :: rest) E' next) :
    Reading H (b.commit y) job E items rest E' next where
  connected := h.connected
  token := h.token
  cursor := h.cursor
  advance := h.advance
  latest := h.latest
  accounted := h.accounted.mono fun _ => Books.settled_commit
  stored := h.stored.mono fun _ => Books.settled_commit
  worked := by
    intro x hx
    rcases h.worked x hx with hrest | hcommitted
    · rcases List.mem_cons.mp hrest with rfl | hrest
      · exact .inr (List.mem_append_right _ (List.mem_singleton_self _))
      · exact .inl hrest
    · exact .inr (List.mem_append_left _ hcommitted)
  pending := fun x hx => h.pending x (List.mem_cons_of_mem _ hx)
  due := by
    intro x hx
    obtain ⟨howed, hne⟩ := Books.owed_commit hx
    exact (h.due x howed).imp_left fun hrest => (List.mem_cons.mp hrest).resolve_left hne
  checkpoint := h.checkpoint
  owed := by
    intro x hx
    rcases h.owed x hx with hreturned | ⟨hreturned, hcommitted⟩
    · exact .inl hreturned
    · by_cases hxy : x = y
      · exact .inl (h.pending x (hxy ▸ List.mem_cons_self)).2
      · exact .inr ⟨hreturned, by simp [Books.commit, hcommitted, hxy]⟩

/-! ## The end of a page and of a walk -/

def Books.save (b : Books υ ι κ τ) (C : Checkpoint υ κ τ) : Books υ ι κ τ :=
  { b with
    row := { b.row with config := b.row.config.merge { ingestionCheckpoint := some (some C) } }
    ownCheckpoint := true }

section Save

variable {c' : κ} {C : Checkpoint υ κ τ} (h : Reading H b job E items [] E' (some c'))
  (hcursor : C.cursor = c') (hsince : C.since = job.since)
  (htoken : C.resumeToken = job.latestResumeToken)
include h hcursor hsince htoken

/-- The page is worked off, and the execution goes on at the next cursor. -/
theorem between_save : Between H (b.save C) (job.advance c') E' := by
  have haccounted : F.Accounted (admits job.since) b.Settled E' E (place F job) :=
    h.accounted_after (fun _ hx => hx) (.inr fun _ hx => absurd hx List.not_mem_nil)
  have hdue : ∀ x, b.Owed x → F.Due (admits job.since) b.fetchedAt E' c' x := by
    intro x hx
    rcases h.due x hx with hrest | ⟨d, hd, hdue⟩
    · cases hrest
    · obtain rfl := Option.some.inj hd
      exact hdue
  refine between_of_stored h.connected h.token (h.cursor c' rfl) h.latest
    (haccounted.advance h.advance rfl) (h.stored.advance h.advance rfl) hdue ?_ h.owed
  intro _ D hD
  obtain rfl := Option.some.inj hD
  refine ⟨hcursor, hsince, ?_⟩
  change C.resumeToken.getD (b.token F.root) = E'
  rw [htoken]
  exact h.latest

theorem stored_save (hb : Stored H b) (hanchored : job.latestResumeToken = none → F.anchored c') :
    Stored H (b.save C) where
  token := hb.token
  ahead := hb.ahead
  checkpoint := by
    intro _ D hD
    obtain rfl := Option.some.inj hD
    have hbetween := between_save h hcursor hsince htoken
    have hresumed : (b.save C).resumedToken F.root C = E' := by
      change C.resumeToken.getD (b.token F.root) = E'
      rw [htoken]
      exact h.latest
    refine ⟨?_, ?_, ?_, ?_, ?_, ?_⟩
    · rw [hresumed]
      exact h.token
    · rw [hcursor]
      exact h.cursor c' rfl
    · rw [hresumed, hcursor, hsince]
      exact fun x hx => hbetween.due_before hx
    · rw [hresumed, hcursor, hsince]
      exact hbetween.accounted
    · rw [hresumed, hcursor, hsince]
      exact hbetween.stored
    · rw [hcursor, htoken]
      exact hanchored

end Save

def Books.complete (b : Books υ ι κ τ) (now : Instant) (latest : Option τ) : Books υ ι κ τ :=
  { b with
    row := { b.row with
      status := .active
      lastSyncedAt := some now
      config := b.row.config.merge { ingestionCheckpoint := some none, resumeToken := latest } } }

theorem Books.token_or (b : Books υ ι κ τ) (latest : Option τ) (root : τ) :
    (latest.or b.row.config.resumeToken).getD root = latest.getD (b.token root) := by
  cases latest with
  | none => rfl
  | some token => rfl

/-- A walk that is at its end leaves nothing owed. -/
theorem stored_complete {now : Instant} (h : Reading H b job E items [] E' none) :
    Stored H (b.complete now job.latestResumeToken) where
  token := by
    change H.token ((job.latestResumeToken.or b.row.config.resumeToken).getD F.root)
    rw [b.token_or, h.latest]
    exact h.token
  ahead := by
    intro x hx
    rcases h.due x hx with hrest | ⟨c', hc', -⟩
    · cases hrest
    · cases hc'
  checkpoint := fun _ C hC => by cases hC

/-! ## The failure path -/

def Books.fail (b : Books υ ι κ τ) (latest : Option τ) (rest : List ι) : Books υ ι κ τ :=
  { b with
    row := b.row.updateConnectorConfigSyncStatus .error none
      (latest.map fun token => { resumeToken := some token })
    exposed := b.exposed ++ rest }

theorem Books.token_fail {latest : Option τ} {root : τ} (h : b.row.status ≠ .disconnected) :
    (b.fail latest rest).token root = latest.getD (b.token root) := by
  unfold Books.fail
  rw [ConnectorConfig.updateConnectorConfigSyncStatus_of_connected h, ← b.token_or]
  cases latest with
  | none => rfl
  | some token => rfl

theorem Books.checkpoint_fail {latest : Option τ} (h : b.row.status ≠ .disconnected) :
    (b.fail latest rest).row.config.ingestionCheckpoint = b.row.config.ingestionCheckpoint := by
  unfold Books.fail
  rw [ConnectorConfig.updateConnectorConfigSyncStatus_of_connected h]
  cases latest with
  | none => rfl
  | some token => rfl

theorem Books.settled_fail {latest : Option τ} (hx : b.Settled x) :
    (b.fail latest rest).Settled x :=
  hx.imp_right fun hexposed => List.mem_append_left _ hexposed

/-- The failure path stores the token that came with the page, and what was left
of the page is exposed. -/
theorem stored_fail {exposed : List ι} (hb : Stored H b) (h : Reading H b job E items rest E' next)
    (hexposed : E = E' ∨ exposed = rest) :
    Stored H (b.fail job.latestResumeToken exposed) := by
  have htoken : (b.fail job.latestResumeToken exposed).token F.root = E' :=
    (Books.token_fail h.connected).trans h.latest
  have hafter : F.Accounted (admits job.since) (b.fail job.latestResumeToken exposed).Settled E' E
      (place F job) := by
    refine h.accounted_after (fun _ => Books.settled_fail) (hexposed.imp_right ?_)
    rintro rfl x hx
    exact .inr (List.mem_append_right _ hx)
  constructor
  · rw [htoken]
    exact h.token
  · intro x hx
    rw [htoken]
    rcases hafter.ahead (h.due_before hx) with hahead | hsettled
    · exact .inr hahead
    · exact .inl (Books.Owed.exposed hx hsettled)
  · intro hown C hC
    rw [Books.checkpoint_fail h.connected] at hC
    have hinv := hb.checkpoint hown C hC
    obtain ⟨hcursor, hsince, hE⟩ := h.checkpoint hown C hC
    cases hresume : C.resumeToken with
    | some token =>
      -- the checkpoint has a token of its own, and resumes with that
      have hresumed : (b.fail job.latestResumeToken exposed).resumedToken F.root C =
          b.resumedToken F.root C := by
        simp [Books.resumedToken, hresume]
      refine ⟨?_, hinv.cursor, ?_, ?_, ?_, ?_⟩
      · rw [hresumed]
        exact hinv.token
      · rw [hresumed]
        exact hinv.due
      · rw [hresumed]
        exact hinv.accounted.mono fun _ => Books.settled_fail
      · rw [hresumed, htoken, hcursor, hsince, hE]
        exact hafter
      · intro hnone
        rw [hresume] at hnone
        cases hnone
    | none =>
      -- the checkpoint resumes with the stored token, from a place that it fixes
      have hanchored := hinv.anchored hresume
      rw [hcursor] at hanchored
      have hresumed : (b.fail job.latestResumeToken exposed).resumedToken F.root C = E' := by
        simp [Books.resumedToken, hresume, htoken]
      have haccounted := hafter.anchored h.advance hanchored
      refine ⟨?_, hinv.cursor, ?_, ?_, ?_, ?_⟩
      · rw [hresumed]
        exact h.token
      · rw [hresumed, hcursor, hsince]
        exact fun x hx => h.advance.due_anchored hanchored (h.due_before hx)
      · rw [hresumed, hcursor, hsince]
        exact haccounted
      · rw [hresumed, htoken, hcursor, hsince]
        exact haccounted
      · rw [hcursor]
        exact fun _ => hanchored

/-! ## Runs -/

/-- When a run has walked all its pages, it has been returned whatever earlier
executions were returned and had not committed when it began. -/
def ReturnedAgain (s : St υ χ ρ ι κ τ) : Prop :=
  ∀ job client page, s.phase = .processing job client page [] → page.hasMore = false →
    ∀ x ∈ job.owed, x ∈ job.returned

/-- What a run that has walked all its pages was owed, and what it was returned. -/
def walkedOut (s : St υ χ ρ ι κ τ) : Option (List ι × List ι) :=
  match s.phase with
  | .processing job _ page [] => if page.hasMore then none else some (job.owed, job.returned)
  | _ => none

theorem ReturnedAgain.mem {s : St υ χ ρ ι κ τ} {owed returned : List ι} (h : ReturnedAgain s)
    (hs : walkedOut s = some (owed, returned)) : ∀ x ∈ owed, x ∈ returned := by
  unfold walkedOut at hs
  split at hs
  · rename_i job client page hphase
    split at hs
    · cases hs
    · rename_i hlast
      cases hs
      exact h job client page hphase (Bool.eq_false_iff.mpr hlast)
  · cases hs

def Answered (worker : Worker υ χ ρ ι κ τ)
    (answers : Instant → χ → Option κ → Option τ → ρ → Prop) (s : St υ χ ρ ι κ τ) : Label ρ → Prop
  | .fetched now remote =>
    match s.phase with
    | .fetching job client => answers now client job.cursor (job.passedToken worker) remote
    | _ => True
  | _ => True

theorem Inv.returnedAgain {s : St υ χ ρ ι κ τ} (h : Inv H s) : ReturnedAgain s := by
  intro job client page hphase hlast x hx
  have hprocessing := h.phase
  rw [hphase] at hprocessing
  obtain ⟨-, E, hreading, -⟩ := hprocessing
  rcases hreading.owed x hx with hreturned | howed
  · exact hreturned
  · rcases hreading.due x howed with hrest | ⟨c', hc', -⟩
    · cases hrest
    · simp [FetchResult.next, hlast] at hc'

/-- Whatever an execution was doing, its failure path keeps the books in order. -/
theorem stored_recorded {s : St υ χ ρ ι κ τ} {job : Job ρ ι κ τ} (h : Inv H s)
    (hjob : s.phase.job? = some job) :
    Stored H ((books s).fail job.latestResumeToken s.phase.restOfTokenPage) := by
  have hphaseInv := h.phase
  cases hphase : s.phase with
  | idle =>
    rw [hphase] at hjob
    cases hjob
  | authenticating job' =>
    rw [hphase] at hjob hphaseInv
    obtain rfl := Option.some.inj hjob
    exact stored_fail h.stored hphaseInv (.inl rfl)
  | fetching job' client =>
    rw [hphase] at hjob hphaseInv
    obtain rfl := Option.some.inj hjob
    exact stored_fail h.stored hphaseInv.2 (.inl rfl)
  | refused job' =>
    rw [hphase] at hjob hphaseInv
    obtain rfl := Option.some.inj hjob
    obtain ⟨E, hbetween⟩ := hphaseInv
    exact stored_fail h.stored hbetween (.inl rfl)
  | processing job' client page rest =>
    rw [hphase] at hjob hphaseInv
    obtain rfl := Option.some.inj hjob
    obtain ⟨-, E, hreading, hplain, -⟩ := hphaseInv
    cases htoken : page.resumeToken with
    | none => exact stored_fail h.stored hreading (.inl (hplain htoken))
    | some token =>
      refine stored_fail h.stored hreading (.inr ?_)
      simp [Phase.restOfTokenPage, htoken]

variable [DecidableEq υ] [DecidableEq ι]

def Resumable (worker : Worker υ χ ρ ι κ τ) (admits : Option Instant → ι → Prop)
    (s : St υ χ ρ ι κ τ) : Label ρ → Prop
  | .started now forceFullSync => MayStart worker admits (s.tick now) forceFullSync
  | _ => True

variable [DecidableEq κ]

theorem inv_move {s s' : St υ χ ρ ι κ τ} {a : Label ρ} (h : Inv H s) (hnow : a.now = s.clock)
    (hanswered : Answered worker answers s a)
    (hresumable : ∀ now force, a = .started now force → MayStart worker admits s force)
    (hmove : Move worker s a s') : Inv H s' := by
  have hphaseInv := h.phase
  cases hmove with
  | @started now forceFullSync hphase hconnected =>
    have hok := hresumable now forceFullSync rfl
    exact ⟨h.operator, h.fetchedAt, stored_start h.stored hok,
      between_begin h.stored hconnected hok⟩
  | @authenticated now job client hphase hclient =>
    rw [hphase] at hphaseInv
    rw [h.operator] at hclient
    obtain ⟨hvalid, heffective⟩ := H.authenticate hclient
    refine ⟨h.operator, h.fetchedAt, h.stored, hvalid, ?_⟩
    rw [heffective]
    exact hphaseInv
  | @refused now remote job client client' page hphase hpage =>
    rw [hphase] at hphaseInv
    obtain rfl : now = s.clock := hnow
    simp only [Answered, hphase] at hanswered
    obtain ⟨hclient, hbetween⟩ := hphaseInv
    obtain ⟨-, -, -, hread⟩ := H.fetch job.since hclient hbetween.token
      (hbetween.cursor _ rfl) hanswered
    have hfetch : worker.connector.fetchBatch client remote job.since job.cursor
        (job.passedToken worker) = (page, client') := hpage
    rw [hfetch] at hread
    have hsound := hread.advance.sound
    exact ⟨h.operator, Nat.le_refl _, stored_receive hbetween h.fetchedAt hsound h.stored, _,
      between_refused hbetween h.fetchedAt hsound⟩
  | @accepted now remote job client client' page hphase hpage hvalid =>
    rw [hphase] at hphaseInv
    obtain rfl : now = s.clock := hnow
    simp only [Answered, hphase] at hanswered
    obtain ⟨hclient, hbetween⟩ := hphaseInv
    obtain ⟨hclient', htoken, hcursor, hread⟩ := H.fetch job.since hclient
      hbetween.token (hbetween.cursor _ rfl) hanswered
    have hfetch : worker.connector.fetchBatch client remote job.since job.cursor
        (job.passedToken worker) = (page, client') := hpage
    rw [hfetch] at hclient' htoken hcursor hread
    refine ⟨h.operator, Nat.le_refl _,
      stored_receive hbetween h.fetchedAt hread.advance.sound h.stored, hclient', _,
      reading_accepted hbetween h.fetchedAt hread htoken hcursor, ?_, ?_⟩
    · intro hnone
      have heq := hread.token
      rwa [hnone] at heq
    · intro hlatest
      exact hread.anchored (Option.or_eq_none_iff.mp hlatest).1
  | @processed now job client page x rest written documents hphase hprocess =>
    rw [hphase] at hphaseInv
    obtain ⟨hclient, E, hreading, hplain⟩ := hphaseInv
    exact ⟨h.operator, h.fetchedAt, stored_commit h.stored, hclient, E, hreading.commit, hplain⟩
  | @saved now job client page cursor hphase hnext =>
    rw [hphase] at hphaseInv
    obtain ⟨hclient, E, hreading, -, hanchored⟩ := hphaseInv
    rw [hnext] at hreading
    have hrow := St.saveCheckpoint_row worker s job cursor hreading.connected
    have hbooks : books { s.saveCheckpoint worker job cursor with
        phase := .fetching (job.advance cursor) client } =
          (books s).save (s.checkpointValue worker job cursor) := by
      change Books.mk (s.saveCheckpoint worker job cursor).row _ _ _ _ _ = _
      rw [hrow]
      rfl
    refine ⟨?_, h.fetchedAt, ?_, ?_⟩
    · change (s.saveCheckpoint worker job cursor).row.config.operator = operator
      rw [hrow]
      exact h.operator
    · rw [hbooks]
      exact stored_save hreading rfl rfl rfl h.stored fun hlatest =>
        hanchored hlatest cursor hnext
    · rw [hbooks]
      exact ⟨hclient, between_save hreading rfl rfl rfl⟩
  | @completed now job client page hphase hlast =>
    rw [hphase] at hphaseInv
    obtain ⟨-, E, hreading, -⟩ := hphaseInv
    have hnone : page.next = none := by
      simp [FetchResult.next, hlast]
    rw [hnone] at hreading
    have hrow := St.complete_row s job hreading.connected
    have hbooks : books (s.complete job) =
        (books s).complete s.clock job.latestResumeToken := by
      change Books.mk (s.complete job).row _ _ _ _ _ = _
      rw [hrow]
      rfl
    refine ⟨?_, h.fetchedAt, ?_, trivial⟩
    · rw [hrow]
      exact h.operator
    · rw [hbooks]
      exact stored_complete hreading
  | @recorded now job hjob =>
    refine ⟨?_, h.fetchedAt, stored_recorded h hjob, trivial⟩
    rw [(St.recordFailure_row s job).2.2]
    exact h.operator
  | lost hjob => exact ⟨h.operator, h.fetchedAt, h.stored, trivial⟩

/-- A step that the source answers, and that starts no execution at a loss. -/
def Admitted (worker : Worker υ χ ρ ι κ τ) (admits : Option Instant → ι → Prop)
    (answers : Instant → χ → Option κ → Option τ → ρ → Prop) (s : St υ χ ρ ι κ τ) (a : Label ρ) :
    Prop :=
  Answered worker answers s a ∧ Resumable worker admits s a

theorem inv_step {s s' : St υ χ ρ ι κ τ} {a : Label ρ} (h : Inv H s)
    (hok : Admitted worker admits answers s a) (hstep : step worker s a = some s') : Inv H s' := by
  obtain ⟨hclock, hmove⟩ := move_of_step hstep
  have htick : Inv H (s.tick a.now) := ⟨h.operator, h.fetchedAt.trans hclock, h.stored, h.phase⟩
  refine inv_move htick rfl ?_ ?_ hmove
  · cases a <;> exact hok.1
  · rintro now force rfl
    exact hok.2

omit [DecidableEq υ] [DecidableEq ι] [DecidableEq κ] in
theorem inv_registered {source : String} {documents : List Document} :
    Inv H (.registered source operator documents) where
  operator := rfl
  fetchedAt := Nat.le_refl _
  stored := ⟨H.root, fun _ hx => absurd hx.1 List.not_mem_nil, fun hown => by cases hown⟩
  phase := trivial

/-- What a connector that follows a feed has been returned, and not committed, is
returned again by the next execution that walks to its end. -/
theorem returnedAgain_of_follows (H : Follows worker.connector operator F admits answers)
    {source : String} {documents : List Document} {s : St υ χ ρ ι κ τ}
    (h : Run (step worker) (Admitted worker admits answers)
      (.registered source operator documents) s) : ReturnedAgain s :=
  (h.invariant (I := Inv H) (fun _ _ _ hI hok hstep => inv_step hI hok hstep)
    inv_registered).returnedAgain

end Ekip.Ingestion.ResumeToken
