import Ekip.Ingestion.ResumeToken

/-!
# A forced execution is one walk without `since`

`force_full_sync` takes `since` away, and an execution that loads no checkpoint
begins at the cursor `None`. What is left of earlier syncs is the stored resume
token, for a connector that has resume tokens.
-/
namespace Ekip.Ingestion

open Ekip.Lib Ekip.Database

variable {υ χ ρ ι κ τ π : Type}

/-! ## The walk -/

structure FullWalk (χ ι κ : Type) where
  client : χ
  cursor : Option κ := none
  returned : List ι := []
  hasMore : Bool := true
  clock : Instant

namespace FullWalk

variable (connector : Connector υ χ ρ ι κ τ) (token : Option τ)
  (answers : Instant → χ → Option κ → Option τ → ρ → Prop)

def page (w : FullWalk χ ι κ) (remote : ρ) : FetchResult ι κ τ × χ :=
  connector.fetchBatch w.client remote none w.cursor token

def receive (w : FullWalk χ ι κ) (now : Instant) (page : FetchResult ι κ τ) (client : χ) :
    FullWalk χ ι κ where
  client := client
  cursor := page.next
  returned := w.returned ++ page.items
  hasMore := page.next.isSome
  clock := now

/-- The next page, as the source answers it at a time. -/
def fetch (w : FullWalk χ ι κ) (a : FetchedPage ρ) : Option (FullWalk χ ι κ) :=
  if w.hasMore ∧ w.clock ≤ a.fetchedAt then
    some (w.receive a.fetchedAt (w.page connector token a.remote).1
      (w.page connector token a.remote).2)
  else none

def Answered (w : FullWalk χ ι κ) (a : FetchedPage ρ) : Prop :=
  answers a.fetchedAt w.client w.cursor token a.remote

theorem fetch_some {w w' : FullWalk χ ι κ} {a : FetchedPage ρ}
    (h : w.fetch connector token a = some w') :
    w.hasMore = true ∧ w.clock ≤ a.fetchedAt ∧
      w' = w.receive a.fetchedAt (w.page connector token a.remote).1
        (w.page connector token a.remote).2 := by
  unfold fetch at h
  split at h
  · rename_i hmore
    cases h
    exact ⟨hmore.1, hmore.2, rfl⟩
  · cases h

/-- From a client that has just been authenticated. -/
def Walks (client : χ) (start : Instant) (w : FullWalk χ ι κ) : Prop :=
  Run (fetch connector token) (Answered token answers) { client, clock := start } w

end FullWalk

/-- Between the two times a walk that passes no `since`, and the token if there is
one, comes to its end; this is all that it is returned. -/
def FullSync (connector : Connector υ χ ρ ι κ τ) (operator : υ) (token : Option τ)
    (answers : Instant → χ → Option κ → Option τ → ρ → Prop) (start finish : Instant)
    (returned : List ι) : Prop :=
  ∃ client w, connector.authenticate operator = .ok client ∧
    FullWalk.Walks connector token answers client start w ∧ w.hasMore = false ∧
    w.clock ≤ finish ∧ w.returned = returned

/-! ## Forced executions -/

def Label.begins : Label ρ → Bool
  | .started _ _ => true
  | _ => false

section Forced

variable [DecidableEq υ] [DecidableEq ι] [DecidableEq κ] (worker : Worker υ χ ρ ι κ τ)
  (answers : Instant → χ → Option κ → Option τ → ρ → Prop)

/-- A step of one execution, answered by the source. -/
def Within (s : St υ χ ρ ι κ τ) (a : Label ρ) : Prop :=
  a.begins = false ∧ ResumeToken.Answered worker answers s a

/-- An execution that finds no matching checkpoint and has walked and processed all
its pages; nothing remains but to record its success. -/
structure SyncRun (s₀ : St υ χ ρ ι κ τ) (start : Instant) (forceFullSync : Bool)
    (s : St υ χ ρ ι κ τ) (job : Job ρ ι κ τ) : Prop where
  fresh : (s₀.tick start).load worker forceFullSync = none
  run : ∃ s₁, step worker s₀ (.started start forceFullSync) = some s₁ ∧
    Run (step worker) (Within worker answers) s₁ s
  ended : ∃ client page, s.phase = .processing job client page [] ∧ page.hasMore = false

variable (operator : υ) (token : Option τ) (start : Instant)

/-- What an execution in this phase has done of the walk. -/
def Walking (s : St υ χ ρ ι κ τ) (job : Job ρ ι κ τ) (client : χ) (cursor : Option κ)
    (hasMore : Bool) : Prop :=
  job.since = none ∧ job.passedToken worker = token ∧
    ∃ client₀, worker.connector.authenticate operator = .ok client₀ ∧
      ∃ w, FullWalk.Walks worker.connector token answers client₀ start w ∧ w.client = client ∧
        w.cursor = cursor ∧ w.hasMore = hasMore ∧ w.clock ≤ s.clock ∧ w.returned = job.returned

def ForcedPhase (s : St υ χ ρ ι κ τ) : Prop :=
  match s.phase with
  | .idle | .refused _ => True
  | .authenticating job =>
    s.row.config.operator = operator ∧ start ≤ s.clock ∧ job.since = none ∧
      job.passedToken worker = token ∧ job.cursor = none ∧ job.returned = []
  | .fetching job client => Walking worker answers operator token start s job client job.cursor true
  | .processing job client page _ =>
    Walking worker answers operator token start s job client page.next page.next.isSome

variable {worker answers operator token start} {s s' : St υ χ ρ ι κ τ} {a : Label ρ}

omit [DecidableEq υ] [DecidableEq ι] [DecidableEq κ] in
/-- The phase at a later time. -/
theorem ForcedPhase.tick {now : Instant} (h : ForcedPhase worker answers operator token start s)
    (hnow : s.clock ≤ now) : ForcedPhase worker answers operator token start (s.tick now) := by
  have hwalking : ∀ job client cursor hasMore,
      Walking worker answers operator token start s job client cursor hasMore →
        Walking worker answers operator token start (s.tick now) job client cursor hasMore := by
    intro job client cursor hasMore hwalk
    obtain ⟨hsince, htoken, client₀, hauth, w, hw, hclient, hcursor, hmore, hclock, hreturned⟩ := hwalk
    exact ⟨hsince, htoken, client₀, hauth, w, hw, hclient, hcursor, hmore, hclock.trans hnow,
      hreturned⟩
  unfold ForcedPhase at h ⊢
  show match s.phase with
    | .idle | .refused _ => True
    | .authenticating job => _
    | .fetching job client => _
    | .processing job client page _ => _
  cases hphase : s.phase with
  | idle | refused job => trivial
  | authenticating job =>
    rw [hphase] at h
    obtain ⟨hoperator, hstart, hrest⟩ := h
    exact ⟨hoperator, hstart.trans hnow, hrest⟩
  | fetching job client | processing job client page rest =>
    rw [hphase] at h
    exact hwalking _ _ _ _ h

theorem forcedPhase_step (h : ForcedPhase worker answers operator token start s)
    (hok : Within worker answers s a) (hstep : step worker s a = some s') :
    ForcedPhase worker answers operator token start s' := by
  obtain ⟨hclock, hmove⟩ := move_of_step hstep
  have htick := h.tick hclock
  cases hmove with
  | started hphase hconnected => cases hok.1
  | @authenticated now job client hphase hclient =>
    unfold ForcedPhase at htick
    rw [hphase] at htick
    obtain ⟨hoperator, hstart, hsince, htoken, hcursor, hreturned⟩ := htick
    rw [hoperator] at hclient
    exact ⟨hsince, htoken, client, hclient, { client, clock := start }, .refl _, rfl, hcursor.symm,
      rfl, hstart, hreturned.symm⟩
  | refused => trivial
  | @accepted now remote job client client' page hphase hpage hvalid =>
    unfold ForcedPhase at htick
    rw [hphase] at htick
    obtain ⟨hsince, htoken, client₀, hauth, w, hw, rfl, hcursor, hmore, hwclock, hreturned⟩ := htick
    have hanswered := hok.2
    have hphase' : s.phase = .fetching job w.client := hphase
    simp only [ResumeToken.Answered, hphase'] at hanswered
    have hfetched : w.page worker.connector token remote = (page, client') := by
      unfold FullWalk.page
      rw [hcursor, ← htoken, ← hsince]
      exact hpage
    have hnext : w.fetch worker.connector token ⟨now, remote⟩ =
        some (w.receive now page client') := by
      unfold FullWalk.fetch
      rw [if_pos ⟨hmore, hwclock⟩, hfetched]
    have hadmitted : FullWalk.Answered token answers w ⟨now, remote⟩ := by
      unfold FullWalk.Answered
      rw [hcursor, ← htoken]
      exact hanswered
    refine ⟨hsince, htoken, client₀, hauth, _, hw.tail hadmitted hnext, rfl, rfl, rfl,
      Nat.le_refl _, ?_⟩
    show w.returned ++ page.items = job.returned ++ page.items
    rw [hreturned]
  | @processed now job client page x rest written documents hphase hprocess =>
    unfold ForcedPhase at htick
    rw [hphase] at htick
    exact htick
  | @saved now job client page cursor hphase hnext =>
    unfold ForcedPhase at htick
    rw [hphase] at htick
    obtain ⟨hsince, htoken, client₀, hauth, w, hw, hclient, hcursor, hmore, hwclock,
      hreturned⟩ := htick
    rw [hnext] at hcursor hmore
    exact ⟨hsince, htoken, client₀, hauth, w, hw, hclient, hcursor, hmore, hwclock, hreturned⟩
  | completed | recorded | lost => trivial

/-- Whatever the stored configuration says, a forced execution is the walk that its
stored token begins. -/
theorem fullSync_of_forced {s₀ : St υ χ ρ ι κ τ} {job : Job ρ ι κ τ}
    (h : SyncRun worker answers s₀ start true s job) :
    FullSync worker.connector s₀.row.config.operator (s₀.storedToken worker) answers start s.clock
      job.returned := by
  obtain ⟨s₁, hstarted, hrun⟩ := h.run
  have hbegun : ForcedPhase worker answers s₀.row.config.operator (s₀.storedToken worker) start s₁ := by
    obtain ⟨-, hmove⟩ := move_of_step hstarted
    cases hmove with
    | started hphase hconnected =>
      have hbegin : (s₀.tick start).begin worker true = (s₀.tick start).beginning worker true := by
        rcases begin_cases worker (s₀.tick start) true with ⟨-, hbegin⟩ | ⟨raw, -, hload, -⟩
        · exact hbegin
        · rw [h.fresh] at hload
          cases hload
      show ForcedPhase worker answers _ _ start ((s₀.tick start).start worker true)
      unfold ForcedPhase St.start
      dsimp only
      rw [hbegin]
      refine ⟨rfl, Nat.le_refl _, rfl, ?_, rfl, rfl⟩
      unfold Job.passedToken
      show (if worker.connector.supportsResumeToken then s₀.storedToken worker else none) = _
      unfold St.storedToken
      split <;> rfl
  have hphase := hrun.invariant (I := ForcedPhase worker answers s₀.row.config.operator
    (s₀.storedToken worker) start) (fun _ _ _ hI hok hstep => forcedPhase_step hI hok hstep) hbegun
  obtain ⟨client, page, hended, hlast⟩ := h.ended
  unfold ForcedPhase at hphase
  rw [hended] at hphase
  obtain ⟨-, -, client₀, hauth, w, hw, -, -, hmore, hclock, hreturned⟩ := hphase
  have hnone : page.next = none := by
    simp [FetchResult.next, hlast]
  rw [hnone] at hmore
  exact ⟨client₀, w, hauth, hw, hmore, hclock, hreturned⟩

/-- A connector without resume tokens is walked as in its first sync. -/
theorem fullSync_of_noToken {s₀ : St υ χ ρ ι κ τ} {job : Job ρ ι κ τ}
    (htokens : worker.connector.supportsResumeToken = false)
    (h : SyncRun worker answers s₀ start true s job) :
    FullSync worker.connector s₀.row.config.operator none answers start s.clock job.returned := by
  have hsync := fullSync_of_forced h
  unfold St.storedToken at hsync
  rwa [htokens, if_neg Bool.false_ne_true] at hsync

end Forced

/-! ## Connectors that follow a feed -/

section Feed

open ResumeToken

variable {connector : Connector υ χ ρ ι κ τ} {operator : υ} {F : Feed π ι τ κ}
  {admits : Option Instant → ι → Prop} {answers : Instant → χ → Option κ → Option τ → ρ → Prop}
  (H : Follows connector operator F admits answers) {token : Option τ} {start finish : Instant}
  {client : χ} {w w' : FullWalk χ ι κ} {returned : List ι}

/-- The walk has been returned what was ahead of its token, or still comes to it;
and it is returned nothing else. -/
structure Reads (T : τ) (token : Option τ) (start : Instant) (w : FullWalk χ ι κ) : Prop where
  known : H.client w.client
  effective : H.token (H.effective w.client token)
  place : w.hasMore = true → H.cursor (w.cursor.getD F.start)
  clock : start ≤ w.clock
  covers : ∀ p x, F.holds p x → F.written start p → admits none x → F.ahead T F.start p →
    x ∈ w.returned ∨ w.hasMore = true ∧
      F.ahead (H.effective w.client token) (w.cursor.getD F.start) p
  sound : ∀ x ∈ w.returned, ∃ p, F.holds p x ∧ F.written w.clock p ∧ F.ahead T F.start p
  onward : w.hasMore = true →
    ∀ p, F.ahead (H.effective w.client token) (w.cursor.getD F.start) p → F.ahead T F.start p

variable {H} {T : τ}

theorem reads_fetch {a : FetchedPage ρ} (h : Reads H T token start w)
    (hanswered : FullWalk.Answered token answers w a)
    (hfetch : w.fetch connector token a = some w') : Reads H T token start w' := by
  obtain ⟨hmore, hclock, rfl⟩ := FullWalk.fetch_some connector token hfetch
  obtain ⟨hclient, htoken, hcursor, hpage⟩ :=
    H.fetch none h.known h.effective (h.place hmore) hanswered
  have hadvance := hpage.advance
  have hnext : ∀ {p}, (w.page connector token a.remote).1.next.isSome = true →
      F.ahead (H.effective (w.page connector token a.remote).2 token)
        ((w.page connector token a.remote).1.next.getD F.start) p → F.ahead T F.start p := by
    intro p hsome hahead
    obtain ⟨c', hc'⟩ := Option.isSome_iff_exists.mp hsome
    rw [hc'] at hahead
    exact h.onward hmore p (hadvance.onward c' hc' p hahead)
  refine ⟨hclient, htoken, ?_, h.clock.trans hclock, ?_, ?_, fun hsome p => hnext hsome⟩
  · intro hsome
    obtain ⟨c', hc'⟩ := Option.isSome_iff_exists.mp hsome
    show H.cursor ((w.page connector token a.remote).1.next.getD F.start)
    rw [hc']
    exact hcursor c' hc'
  · intro p x hx hwritten hadmits hahead
    rcases h.covers p x hx hwritten hadmits hahead with hreturned | ⟨-, hlater⟩
    · exact .inl (List.mem_append_left _ hreturned)
    · have hnow : F.written a.fetchedAt p := F.written_mono (h.clock.trans hclock) hwritten
      rcases hadvance.covers p x hx hnow hadmits hlater with hitem | ⟨c', hc', hahead'⟩
      · exact .inl (List.mem_append_right _ hitem)
      · have hc' : (w.page connector token a.remote).1.next = some c' := hc'
        refine .inr ⟨?_, ?_⟩
        · show (w.page connector token a.remote).1.next.isSome = true
          rw [hc']
          rfl
        · show F.ahead _ ((w.page connector token a.remote).1.next.getD F.start) p
          rw [hc']
          exact hahead'
  · intro x hx
    rcases List.mem_append.mp hx with hbefore | hitem
    · obtain ⟨p, hp, hwritten, hahead⟩ := h.sound x hbefore
      exact ⟨p, hp, F.written_mono hclock hwritten, hahead⟩
    · obtain ⟨-, p, hp, hwritten, hahead⟩ := hadvance.sound x hitem
      exact ⟨p, hp, hwritten, h.onward hmore p hahead⟩

/-- A full sync is returned just what is ahead of the token that it begins with. -/
theorem fullSync_reads (H : Follows connector operator F admits answers)
    (htoken : H.token (token.getD F.root))
    (h : FullSync connector operator token answers start finish returned) :
    (∀ p x, F.holds p x → F.written start p → admits none x →
        F.ahead (token.getD F.root) F.start p → x ∈ returned) ∧
      ∀ x ∈ returned, ∃ p, F.holds p x ∧ F.written finish p ∧
        F.ahead (token.getD F.root) F.start p := by
  obtain ⟨client, w, hauth, hwalks, hend, hclock, rfl⟩ := h
  obtain ⟨hclient, heffective⟩ := H.authenticate hauth
  have hbegun : Reads H (token.getD F.root) token start { client, clock := start } := by
    refine ⟨hclient, ?_, fun _ => H.start, Nat.le_refl _, ?_, fun x hx => (by cases hx), ?_⟩
    · rw [heffective]
      exact htoken
    · intro p x _ _ _ hahead
      refine .inr ⟨rfl, ?_⟩
      rw [heffective]
      exact hahead
    · intro _ p hahead
      rw [heffective] at hahead
      exact hahead
  have hreads := hwalks.invariant (I := Reads H (token.getD F.root) token start)
    (fun _ _ _ hI hok hstep => reads_fetch hI hok hstep) hbegun
  constructor
  · intro p x hx hwritten hadmits hahead
    rcases hreads.covers p x hx hwritten hadmits hahead with hreturned | ⟨hmore, -⟩
    · exact hreturned
    · rw [hend] at hmore
      cases hmore
  · intro x hx
    obtain ⟨p, hp, hwritten, hahead⟩ := hreads.sound x hx
    exact ⟨p, hp, F.written_mono hclock hwritten, hahead⟩

end Feed

end Ekip.Ingestion
