import Ekip.Ingestion.Execution

/-!
# Attempts that die, and the one that succeeds

The pages of a connector without resume tokens follow each other in a fixed chain,
under the `since` and the flag of the attempts. An attempt dies at any step, with or
without a record of its failure. The next one goes on behind the last page that was
checkpointed, and a page is checkpointed when all its items are processed.
-/
namespace Ekip.Ingestion.CrashReplay

open Ekip.Lib Ekip.Database

variable {υ χ ρ ι κ τ : Type}

/-! ## The chain of pages -/

structure ChainPage (ι κ : Type) where
  items : List ι
  next : Option κ := none

def ChainPage.result (page : ChainPage ι κ) : FetchResult ι κ τ where
  items := page.items
  nextCursor := page.next
  hasMore := page.next.isSome

/-- Each page but the last names the cursor of the next one. -/
structure Chain (ι κ : Type) where
  pages : List (ChainPage ι κ)
  nonempty : 0 < pages.length
  linked : ∀ i page, pages[i]? = some page → (page.next.isSome = true ↔ i + 1 < pages.length)

/-- The cursor of the page behind the first `i`. -/
def Chain.cursorAt (chain : Chain ι κ) : Nat → Option κ
  | 0 => none
  | i + 1 => chain.pages[i]?.bind ChainPage.next

/-- Every item of the first `i` pages is there. -/
def Chain.Done (chain : Chain ι κ) (processed : List ι) (i : Nat) : Prop :=
  ∀ page ∈ chain.pages.take i, ∀ x ∈ page.items, x ∈ processed

variable {chain : Chain ι κ} {i : Nat} {page : ChainPage ι κ}

theorem Chain.done_zero (processed : List ι) : chain.Done processed 0 := by
  intro page hpage
  rw [List.take_zero] at hpage
  cases hpage

theorem Chain.Done.mono {processed processed' : List ι} (h : chain.Done processed i)
    (hsub : processed ⊆ processed') : chain.Done processed' i :=
  fun page hpage x hx => hsub (h page hpage x hx)

theorem Chain.Done.succ {processed : List ι} (h : chain.Done processed i)
    (hpage : chain.pages[i]? = some page) (hitems : ∀ x ∈ page.items, x ∈ processed) :
    chain.Done processed (i + 1) := by
  intro other hother x hx
  rw [List.take_add_one, hpage] at hother
  rcases List.mem_append.mp hother with hbefore | hlast
  · exact h other hbefore x hx
  · rw [Option.mem_toList.mp hlast |> Option.some.inj |>.symm] at hx
    exact hitems x hx

/-! ## The attempts -/

/-- The pages that were checkpointed are counted. -/
structure Attempts (υ χ ρ ι κ τ : Type) where
  st : St υ χ ρ ι κ τ
  checkpointed : Nat := 0

def saves : Label ρ → Nat
  | .saved _ => 1
  | _ => 0

section Steps

variable [DecidableEq υ] [DecidableEq ι] [DecidableEq κ] (worker : Worker υ χ ρ ι κ τ)
  (chain : Chain ι κ) (forceFullSync : Bool) (s₀ : St υ χ ρ ι κ τ)

def attempt (t : Attempts υ χ ρ ι κ τ) (a : Label ρ) : Option (Attempts υ χ ρ ι κ τ) :=
  (step worker t.st a).map fun st => { st, checkpointed := t.checkpointed + saves a }

/-- What was processed to completion since the first attempt. -/
def Attempts.processed (t : Attempts υ χ ρ ι κ τ) : List ι := t.st.committed.drop s₀.committed.length

/-- The stored checkpoint has not expired. -/
def Unexpired (s : St υ χ ρ ι κ τ) (now : Instant) : Prop :=
  ∀ C ∈ s.row.config.ingestionCheckpoint, now ≤ C.updatedAt + worker.settings.ingestionCheckpointTtl

/-- Under the `since` of the attempts, the source answers a cursor with the page that
it belongs to. -/
def Answers (job : Job ρ ι κ τ) (client : χ) (remote : ρ) : Prop :=
  job.since = s₀.baseSince forceFullSync → ∀ i page, chain.pages[i]? = some page →
    job.cursor = chain.cursorAt i → (job.fetchBatch worker client remote).1 = page.result

/-- Attempts with one flag that find no expired checkpoint, and do not succeed. -/
def Dying (t : Attempts υ χ ρ ι κ τ) : Label ρ → Prop
  | .started now force => force = forceFullSync ∧ Unexpired worker t.st now
  | .fetched _ remote =>
    match t.st.phase with
    | .fetching job client => Answers worker chain forceFullSync s₀ job client remote
    | _ => True
  | .completed _ => False
  | _ => True

/-! ## The invariant -/

/-- An attempt whose next page is the one behind those that were checkpointed. -/
structure Walking (t : Attempts υ χ ρ ι κ τ) (job : Job ρ ι κ τ) : Prop where
  connected : t.st.row.status ≠ .disconnected
  force : job.forceFullSync = forceFullSync
  since : job.since = s₀.baseSince forceFullSync
  cursor : job.cursor = chain.cursorAt t.checkpointed
  token : job.latestResumeToken = none

def PhaseInv (t : Attempts υ χ ρ ι κ τ) : Prop :=
  match t.st.phase with
  | .idle | .refused _ => True
  | .authenticating job | .fetching job _ => Walking chain forceFullSync s₀ t job
  | .processing job _ fetched rest =>
    Walking chain forceFullSync s₀ t job ∧ ∃ page, chain.pages[t.checkpointed]? = some page ∧
      fetched = page.result ∧ (∀ x ∈ page.items, x ∈ t.processed s₀ ∨ x ∈ rest) ∧
      ∀ cursor, page.next = some cursor → worker.connector.blank cursor = false

/-- The checkpoint that was saved behind the first `i` pages. -/
structure Saved (s : St υ χ ρ ι κ τ) (i : Nat) (C : Checkpoint υ κ τ) : Prop where
  version : C.version = checkpointVersion
  source : C.source = worker.connector.sourceName
  force : C.forceFullSync = forceFullSync
  since : C.since = s₀.baseSince forceFullSync
  cursor : chain.cursorAt i = some C.cursor
  resumeToken : C.resumeToken = none
  fingerprint : C.configFingerprint = connectorConfigFingerprint worker.connector.sourceName s.row.config
  updatedAt : C.updatedAt ≤ s.clock
  unblank : worker.connector.blank C.cursor = false

/-- What no attempt changes before it succeeds. -/
structure Kept (s : St υ χ ρ ι κ τ) : Prop where
  lastSyncedAt : s.row.lastSyncedAt = s₀.row.lastSyncedAt
  operator : s.row.config.operator = s₀.row.config.operator
  committed : s₀.committed <+: s.committed

/-- What is durable between two attempts. -/
structure Stored (t : Attempts υ χ ρ ι κ τ) : Prop where
  kept : Kept s₀ t.st
  ahead : t.checkpointed < chain.pages.length
  done : chain.Done (t.processed s₀) t.checkpointed
  checkpoint :
    (t.checkpointed = 0 ∧ t.st.row.config.ingestionCheckpoint = s₀.row.config.ingestionCheckpoint) ∨
      0 < t.checkpointed ∧ ∃ C, t.st.row.config.ingestionCheckpoint = some C ∧
        Saved worker chain forceFullSync s₀ t.st t.checkpointed C

structure Inv (t : Attempts υ χ ρ ι κ τ) : Prop where
  stored : Stored worker chain forceFullSync s₀ t
  phase : PhaseInv worker chain forceFullSync s₀ t

end Steps

/-! ## What the next attempt loads -/

section Load

variable [DecidableEq υ] {worker : Worker υ χ ρ ι κ τ} {forceFullSync : Bool}
  {s₀ s s' : St υ χ ρ ι κ τ} {now : Instant} {C : Checkpoint υ κ τ}

theorem load_congr (hcheckpoint : s.row.config.ingestionCheckpoint = s₀.row.config.ingestionCheckpoint)
    (hoperator : s.row.config.operator = s₀.row.config.operator) :
    (s.tick now).load worker forceFullSync = (s₀.tick now).load worker forceFullSync := by
  have hrow : (s.tick now).row = s.row := rfl
  have hrow₀ : (s₀.tick now).row = s₀.row := rfl
  have hclock : (s.tick now).clock = (s₀.tick now).clock := rfl
  unfold St.load loadIngestionCheckpoint connectorConfigFingerprint
  rw [hrow, hrow₀, hclock, hcheckpoint, hoperator]

theorem Saved.load (h : Saved worker chain forceFullSync s₀ s i C)
    (hC : s.row.config.ingestionCheckpoint = some C) (hclock : s.clock ≤ now)
    (hunexpired : Unexpired worker s now) :
    (s.tick now).load worker forceFullSync = some (s₀.baseSince forceFullSync, C.cursor, none) := by
  have hskew : ¬ now + checkpointSkew < C.updatedAt := by
    have hupdated : C.updatedAt ≤ now := h.updatedAt.trans hclock
    exact Nat.not_lt.mpr (hupdated.trans (Nat.le_add_right _ _))
  have hage : ¬ C.updatedAt + worker.settings.ingestionCheckpointTtl < now :=
    Nat.not_lt.mpr (hunexpired C hC)
  have hrow : (s.tick now).row = s.row := rfl
  have hnow : (s.tick now).clock = now := rfl
  unfold St.load loadIngestionCheckpoint
  rw [hrow, hnow, hC, Option.bind_some, if_neg (not_or.mpr ⟨hskew, hage⟩),
    if_neg (not_not.mpr h.version),
    if_neg (not_or.mpr ⟨not_not.mpr h.source, not_not.mpr h.force⟩), if_neg (not_not.mpr h.fingerprint),
    if_neg (Bool.eq_false_iff.mp h.unblank), h.since, h.resumeToken]

omit [DecidableEq υ] in
theorem Saved.later (h : Saved worker chain forceFullSync s₀ s i C)
    (hoperator : s'.row.config.operator = s.row.config.operator) (hclock : s.clock ≤ s'.clock) :
    Saved worker chain forceFullSync s₀ s' i C :=
  { h with
    fingerprint := by
      unfold connectorConfigFingerprint
      rw [hoperator]
      exact h.fingerprint
    updatedAt := h.updatedAt.trans hclock }

/-- An accepted page that has a successor does not name a blank cursor. -/
theorem validateFetchResult_unblank [DecidableEq κ] {settings : Settings} {blank : κ → Bool}
    {source : String} {fetched : FetchResult ι κ τ} {pageNumber : Nat} {seenCursors : List κ}
    (h : validateFetchResult settings blank source fetched pageNumber seenCursors = .ok ())
    (hmore : fetched.hasMore = true) {cursor : κ} (hcursor : fetched.nextCursor = some cursor) :
    blank cursor = false := by
  unfold validateFetchResult at h
  split at h
  · cases h
  · split at h
    · cases h
    · split at h
      · rename_i hlast
        rw [hmore] at hlast
        cases hlast
      · rw [hcursor] at h
        dsimp only at h
        split at h
        · cases h
        · rename_i hblank
          exact Bool.eq_false_iff.mpr hblank

end Load

/-! ## What a step keeps -/

section Invariant

variable {worker : Worker υ χ ρ ι κ τ}
  {forceFullSync : Bool} {s₀ : St υ χ ρ ι κ τ} {t t' : Attempts υ χ ρ ι κ τ} {a : Label ρ}

theorem Kept.baseSince {s : St υ χ ρ ι κ τ} (h : Kept s₀ s) :
    s.baseSince forceFullSync = s₀.baseSince forceFullSync := by
  unfold St.baseSince
  rw [h.lastSyncedAt]

theorem processed_mono {s : St υ χ ρ ι κ τ} (checkpointed : Nat) (h : t.st.committed <+: s.committed) :
    t.processed s₀ ⊆ Attempts.processed s₀ { st := s, checkpointed } :=
  (h.drop s₀.committed.length).subset

/-- A step that does not write the configuration. -/
theorem Stored.later {s : St υ χ ρ ι κ τ} (h : Stored worker chain forceFullSync s₀ t)
    (hlast : s.row.lastSyncedAt = t.st.row.lastSyncedAt)
    (hcheckpoint : s.row.config.ingestionCheckpoint = t.st.row.config.ingestionCheckpoint)
    (hoperator : s.row.config.operator = t.st.row.config.operator)
    (hcommitted : t.st.committed <+: s.committed) (hclock : t.st.clock ≤ s.clock) :
    Stored worker chain forceFullSync s₀ { st := s, checkpointed := t.checkpointed } where
  kept :=
    { lastSyncedAt := hlast.trans h.kept.lastSyncedAt
      operator := hoperator.trans h.kept.operator
      committed := h.kept.committed.trans hcommitted }
  ahead := h.ahead
  done := h.done.mono (processed_mono _ hcommitted)
  checkpoint := by
    show (t.checkpointed = 0 ∧ s.row.config.ingestionCheckpoint = s₀.row.config.ingestionCheckpoint) ∨
      0 < t.checkpointed ∧ ∃ C, s.row.config.ingestionCheckpoint = some C ∧
        Saved worker chain forceFullSync s₀ s t.checkpointed C
    rw [hcheckpoint]
    refine h.checkpoint.imp_right ?_
    intro hlater
    obtain ⟨hpos, C, hC, hsaved⟩ := hlater
    exact ⟨hpos, C, hC, hsaved.later hoperator hclock⟩

theorem Walking.later {s : St υ χ ρ ι κ τ} {job : Job ρ ι κ τ} (h : Walking chain forceFullSync s₀ t job)
    (hstatus : s.row.status = t.st.row.status) :
    Walking chain forceFullSync s₀ { st := s, checkpointed := t.checkpointed } job :=
  ⟨fun hdisconnected => h.connected (hstatus.symm.trans hdisconnected), h.force, h.since, h.cursor,
    h.token⟩

theorem mem_processed_commit {x : ι} (documents : List Document) (checkpointed : Nat)
    (hcommitted : s₀.committed <+: t.st.committed) :
    x ∈ Attempts.processed s₀ { st := t.st.commitItem documents x, checkpointed } := by
  unfold Attempts.processed
  show x ∈ (t.st.committed ++ [x]).drop s₀.committed.length
  rw [List.drop_append_of_le_length hcommitted.length_le]
  exact List.mem_append_right _ (List.mem_singleton_self x)

/-- The page that an attempt receives is the one behind those that were checkpointed. -/
theorem Walking.received {job : Job ρ ι κ τ} {client : χ} {remote : ρ}
    (h : Walking chain forceFullSync s₀ t job) (hahead : t.checkpointed < chain.pages.length)
    (hanswers : Answers worker chain forceFullSync s₀ job client remote) :
    ∃ page, chain.pages[t.checkpointed]? = some page ∧
      (job.fetchBatch worker client remote).1 = page.result :=
  ⟨_, List.getElem?_eq_getElem hahead,
    hanswers h.since _ _ (List.getElem?_eq_getElem hahead) h.cursor⟩

theorem inv_start (hidle : s₀.phase = .idle) : Inv worker chain forceFullSync s₀ { st := s₀ } where
  stored :=
    { kept := ⟨rfl, rfl, List.prefix_rfl⟩
      ahead := chain.nonempty
      done := chain.done_zero _
      checkpoint := .inl ⟨rfl, rfl⟩ }
  phase := by
    unfold PhaseInv
    dsimp only
    rw [hidle]
    trivial

variable [DecidableEq υ] [DecidableEq ι] [DecidableEq κ]

omit [DecidableEq κ] in
/-- An attempt starts behind the pages that were checkpointed. -/
theorem Stored.walking_start {now : Instant} (h : Stored worker chain forceFullSync s₀ t)
    (hunmatched : ∀ now, (s₀.tick now).load worker forceFullSync = none)
    (hconnected : t.st.row.status ≠ .disconnected) (hclock : t.st.clock ≤ now)
    (hunexpired : Unexpired worker t.st now) :
    Walking chain forceFullSync s₀
      { st := (t.st.tick now).start worker forceFullSync, checkpointed := t.checkpointed }
      ((t.st.tick now).begin worker forceFullSync) := by
  have hbase : (t.st.tick now).baseSince forceFullSync = s₀.baseSince forceFullSync :=
    h.kept.baseSince
  unfold St.begin
  rcases h.checkpoint with ⟨hzero, hcheckpoint⟩ | ⟨-, C, hC, hsaved⟩
  · rw [load_congr hcheckpoint h.kept.operator, hunmatched now]
    refine ⟨hconnected, rfl, hbase, ?_, rfl⟩
    rw [hzero]
    rfl
  · rw [hsaved.load hC hclock hunexpired]
    exact ⟨hconnected, rfl, rfl, hsaved.cursor.symm, rfl⟩

theorem inv_step (h : Inv worker chain forceFullSync s₀ t)
    (hunmatched : ∀ now, (s₀.tick now).load worker forceFullSync = none)
    (hok : Dying worker chain forceFullSync s₀ t a) (hstep : attempt worker t a = some t') :
    Inv worker chain forceFullSync s₀ t' := by
  obtain ⟨s, hs, rfl⟩ := Option.map_eq_some_iff.mp hstep
  obtain ⟨hclock, hmove⟩ := move_of_step hs
  have hphaseInv := h.phase
  unfold PhaseInv at hphaseInv
  cases hmove with
  | @started now force hphase hconnected =>
    obtain ⟨rfl, hunexpired⟩ := hok
    exact ⟨h.stored.later rfl rfl rfl List.prefix_rfl hclock,
      h.stored.walking_start hunmatched hconnected hclock hunexpired⟩
  | @authenticated now job client hphase hclient =>
    rw [show t.st.phase = .authenticating job from hphase] at hphaseInv
    exact ⟨h.stored.later rfl rfl rfl List.prefix_rfl hclock, Walking.later hphaseInv rfl⟩
  | refused hphase hpage => exact ⟨h.stored.later rfl rfl rfl List.prefix_rfl hclock, trivial⟩
  | @accepted now remote job client client' fetched hphase hpage hvalid =>
    have hfetching : t.st.phase = .fetching job client := hphase
    rw [hfetching] at hphaseInv
    unfold Dying at hok
    dsimp only at hok
    rw [hfetching] at hok
    obtain ⟨page, hget, hanswer⟩ := hphaseInv.received h.stored.ahead hok
    have hfetched : fetched = page.result := (congrArg Prod.fst hpage).symm.trans hanswer
    subst hfetched
    refine ⟨h.stored.later rfl rfl rfl List.prefix_rfl hclock,
      ⟨hphaseInv.connected, hphaseInv.force, hphaseInv.since, hphaseInv.cursor, hphaseInv.token⟩,
      page, hget, rfl, fun x hx => .inr hx, ?_⟩
    intro cursor hcursor
    refine validateFetchResult_unblank hvalid ?_ hcursor
    show page.next.isSome = true
    rw [hcursor]
    rfl
  | @processed now job client fetched x rest written documents hphase hprocess =>
    rw [show t.st.phase = .processing job client fetched (x :: rest) from hphase] at hphaseInv
    obtain ⟨hwalking, page, hget, hfetched, hitems, hunblank⟩ := hphaseInv
    have hgrows : t.st.committed <+: (t.st.commitItem documents x).committed := List.prefix_append _ _
    refine ⟨h.stored.later rfl rfl rfl hgrows hclock, Walking.later hwalking rfl, page, hget, hfetched,
      ?_, hunblank⟩
    intro y hy
    rcases hitems y hy with hdone | hrest
    · exact .inl (processed_mono t.checkpointed hgrows hdone)
    · rcases List.mem_cons.mp hrest with rfl | hlater
      · exact .inl (mem_processed_commit documents t.checkpointed h.stored.kept.committed)
      · exact .inr hlater
  | @saved now job client fetched cursor hphase hnext =>
    rw [show t.st.phase = .processing job client fetched [] from hphase] at hphaseInv
    obtain ⟨hwalking, page, hget, rfl, hitems, hunblank⟩ := hphaseInv
    have hcursor : page.next = some cursor := by
      unfold FetchResult.next ChainPage.result at hnext
      dsimp only at hnext
      split at hnext
      · exact hnext
      · cases hnext
    have hmore : page.next.isSome = true := by
      rw [hcursor]
      rfl
    have hahead : t.checkpointed + 1 < chain.pages.length := (chain.linked _ _ hget).mp hmore
    have hnextCursor : chain.cursorAt (t.checkpointed + 1) = some cursor := by
      show (chain.pages[t.checkpointed]?).bind ChainPage.next = some cursor
      rw [hget]
      exact hcursor
    have hdone : chain.Done (t.processed s₀) (t.checkpointed + 1) := by
      refine h.stored.done.succ hget ?_
      intro y hy
      rcases hitems y hy with hprocessed | hnone
      · exact hprocessed
      · cases hnone
    have hrow := St.saveCheckpoint_row worker (t.st.tick now) job cursor hwalking.connected
    refine ⟨⟨⟨?_, ?_, h.stored.kept.committed⟩, hahead, hdone, .inr ⟨Nat.succ_pos _,
      (t.st.tick now).checkpointValue worker job cursor, ?_, ?_⟩⟩, ?_⟩
    · show ((t.st.tick now).saveCheckpoint worker job cursor).row.lastSyncedAt = _
      rw [hrow]
      exact h.stored.kept.lastSyncedAt
    · show ((t.st.tick now).saveCheckpoint worker job cursor).row.config.operator = _
      rw [hrow]
      exact h.stored.kept.operator
    · show ((t.st.tick now).saveCheckpoint worker job cursor).row.config.ingestionCheckpoint = _
      rw [hrow]
      rfl
    · refine ⟨rfl, rfl, hwalking.force, hwalking.since, hnextCursor, hwalking.token, ?_,
        Nat.le_refl _, hunblank cursor hcursor⟩
      show connectorConfigFingerprint worker.connector.sourceName t.st.row.config =
        connectorConfigFingerprint worker.connector.sourceName
          ((t.st.tick now).saveCheckpoint worker job cursor).row.config
      rw [hrow]
      rfl
    · refine ⟨?_, hwalking.force, hwalking.since, hnextCursor.symm, hwalking.token⟩
      show ((t.st.tick now).saveCheckpoint worker job cursor).row.status ≠ _
      rw [hrow]
      exact hwalking.connected
  | completed _ _ => exact absurd hok not_false
  | @recorded now job hjob =>
    obtain ⟨hlast, hcheckpoint, hoperator⟩ := St.recordFailure_row (t.st.tick now) job
    exact ⟨h.stored.later hlast hcheckpoint hoperator List.prefix_rfl hclock, trivial⟩
  | lost _ => exact ⟨h.stored.later rfl rfl rfl List.prefix_rfl hclock, trivial⟩

/-! ## Runs -/

/-- An attempt that can succeed has processed what was left of the last page. -/
theorem processed_of_completed {now : Instant} {s : St υ χ ρ ι κ τ} (h : Inv worker chain forceFullSync s₀ t)
    (hstep : step worker t.st (.completed now) = some s) :
    ∀ page ∈ chain.pages, ∀ x ∈ page.items, x ∈ t.processed s₀ := by
  obtain ⟨-, hmove⟩ := move_of_step hstep
  have hphaseInv := h.phase
  unfold PhaseInv at hphaseInv
  cases hmove with
  | @completed _ job client fetched hphase hlast =>
    rw [show t.st.phase = .processing job client fetched [] from hphase] at hphaseInv
    obtain ⟨-, page, hget, rfl, hitems, -⟩ := hphaseInv
    have hdone : chain.Done (t.processed s₀) (t.checkpointed + 1) := by
      refine h.stored.done.succ hget ?_
      intro y hy
      rcases hitems y hy with hprocessed | hnone
      · exact hprocessed
      · cases hnone
    have hend : chain.pages.length ≤ t.checkpointed + 1 := by
      have hnot : ¬ t.checkpointed + 1 < chain.pages.length := by
        rw [← chain.linked _ _ hget]
        exact Bool.eq_false_iff.mp hlast
      omega
    unfold Chain.Done at hdone
    rw [List.take_of_length_le hend] at hdone
    exact hdone

/-- Whatever the attempts before it came to, an attempt starts behind the last page that
was checkpointed, all of whose items are processed; and when an attempt succeeds every
item of every page is. -/
theorem crash_replays (hidle : s₀.phase = .idle)
    (hunmatched : ∀ now, (s₀.tick now).load worker forceFullSync = none)
    (hrun : Run (attempt worker) (Dying worker chain forceFullSync s₀) { st := s₀ } t) :
    (∀ now s, step worker t.st (.completed now) = some s →
        ∀ page ∈ chain.pages, ∀ x ∈ page.items, x ∈ t.processed s₀) ∧
      ∀ now s, Unexpired worker t.st now → step worker t.st (.started now forceFullSync) = some s →
        ∃ job, s.phase = .authenticating job ∧ job.since = s₀.baseSince forceFullSync ∧
          job.cursor = chain.cursorAt t.checkpointed ∧ chain.Done (t.processed s₀) t.checkpointed := by
  have hinv : Inv worker chain forceFullSync s₀ t :=
    hrun.invariant (fun _ _ _ h hok hstep => inv_step h hunmatched hok hstep) (inv_start hidle)
  refine ⟨fun now s hstep => processed_of_completed hinv hstep, ?_⟩
  intro now s hunexpired hstep
  obtain ⟨hclock, hmove⟩ := move_of_step hstep
  cases hmove with
  | started hphase hconnected =>
    have hwalking := hinv.stored.walking_start hunmatched hconnected hclock hunexpired
    exact ⟨_, rfl, hwalking.since, hwalking.cursor, hinv.stored.done⟩

end Invariant

/-! ## Two pages -/

section Example

def twoPages : Chain String Nat where
  pages := [{ items := ["a"], next := some 1 }, { items := ["b"] }]
  nonempty := by decide
  linked := by
    intro i page hpage
    match i with
    | 0 =>
      obtain rfl := Option.some.inj hpage
      decide
    | 1 =>
      obtain rfl := Option.some.inj hpage
      decide
    | _ + 2 => cases hpage

def pagedWorker : Worker Unit Unit Unit String Nat Empty where
  settings :=
    { ingestionCheckpointTtl := 100, ingestionMaxPagesPerAttempt := 5, ingestionMaxItemsPerPage := 5 }
  contentHash := fun raw => .ok raw.content
  connector :=
    { sourceName := "wiki"
      authenticate := fun _ => .ok ()
      fetchBatch := fun client _ _ cursor _ =>
        ((if cursor = none then { items := ["a"], nextCursor := some 1, hasMore := true }
          else { items := ["b"] }), client)
      normalize := fun item => { source := "wiki", externalId := item, content := item } }

def registered : St Unit Unit Unit String Nat Empty := .registered "wiki" () []

/-- One attempt dies between the commit of the item and the checkpoint, one after the
checkpoint. -/
def dyingAttempts : List (Label Unit) :=
  [.started 1 false, .authenticated 2, .fetched 3 (), .processed 4, .raised 5 false,
    .started 6 false, .authenticated 7, .fetched 8 (), .processed 9, .saved 10, .raised 11 true,
    .started 12 false, .authenticated 13, .fetched 14 (), .processed 15]

def admitted (t : Attempts Unit Unit Unit String Nat Empty) : Label Unit → Bool
  | .started now force =>
    force = false ∧ t.st.row.config.ingestionCheckpoint.all fun C => now ≤ C.updatedAt + 100
  | .completed _ => false
  | _ => true

theorem pagedWorker_answers (job : Job Unit String Nat Empty) :
    Answers pagedWorker twoPages false registered job () () := by
  intro _ i page hpage hcursor
  match i with
  | 0 =>
    obtain rfl := Option.some.inj hpage
    have hnone : job.cursor = none := hcursor
    show (if job.cursor = none then _ else _) = _
    rw [if_pos hnone]
    rfl
  | 1 =>
    obtain rfl := Option.some.inj hpage
    have hsome : job.cursor = some 1 := hcursor
    show (if job.cursor = none then _ else _) = _
    rw [hsome]
    rfl
  | _ + 2 => cases hpage

theorem admitted_dying (t : Attempts Unit Unit Unit String Nat Empty) (a : Label Unit)
    (h : admitted t a = true) : Dying pagedWorker twoPages false registered t a := by
  cases a with
  | started now force =>
    obtain ⟨hforce, hall⟩ := of_decide_eq_true h
    refine ⟨hforce, ?_⟩
    intro C hC
    rw [hC] at hall
    exact of_decide_eq_true hall
  | completed now => cases h
  | fetched now remote =>
    unfold Dying
    dsimp only
    split
    · exact pagedWorker_answers _
    · trivial
  | authenticated _ | processed _ | saved _ | raised _ _ => trivial

theorem crash_replays_twice :
    ∃ t, execWithin (attempt pagedWorker) (fun t a => admitted t a = true) { st := registered }
        dyingAttempts = some t ∧
      ∀ page ∈ twoPages.pages, ∀ x ∈ page.items, x ∈ t.processed registered := by
  have hreplay : ((execWithin (attempt pagedWorker) (fun t a => admitted t a = true)
      { st := registered } dyingAttempts).any fun t =>
        decide ((step pagedWorker t.st (.completed 16)).isSome = true)) = true := by
    decide +kernel
  obtain ⟨t, hexec, hcompleted⟩ := (Option.any_eq_true _ _).mp hreplay
  obtain ⟨s, hs⟩ := Option.isSome_iff_exists.mp (of_decide_eq_true hcompleted)
  have hdying := (run_of_execWithin hexec).weaken admitted_dying
  exact ⟨t, hexec, (crash_replays rfl (fun _ => rfl) hdying).1 16 s hs⟩

end Example

end Ekip.Ingestion.CrashReplay
