import Mathlib.Data.List.TakeWhile
import Ekip.Ingestion.Execution

/-!
# One attempt of the page loop

Whatever the source answers, an attempt passes no cursor twice, processes no page that
is too long and stops: the pages that it may still fetch bound the steps that it may
still take.
-/
namespace Ekip.Ingestion

open Ekip.Lib Ekip.Database

variable {υ χ ρ ι κ τ : Type}

/-! ## The steps of an attempt -/

section Trace

variable [DecidableEq υ] [DecidableEq ι] [DecidableEq κ] (worker : Worker υ χ ρ ι κ τ)

/-- The steps that are taken, each with the state before it. -/
def visits : St υ χ ρ ι κ τ → List (Label ρ) → List (St υ χ ρ ι κ τ × Label ρ)
  | _, [] => []
  | s, a :: labels =>
    match step worker s a with
    | none => []
    | some t => (s, a) :: visits t labels

/-- An attempt goes on until the next one is started. -/
def attempt (s : St υ χ ρ ι κ τ) (now : Instant) (forceFullSync : Bool) (labels : List (Label ρ)) :
    List (St υ χ ρ ι κ τ × Label ρ) :=
  visits worker s (.started now forceFullSync ::
    labels.takeWhile fun a => match a with | .started _ _ => false | _ => true)

/-- The `cursor` argument, where the step is a call of `fetch_batch`, or one that
raised. -/
def passedCursor (visit : St υ χ ρ ι κ τ × Label ρ) : Option (Option κ) :=
  match visit.2, visit.1.phase with
  | .fetched _ _, .fetching job _ => some job.cursor
  | .raised _ _, .fetching job _ => some job.cursor
  | _, _ => none

def passedCursors (trace : List (St υ χ ρ ι κ τ × Label ρ)) : List (Option κ) :=
  trace.filterMap passedCursor

/-- What an attempt does in at most so many steps, `past` being the cursors that it has
passed before. -/
structure PageLoop (past : List (Option κ)) (steps : Nat)
    (trace : List (St υ χ ρ ι κ τ × Label ρ)) : Prop where
  fetched : (past ++ passedCursors trace).length ≤ worker.settings.ingestionMaxPagesPerAttempt + 1
  /-- No cursor is passed for two pages. -/
  fresh : (past ++ passedCursors trace).Nodup
  pages : ∀ visit ∈ trace, ∀ now, visit.2 = .processed now → ∀ job client page rest,
    visit.1.phase = .processing job client page rest →
      page.items.length ≤ worker.settings.ingestionMaxItemsPerPage
  advances : ∀ visit ∈ trace, ∀ now, visit.2 = .saved now → ∀ t, step worker visit.1 visit.2 = some t →
    ∃ job client cursor, t.phase = .fetching job client ∧ job.cursor = some cursor ∧
      worker.connector.blank cursor = false
  ends : trace.length ≤ steps

end Trace

/-! ## The loop invariant -/

section Invariant

variable (worker : Worker υ χ ρ ι κ τ) (past : List (Option κ))

structure Fetched (job : Job ρ ι κ τ) : Prop where
  count : past.length = job.pagesFetched
  nodup : past.Nodup
  seen : ∀ cursor, some cursor ∈ past → cursor ∈ job.seenCursors

/-- `past` are the cursors that the attempt has passed so far. -/
def Bounded : Phase χ ρ ι κ τ → Prop
  | .idle | .refused _ =>
    past.Nodup ∧ past.length ≤ worker.settings.ingestionMaxPagesPerAttempt + 1
  | .authenticating job =>
    past = [] ∧ job.pagesFetched = 0 ∧ ∀ cursor, job.cursor = some cursor →
      cursor ∈ job.seenCursors
  | .fetching job _ =>
    Fetched past job ∧ job.pagesFetched ≤ worker.settings.ingestionMaxPagesPerAttempt ∧
      job.cursor ∉ past ∧ ∀ cursor, job.cursor = some cursor → cursor ∈ job.seenCursors
  | .processing job _ page rest =>
    Fetched past job ∧ job.pagesFetched ≤ worker.settings.ingestionMaxPagesPerAttempt ∧
      page.items.length ≤ worker.settings.ingestionMaxItemsPerPage ∧
      rest.length ≤ page.items.length ∧ ∀ cursor, page.next = some cursor →
        worker.connector.blank cursor = false ∧ cursor ∉ job.seenCursors

/-- The steps that are still to come. -/
def remaining : Phase χ ρ ι κ τ → Nat
  | .idle => 0
  | .refused _ => 1
  | .authenticating _ =>
    worker.settings.ingestionMaxPagesPerAttempt *
      (worker.settings.ingestionMaxItemsPerPage + 2) + 3
  | .fetching job _ =>
    (worker.settings.ingestionMaxPagesPerAttempt - job.pagesFetched) *
      (worker.settings.ingestionMaxItemsPerPage + 2) + 2
  | .processing job _ _ rest =>
    (worker.settings.ingestionMaxPagesPerAttempt - job.pagesFetched) *
      (worker.settings.ingestionMaxItemsPerPage + 2) + 3 + rest.length

end Invariant

/-- What the contract of a page comes to. -/
theorem validateFetchResult_ok [DecidableEq κ] {settings : Settings} {blank : κ → Bool} {source : String}
    {page : FetchResult ι κ τ} {pageNumber : Nat} {seenCursors : List κ}
    (h : validateFetchResult settings blank source page pageNumber seenCursors = .ok ()) :
    pageNumber ≤ settings.ingestionMaxPagesPerAttempt ∧
      page.items.length ≤ settings.ingestionMaxItemsPerPage ∧
      ∀ cursor, page.next = some cursor → blank cursor = false ∧ cursor ∉ seenCursors := by
  unfold validateFetchResult at h
  by_cases hpages : settings.ingestionMaxPagesPerAttempt < pageNumber
  · rw [if_pos hpages] at h
    cases h
  · by_cases hitems : settings.ingestionMaxItemsPerPage < page.items.length
    · rw [if_neg hpages, if_pos hitems] at h
      cases h
    · refine ⟨Nat.le_of_not_lt hpages, Nat.le_of_not_lt hitems, ?_⟩
      intro cursor hnext
      unfold FetchResult.next at hnext
      rw [if_neg hpages, if_neg hitems] at h
      by_cases hmore : page.hasMore = true
      · rw [if_pos hmore] at hnext
        rw [if_neg (by rw [hmore]; exact Bool.noConfusion), hnext] at h
        dsimp only at h
        by_cases hblank : blank cursor = true
        · rw [if_pos hblank] at h
          cases h
        · by_cases hseen : cursor ∈ seenCursors
          · rw [if_neg hblank, if_pos hseen] at h
            cases h
          · exact ⟨Bool.eq_false_iff.mpr hblank, hseen⟩
      · rw [if_neg hmore] at hnext
        cases hnext

section Step

variable {worker : Worker υ χ ρ ι κ τ} {past : List (Option κ)} {s t : St υ χ ρ ι κ τ} {a : Label ρ}

theorem begin_bounded [DecidableEq υ] [DecidableEq ι] (s : St υ χ ρ ι κ τ) (forceFullSync : Bool) :
    (s.begin worker forceFullSync).pagesFetched = 0 ∧ ∀ cursor,
      (s.begin worker forceFullSync).cursor = some cursor →
        cursor ∈ (s.begin worker forceFullSync).seenCursors := by
  rcases begin_cases worker s forceFullSync with ⟨-, hbegin⟩ | ⟨raw, -, -, hbegin⟩
  · rw [hbegin]
    exact ⟨rfl, fun cursor hcursor => by cases hcursor⟩
  · rw [hbegin]
    refine ⟨rfl, ?_⟩
    intro cursor hcursor
    cases hcursor
    exact List.mem_singleton_self _

/-- A phase that holds a job can end at any time. -/
theorem Bounded.stopped {phase : Phase χ ρ ι κ τ} (h : Bounded worker past phase) :
    Bounded worker past (.idle : Phase χ ρ ι κ τ) := by
  cases phase with
  | idle | refused job => exact h
  | authenticating job =>
    obtain ⟨rfl, -, -⟩ := h
    exact ⟨List.nodup_nil, Nat.zero_le _⟩
  | fetching job client =>
    obtain ⟨hfetched, hpages, -, -⟩ := h
    exact ⟨hfetched.nodup, by rw [hfetched.count]; omega⟩
  | processing job client page rest =>
    obtain ⟨hfetched, hpages, -, -, -⟩ := h
    exact ⟨hfetched.nodup, by rw [hfetched.count]; omega⟩

/-- One more page is asked for, and the attempt ends there. -/
theorem Bounded.passed {job : Job ρ ι κ τ} {client : χ}
    (h : Bounded worker past (.fetching job client)) :
    (past ++ [job.cursor]).Nodup ∧
      (past ++ [job.cursor]).length ≤ worker.settings.ingestionMaxPagesPerAttempt + 1 := by
  obtain ⟨hfetched, hpages, hfresh, -⟩ := h
  constructor
  · refine List.nodup_append.mpr ⟨hfetched.nodup, List.nodup_singleton _, ?_⟩
    intro cursor hmem other hother heq
    rw [heq, List.mem_singleton.mp hother] at hmem
    exact hfresh hmem
  · rw [List.length_append, hfetched.count, List.length_singleton]
    omega

theorem remaining_pos {phase : Phase χ ρ ι κ τ} {job : Job ρ ι κ τ} (h : phase.job? = some job) :
    0 < remaining worker phase := by
  cases phase with
  | idle => cases h
  | refused job => exact Nat.one_pos
  | authenticating job | fetching job client => exact Nat.succ_pos _
  | processing job client page rest =>
    show 0 < _ + 3 + rest.length
    omega

theorem Bounded.raised {now : Instant} {recorded : Bool}
    (h : Bounded worker past s.phase) :
    Bounded worker (past ++ (passedCursor (s, .raised now recorded)).toList)
      (.idle : Phase χ ρ ι κ τ) := by
  unfold passedCursor
  cases hphase : s.phase with
  | fetching job client =>
    rw [hphase] at h
    exact h.passed
  | idle | refused job | authenticating job | processing job client page rest =>
    show Bounded worker (past ++ []) _
    rw [List.append_nil]
    exact h.stopped

variable [DecidableEq υ] [DecidableEq ι] [DecidableEq κ]

/-- A step of an attempt that is under way keeps the invariant and uses up a step. -/
theorem bounded_step (hbounded : Bounded worker past s.phase)
    (hbegins : ∀ now forceFullSync, a ≠ .started now forceFullSync)
    (hstep : step worker s a = some t) :
    Bounded worker (past ++ (passedCursor (s, a)).toList) t.phase ∧
      remaining worker t.phase + 1 ≤ remaining worker s.phase := by
  obtain ⟨-, hmove⟩ := move_of_step hstep
  cases hmove with
  | started => exact absurd rfl (hbegins _ _)
  | @authenticated now job client hphase hclient =>
    have hphase : s.phase = .authenticating job := hphase
    have hnone : passedCursor (s, Label.authenticated (ρ := ρ) now) = none := rfl
    rw [hphase] at hbounded ⊢
    obtain ⟨rfl, hpages, hcursor⟩ := hbounded
    rw [hnone]
    constructor
    · refine ⟨⟨hpages.symm, List.nodup_nil, ?_⟩, ?_, List.not_mem_nil, hcursor⟩
      · intro cursor hmem
        exact absurd hmem List.not_mem_nil
      · rw [hpages]
        exact Nat.zero_le _
    · show (_ - job.pagesFetched) * _ + 2 + 1 ≤ _
      rw [hpages]
      exact le_rfl
  | @refused now remote job client client' page hphase hpage =>
    have hphase : s.phase = .fetching job client := hphase
    have hpassed : passedCursor (s, Label.fetched now remote) = some job.cursor := by
      unfold passedCursor
      rw [hphase]
    rw [hphase] at hbounded ⊢
    rw [hpassed]
    constructor
    · exact hbounded.passed
    · show 1 + 1 ≤ _ + 2
      omega
  | @accepted now remote job client client' page hphase hpage hvalid =>
    have hphase : s.phase = .fetching job client := hphase
    have hpassed : passedCursor (s, Label.fetched now remote) = some job.cursor := by
      unfold passedCursor
      rw [hphase]
    rw [hphase] at hbounded ⊢
    obtain ⟨hnodup, -⟩ := hbounded.passed
    obtain ⟨hfetched, -, -, hcursor⟩ := hbounded
    obtain ⟨hpages, hitems, hnext⟩ := validateFetchResult_ok hvalid
    rw [hpassed]
    constructor
    · refine ⟨⟨?_, hnodup, ?_⟩, hpages, hitems, le_rfl, hnext⟩
      · rw [List.length_append, hfetched.count]
        rfl
      · intro cursor hmem
        rcases List.mem_append.mp hmem with hold | hnew
        · exact hfetched.seen cursor hold
        · exact hcursor cursor (List.mem_singleton.mp hnew).symm
    · have hle : job.pagesFetched + 1 ≤ worker.settings.ingestionMaxPagesPerAttempt := hpages
      show (_ - (job.pagesFetched + 1)) * _ + 3 + page.items.length + 1 ≤
        (_ - job.pagesFetched) * _ + 2
      obtain ⟨left, hleft⟩ := Nat.exists_eq_add_of_le hle
      have hbefore : worker.settings.ingestionMaxPagesPerAttempt - job.pagesFetched = left + 1 := by
        omega
      have hafter : worker.settings.ingestionMaxPagesPerAttempt - (job.pagesFetched + 1) = left := by
        omega
      rw [hbefore, hafter, Nat.succ_mul]
      omega
  | @processed now job client page rawItem rest written documents hphase hprocess =>
    have hphase : s.phase = .processing job client page (rawItem :: rest) := hphase
    have hnone : passedCursor (s, Label.processed (ρ := ρ) now) = none := rfl
    rw [hphase] at hbounded ⊢
    obtain ⟨hfetched, hpages, hitems, hrest, hnext⟩ := hbounded
    rw [List.length_cons] at hrest
    rw [hnone, Option.toList_none, List.append_nil]
    constructor
    · exact ⟨hfetched, hpages, hitems, by omega, hnext⟩
    · show _ + 3 + rest.length + 1 ≤ _ + 3 + (rest.length + 1)
      omega
  | @saved now job client page cursor hphase hnextCursor =>
    have hphase : s.phase = .processing job client page [] := hphase
    have hnone : passedCursor (s, Label.saved (ρ := ρ) now) = none := rfl
    rw [hphase] at hbounded ⊢
    obtain ⟨hfetched, hpages, -, -, hnext⟩ := hbounded
    obtain ⟨-, hunseen⟩ := hnext cursor hnextCursor
    rw [hnone, Option.toList_none, List.append_nil]
    constructor
    · refine ⟨⟨hfetched.count, hfetched.nodup, ?_⟩, hpages, ?_, ?_⟩
      · intro other hmem
        exact List.mem_cons_of_mem _ (hfetched.seen other hmem)
      · intro hmem
        exact hunseen (hfetched.seen cursor hmem)
      · intro other hother
        cases hother
        exact List.mem_cons_self
    · exact le_rfl
  | @completed now job client page hphase hlast =>
    have hphase : s.phase = .processing job client page [] := hphase
    have hnone : passedCursor (s, Label.completed (ρ := ρ) now) = none := rfl
    rw [hnone, Option.toList_none, List.append_nil]
    refine ⟨hbounded.stopped, ?_⟩
    exact remaining_pos (show s.phase.job? = some job by rw [hphase]; rfl)
  | @recorded now job hjob | @lost now job hjob => exact ⟨hbounded.raised, remaining_pos hjob⟩

/-- A new cursor comes from an accepted page. -/
theorem advanced_of_saved {now : Instant} (hbounded : Bounded worker past s.phase)
    (hstep : step worker s (.saved now) = some t) : ∃ job client cursor,
      t.phase = .fetching job client ∧ job.cursor = some cursor ∧
        worker.connector.blank cursor = false := by
  obtain ⟨-, hmove⟩ := move_of_step hstep
  cases hmove with
  | @saved _ job client page cursor hphase hnextCursor =>
    have hphase : s.phase = .processing job client page [] := hphase
    rw [hphase] at hbounded
    obtain ⟨-, -, -, -, hnext⟩ := hbounded
    exact ⟨job.advance cursor, client, cursor, rfl, rfl, (hnext cursor hnextCursor).1⟩

/-! ## Whole attempts -/

theorem PageLoop.nil (hnodup : past.Nodup)
    (hlength : past.length ≤ worker.settings.ingestionMaxPagesPerAttempt + 1) (steps : Nat) :
    PageLoop worker past steps ([] : List (St υ χ ρ ι κ τ × Label ρ)) := by
  have hpast : past ++ passedCursors ([] : List (St υ χ ρ ι κ τ × Label ρ)) = past :=
    List.append_nil past
  refine ⟨?_, ?_, ?_, ?_, Nat.zero_le _⟩
  · rwa [hpast]
  · rwa [hpast]
  · intro visit hvisit
    exact absurd hvisit List.not_mem_nil
  · intro visit hvisit
    exact absurd hvisit List.not_mem_nil

theorem PageLoop.cons {trace : List (St υ χ ρ ι κ τ × Label ρ)} {steps : Nat}
    (h : PageLoop worker (past ++ (passedCursor (s, a)).toList) steps trace)
    (hpage : ∀ job client page rest, s.phase = .processing job client page rest →
      page.items.length ≤ worker.settings.ingestionMaxItemsPerPage)
    (hadvance : ∀ now, a = .saved now → ∀ t, step worker s (.saved now) = some t →
      ∃ job client cursor, t.phase = .fetching job client ∧ job.cursor = some cursor ∧
        worker.connector.blank cursor = false) :
    PageLoop worker past (steps + 1) ((s, a) :: trace) := by
  have hpassed : past ++ passedCursors ((s, a) :: trace) =
      past ++ (passedCursor (s, a)).toList ++ passedCursors trace := by
    unfold passedCursors
    rw [List.filterMap_cons, List.append_assoc]
    cases passedCursor (s, a) with
    | none => rfl
    | some cursor => rfl
  refine ⟨?_, ?_, ?_, ?_, Nat.succ_le_succ h.ends⟩
  · rw [hpassed]
    exact h.fetched
  · rw [hpassed]
    exact h.fresh
  · intro visit hvisit
    rcases List.mem_cons.mp hvisit with rfl | htail
    · intro _ _
      exact hpage
    · exact h.pages visit htail
  · intro visit hvisit
    rcases List.mem_cons.mp hvisit with rfl | htail
    · rintro now rfl
      exact hadvance now rfl
    · exact h.advances visit htail

theorem PageLoop.mono {trace : List (St υ χ ρ ι κ τ × Label ρ)} {steps more : Nat}
    (h : PageLoop worker past steps trace) (hle : steps ≤ more) : PageLoop worker past more trace :=
  { h with ends := h.ends.trans hle }

/-- What the rest of an attempt does. -/
theorem pageLoop_of_bounded {labels : List (Label ρ)} (hbounded : Bounded worker past s.phase)
    (hbegins : ∀ a ∈ labels, ∀ now forceFullSync, a ≠ .started now forceFullSync) :
    PageLoop worker past (remaining worker s.phase) (visits worker s labels) := by
  induction labels generalizing s past with
  | nil =>
    obtain ⟨hnodup, hlength⟩ := hbounded.stopped
    exact .nil hnodup hlength _
  | cons a labels ih =>
    obtain ⟨hfirst, hlater⟩ := List.forall_mem_cons.mp hbegins
    unfold visits
    cases hstep : step worker s a with
    | none =>
      obtain ⟨hnodup, hlength⟩ := hbounded.stopped
      exact .nil hnodup hlength _
    | some t =>
      obtain ⟨hkept, hsteps⟩ := bounded_step hbounded hfirst hstep
      refine (PageLoop.cons (ih hkept hlater) ?_ ?_).mono hsteps
      · intro job client page rest hphase
        rw [hphase] at hbounded
        exact hbounded.2.2.1
      · rintro now rfl t' hsaved
        exact advanced_of_saved hbounded hsaved

end Step

/-- The page loop of every attempt ends, whatever connector it runs on and whatever the
source answers. -/
theorem page_loop_ends [DecidableEq υ] [DecidableEq ι] [DecidableEq κ]
    (worker : Worker υ χ ρ ι κ τ) (s : St υ χ ρ ι κ τ) (now : Instant) (forceFullSync : Bool)
    (labels : List (Label ρ)) :
    PageLoop worker []
      (worker.settings.ingestionMaxPagesPerAttempt *
        (worker.settings.ingestionMaxItemsPerPage + 2) + 4)
      (attempt worker s now forceFullSync labels) := by
  unfold attempt
  generalize hlabels : labels.takeWhile (fun a => match a with | .started _ _ => false | _ => true) =
    later
  have hbegins : ∀ a ∈ later, ∀ now forceFullSync, a ≠ .started now forceFullSync := by
    rintro a ha now forceFullSync rfl
    rw [← hlabels] at ha
    exact absurd (List.mem_takeWhile_imp ha) Bool.false_ne_true
  unfold visits
  cases hstep : step worker s (.started now forceFullSync) with
  | none => exact .nil List.nodup_nil (Nat.zero_le _) _
  | some t =>
    obtain ⟨-, hmove⟩ := move_of_step hstep
    cases hmove with
    | started hphase hconnected =>
      have hidle : s.phase = .idle := hphase
      have hstart : Bounded worker [] ((s.tick now).start worker forceFullSync).phase :=
        ⟨rfl, (begin_bounded (s.tick now) forceFullSync).1,
          (begin_bounded (s.tick now) forceFullSync).2⟩
      have hloop : PageLoop worker
          ([] ++ (passedCursor (s, Label.started (ρ := ρ) now forceFullSync)).toList)
          (remaining worker ((s.tick now).start worker forceFullSync).phase)
          (visits worker ((s.tick now).start worker forceFullSync) later) :=
        pageLoop_of_bounded hstart hbegins
      refine PageLoop.cons hloop ?_ ?_
      · intro job client page rest hprocessing
        rw [hidle] at hprocessing
        cases hprocessing
      · intro now hlabel
        cases hlabel

end Ekip.Ingestion
