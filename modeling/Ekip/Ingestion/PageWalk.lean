import Ekip.Lib.Run
import Ekip.Lib.Paging
import Ekip.Ingestion.Connectors.Base

/-!
# One walk of `fetch_batch`

The walk begins at the cursor `None` and ends with the page whose `has_more` is
false. Between two pages the source may change. The pages of the connectors below
are slices of the lists of several containers, one container after the other; the
cursor says which container the walk has come to, and at which offset it stands.
-/
namespace Ekip.Ingestion.PageWalk

open Ekip.Lib Ekip.Lib.Paging

variable {σ μ ι κ τ ζ : Type}

/-! ## The walk -/

structure Walk (σ ι κ : Type) where
  source : σ
  cursor : Option κ := none
  returned : List ι := []
  hasMore : Bool := true

inductive Label (μ : Type)
  /-- The source changes, if it can change so. -/
  | changed (change : μ)
  | fetched

section Steps

variable (fetchBatch : σ → Option κ → FetchResult ι κ τ) (change : σ → μ → Option σ)

def step (w : Walk σ ι κ) : Label μ → Option (Walk σ ι κ)
  | .changed m => (change w.source m).map fun source => { w with source }
  | .fetched =>
    if w.hasMore then
      some { w with
        cursor := (fetchBatch w.source w.cursor).nextCursor
        returned := w.returned ++ (fetchBatch w.source w.cursor).items
        hasMore := (fetchBatch w.source w.cursor).hasMore }
    else none

theorem step_cases {w w' : Walk σ ι κ} {a : Label μ} (h : step fetchBatch change w a = some w') :
    (∃ m source, a = .changed m ∧ change w.source m = some source ∧ w' = { w with source }) ∨
      (a = .fetched ∧ w.hasMore = true ∧ w' = { w with
        cursor := (fetchBatch w.source w.cursor).nextCursor
        returned := w.returned ++ (fetchBatch w.source w.cursor).items
        hasMore := (fetchBatch w.source w.cursor).hasMore }) := by
  cases a with
  | changed m =>
    obtain ⟨source, hsource, rfl⟩ := Option.map_eq_some_iff.mp h
    exact .inl ⟨m, source, rfl, hsource, rfl⟩
  | fetched =>
    simp only [step] at h
    split at h
    · rename_i hmore
      cases h
      exact .inr ⟨rfl, hmore, rfl⟩
    · cases h

end Steps

/-! ## Slices of containers -/

/-- How a connector walks its containers: where a cursor stands, which keys a
container lists, and which raw items show a key. -/
structure Layout (σ ι κ ζ : Type) where
  containers : Nat
  place : Option κ → Nat × Nat
  listed : σ → Nat → List ζ
  shows : Nat → ζ → ι → Prop

/-- What one page does. The rest of the container is on it or ahead of the next page,
and the walk does not end while containers remain. -/
structure Layout.Pages (layout : Layout σ ι κ ζ) (fetchBatch : σ → Option κ → FetchResult ι κ τ) :
    Prop where
  start : layout.place none = (0, 0)
  covers : ∀ source cursor, ∀ x ∈ (layout.listed source (layout.place cursor).1).drop
      (layout.place cursor).2,
    (∃ raw ∈ (fetchBatch source cursor).items, layout.shows (layout.place cursor).1 x raw) ∨
      (fetchBatch source cursor).hasMore = true ∧
        (layout.place (fetchBatch source cursor).nextCursor).1 = (layout.place cursor).1 ∧
        x ∈ (layout.listed source (layout.place cursor).1).drop
          (layout.place (fetchBatch source cursor).nextCursor).2
  onward : ∀ source cursor i, (layout.place cursor).1 < i → i < layout.containers →
    (fetchBatch source cursor).hasMore = true ∧
      ((layout.place (fetchBatch source cursor).nextCursor).1 = (layout.place cursor).1 ∨
        layout.place (fetchBatch source cursor).nextCursor = ((layout.place cursor).1 + 1, 0))

/-- The change keeps the listed keys, and what is ahead in the present container. -/
def Layout.Quiet (layout : Layout σ ι κ ζ) (cursor : Option κ) (source source' : σ) : Prop :=
  (∀ i, layout.listed source i ⊆ layout.listed source' i) ∧
    Keeps (layout.place cursor).2 (layout.listed source (layout.place cursor).1)
      (layout.listed source' (layout.place cursor).1)

/-- The key is listed, and it was returned or is still to come. -/
def Layout.Covered (layout : Layout σ ι κ ζ) (w : Walk σ ι κ) (i : Nat) (x : ζ) : Prop :=
  x ∈ layout.listed w.source i ∧
    ((∃ raw ∈ w.returned, layout.shows i x raw) ∨ w.hasMore = true ∧
      (i = (layout.place w.cursor).1 ∧ x ∈ (layout.listed w.source i).drop (layout.place w.cursor).2 ∨
        (layout.place w.cursor).1 < i))

variable {layout : Layout σ ι κ ζ} {fetchBatch : σ → Option κ → FetchResult ι κ τ}
  {change : σ → μ → Option σ} {ok : Walk σ ι κ → Label μ → Prop} {w w' : Walk σ ι κ} {i : Nat} {x : ζ}

theorem Layout.Covered.changed {source : σ} (h : layout.Covered w i x)
    (hquiet : layout.Quiet w.cursor w.source source) : layout.Covered { w with source } i x := by
  obtain ⟨hlisted, hcovered⟩ := h
  refine ⟨hquiet.1 i hlisted, ?_⟩
  rcases hcovered with hreturned | ⟨hmore, ⟨hi, hahead⟩ | hlater⟩
  · exact .inl hreturned
  · refine .inr ⟨hmore, .inl ⟨hi, ?_⟩⟩
    rw [hi] at hahead ⊢
    exact hquiet.2 x hahead
  · exact .inr ⟨hmore, .inr hlater⟩

theorem Layout.Covered.fetched (h : layout.Covered w i x) (hpages : layout.Pages fetchBatch)
    (hi : i < layout.containers) :
    layout.Covered { w with
      cursor := (fetchBatch w.source w.cursor).nextCursor
      returned := w.returned ++ (fetchBatch w.source w.cursor).items
      hasMore := (fetchBatch w.source w.cursor).hasMore } i x := by
  obtain ⟨hlisted, hcovered⟩ := h
  refine ⟨hlisted, ?_⟩
  rcases hcovered with ⟨raw, hraw, hshows⟩ | ⟨-, ⟨rfl, hahead⟩ | hlater⟩
  · exact .inl ⟨raw, List.mem_append_left _ hraw, hshows⟩
  · rcases hpages.covers w.source w.cursor x hahead with ⟨raw, hraw, hshows⟩ | ⟨hmore, hsame, hnext⟩
    · exact .inl ⟨raw, List.mem_append_right _ hraw, hshows⟩
    · exact .inr ⟨hmore, .inl ⟨hsame.symm, hnext⟩⟩
  · obtain ⟨hmore, hsame | hnext⟩ := hpages.onward w.source w.cursor i hlater hi
    · refine .inr ⟨hmore, .inr ?_⟩
      show (layout.place (fetchBatch w.source w.cursor).nextCursor).1 < i
      rw [hsame]
      exact hlater
    · by_cases hnow : i = (layout.place w.cursor).1 + 1
      · refine .inr ⟨hmore, .inl ?_⟩
        show i = (layout.place (fetchBatch w.source w.cursor).nextCursor).1 ∧
          x ∈ (layout.listed w.source i).drop
            (layout.place (fetchBatch w.source w.cursor).nextCursor).2
        rw [hnext]
        exact ⟨hnow, hlisted⟩
      · refine .inr ⟨hmore, .inr ?_⟩
        show (layout.place (fetchBatch w.source w.cursor).nextCursor).1 < i
        rw [hnext]
        show (layout.place w.cursor).1 + 1 < i
        omega

/-- What is listed when the walk begins is returned by its end, if each change of the
source is quiet. -/
theorem returned_of_quiet (hpages : layout.Pages fetchBatch)
    (hquiet : ∀ w m source, ok w (.changed m) → change w.source m = some source →
      layout.Quiet w.cursor w.source source)
    {source : σ} (hrun : Run (step fetchBatch change) ok { source } w) (hend : w.hasMore = false)
    (hi : i < layout.containers) (hx : x ∈ layout.listed source i) :
    ∃ raw ∈ w.returned, layout.shows i x raw := by
  have hstart : layout.Covered { source } i x := by
    refine ⟨hx, .inr ⟨rfl, ?_⟩⟩
    show i = (layout.place none).1 ∧ x ∈ (layout.listed source i).drop (layout.place none).2 ∨
      (layout.place none).1 < i
    rw [hpages.start]
    by_cases hzero : i = 0
    · exact .inl ⟨hzero, hx⟩
    · exact .inr (Nat.pos_of_ne_zero hzero)
  have hcovered := hrun.invariant (I := fun w => layout.Covered w i x) (by
    intro w a w' hw hok hstep
    rcases step_cases fetchBatch change hstep with ⟨m, source, rfl, hsource, rfl⟩ | ⟨rfl, -, rfl⟩
    · exact hw.changed (hquiet w m source hok hsource)
    · exact hw.fetched hpages hi) hstart
  rcases hcovered.2 with hreturned | ⟨hmore, -⟩
  · exact hreturned
  · rw [hend] at hmore
    cases hmore

/-! ## Pages that leave some of their results out -/

variable {ι' : Type} {fetchBatch' : σ → Option κ → FetchResult ι' κ τ}

/-- One walk returns what `keep` makes of what the other returns. -/
structure Walk.Kept (keep : ι → Option ι') (w : Walk σ ι κ) (w' : Walk σ ι' κ) : Prop where
  source : w.source = w'.source
  cursor : w.cursor = w'.cursor
  hasMore : w.hasMore = w'.hasMore
  returned : w'.returned = w.returned.filterMap keep

theorem run_kept (fetchBatch : σ → Option κ → FetchResult ι κ τ) (keep : ι → Option ι')
    (hpage : ∀ source cursor, fetchBatch' source cursor =
      { items := (fetchBatch source cursor).items.filterMap keep
        nextCursor := (fetchBatch source cursor).nextCursor
        hasMore := (fetchBatch source cursor).hasMore
        resumeToken := (fetchBatch source cursor).resumeToken })
    {ok' : Walk σ ι' κ → Label μ → Prop}
    (hok : ∀ (w : Walk σ ι κ) (w' : Walk σ ι' κ) a, w.Kept keep w' → ok' w' a → ok w a)
    {source : σ} {w' : Walk σ ι' κ} (hrun : Run (step fetchBatch' change) ok' { source } w') :
    ∃ w : Walk σ ι κ, Run (step fetchBatch change) ok { source } w ∧ w.Kept keep w' := by
  generalize hstart : ({ source } : Walk σ ι' κ) = w₀ at hrun
  induction hrun with
  | refl => exact ⟨{ source }, .refl _, by rw [← hstart]; exact ⟨rfl, rfl, rfl, rfl⟩⟩
  | @tail t u a _ hok' hstep ih =>
    obtain ⟨w, hw, hkept⟩ := ih
    have hadmitted := hok w t a hkept hok'
    rcases step_cases fetchBatch' change hstep with
      ⟨m, source', rfl, hsource, rfl⟩ | ⟨rfl, hmore, rfl⟩
    · refine ⟨{ w with source := source' }, hw.tail hadmitted ?_, ?_⟩
      · show (change w.source m).map _ = some _
        rw [hkept.source, hsource]
        rfl
      · exact ⟨rfl, hkept.cursor, hkept.hasMore, hkept.returned⟩
    · have hpage' := hpage t.source t.cursor
      refine ⟨{ w with
        cursor := (fetchBatch w.source w.cursor).nextCursor
        returned := w.returned ++ (fetchBatch w.source w.cursor).items
        hasMore := (fetchBatch w.source w.cursor).hasMore }, hw.tail hadmitted ?_, ?_⟩
      · show (if w.hasMore then _ else none) = _
        rw [if_pos (hkept.hasMore.trans hmore)]
      · constructor
        · exact hkept.source
        · show (fetchBatch w.source w.cursor).nextCursor = (fetchBatch' t.source t.cursor).nextCursor
          rw [hpage', hkept.source, hkept.cursor]
        · show (fetchBatch w.source w.cursor).hasMore = (fetchBatch' t.source t.cursor).hasMore
          rw [hpage', hkept.source, hkept.cursor]
        · show t.returned ++ (fetchBatch' t.source t.cursor).items =
            (w.returned ++ (fetchBatch w.source w.cursor).items).filterMap keep
          rw [hpage', hkept.returned, hkept.source, hkept.cursor, List.filterMap_append]

end Ekip.Ingestion.PageWalk
