import Ekip.Ingestion.PageWalk

/-!
# Sources that list their items in the order of update

Such a source has containers (projects, tables, spaces), and answers a request with a
slice of the items of one container that pass a filter on the time of their last
update, in ascending order of it. An update moves its item to the end.
-/
namespace Ekip.Ingestion.UpdateOrder

open Ekip.Lib Ekip.Lib.Paging Ekip.Database Ekip.Ingestion.PageWalk

/-- What every item of such a source has. -/
structure Entry where
  id : String
  updatedAt : Instant

variable {γ β ι κ τ : Type} [DecidableEq γ] {entry : β → Entry}

/-! ## The source -/

/-- Each container lists its items in the order of their updates. -/
structure Source (γ : Type) (entry : β → Entry) where
  items : γ → List β
  keyed : ∀ container, ((items container).map fun item => (entry item).id).Nodup

/-- An item of a container is updated, or created. -/
structure Update (γ β : Type) where
  container : γ
  item : β

def others (entry : β → Entry) (id : String) (items : List β) : List β :=
  items.filter fun item => (entry item).id ≠ id

theorem others_ids (id : String) (items : List β) :
    (others entry id items).map (fun item => (entry item).id) =
      (items.map fun item => (entry item).id).filter (· ≠ id) := by
  unfold others
  rw [List.filter_map]
  rfl

def Source.moved (source : Source γ entry) (update : Update γ β) : Source γ entry where
  items := Function.update source.items update.container
    (others entry (entry update.item).id (source.items update.container) ++ [update.item])
  keyed container := by
    by_cases h : container = update.container
    · rw [h, Function.update_self, List.map_append, others_ids, List.nodup_append]
      refine ⟨(source.keyed update.container).filter _, List.nodup_singleton _, ?_⟩
      intro id hid other hother heq
      rw [List.map_singleton, List.mem_singleton] at hother
      have hne := of_decide_eq_true (List.mem_filter.mp hid).2
      exact hne (heq.trans hother)
    · rw [Function.update_of_ne h]
      exact source.keyed container

theorem moved_items (source : Source γ entry) (update : Update γ β) :
    (source.moved update).items = Function.update source.items update.container
      (others entry (entry update.item).id (source.items update.container) ++ [update.item]) := rfl

/-- The time of the update is not before that of any item of the container. -/
def touch (source : Source γ entry) (update : Update γ β) : Option (Source γ entry) :=
  if ∀ item ∈ source.items update.container,
      (entry item).updatedAt ≤ (entry update.item).updatedAt then
    some (source.moved update)
  else none

theorem touch_moved {source source' : Source γ entry} {update : Update γ β}
    (h : touch source update = some source') : source' = source.moved update := by
  unfold touch at h
  split at h
  · exact (Option.some.inj h).symm
  · cases h

/-- The filter lets later updates pass if it lets an earlier one. -/
def Rising (passes : Entry → Bool) : Prop :=
  ∀ a b : Entry, a.updatedAt ≤ b.updatedAt → passes a = true → passes b = true

/-- The items of a container that pass the filter. -/
def Source.listed (source : Source γ entry) (passes : Entry → Bool) (container : γ) : List β :=
  (source.items container).filter fun item => passes (entry item)

def Source.ids (source : Source γ entry) (passes : Entry → Bool) (container : γ) : List String :=
  (source.listed passes container).map fun item => (entry item).id

omit [DecidableEq γ] in
theorem ids_nodup (source : Source γ entry) (passes : Entry → Bool) (container : γ) :
    (source.ids passes container).Nodup :=
  (source.keyed container).sublist (List.filter_sublist.map _)

omit [DecidableEq γ] in
/-- The ids on a page are those of the items on it. -/
theorem mem_slice_ids {source : Source γ entry} {passes : Entry → Bool} {container : γ}
    {offset size : Nat} {id : String} (h : id ∈ slice offset size (source.ids passes container)) :
    ∃ item ∈ slice offset size (source.listed passes container), (entry item).id = id := by
  unfold Source.ids at h
  rw [← map_slice] at h
  exact List.mem_map.mp h

omit [DecidableEq γ] in
theorem ids_drop_of_short {source : Source γ entry} {passes : Entry → Bool} {container : γ}
    {offset size : Nat} (h : (slice offset size (source.listed passes container)).length ≠ size) :
    (source.ids passes container).drop (offset + size) = [] := by
  unfold Source.ids
  rw [← List.map_drop, drop_of_short h, List.map_nil]

theorem ids_moved_ne {source : Source γ entry} {update : Update γ β} {passes : Entry → Bool}
    {container : γ} (h : container ≠ update.container) :
    (source.moved update).ids passes container = source.ids passes container := by
  unfold Source.ids Source.listed
  rw [moved_items, Function.update_of_ne h]

theorem ids_moved {source source' : Source γ entry} {update : Update γ β} {passes : Entry → Bool}
    (hrising : Rising passes) (h : touch source update = some source') :
    source'.ids passes update.container =
      if passes (entry update.item) then
        moveToEnd (entry update.item).id (source.ids passes update.container)
      else source.ids passes update.container := by
  unfold touch at h
  split at h
  · rename_i htime
    cases h
    have hothers : (others entry (entry update.item).id (source.items update.container)).filter
        (fun item => passes (entry item)) =
          others entry (entry update.item).id (source.listed passes update.container) := by
      unfold others Source.listed
      rw [List.filter_filter, List.filter_filter]
      apply List.filter_congr
      intro item _
      exact Bool.and_comm _ _
    have hids : (source.moved update).ids passes update.container =
        (source.ids passes update.container).filter (· ≠ (entry update.item).id) ++
          if passes (entry update.item) then [(entry update.item).id] else [] := by
      unfold Source.ids
      rw [← others_ids, ← hothers]
      unfold Source.listed
      rw [moved_items, Function.update_self, List.filter_append, List.map_append,
        List.filter_singleton]
      cases passes (entry update.item) <;> rfl
    rw [hids]
    by_cases hpass : passes (entry update.item) = true
    · rw [if_pos hpass, if_pos hpass]
      rfl
    · -- an item of this id that passed would pass now as well
      rw [if_neg hpass, if_neg hpass, List.append_nil, List.filter_eq_self]
      intro id hid
      obtain ⟨item, hitem, rfl⟩ := List.mem_map.mp hid
      obtain ⟨hmem, hpassed⟩ := List.mem_filter.mp hitem
      exact absurd (hrising _ _ (htime item hmem) hpassed) hpass
  · cases h

/-! ## A walk over the containers -/

/-- The containers that a connector goes through, where its cursor stands, and which of
its raw items shows an item of a container. -/
structure Plan (γ ι κ : Type) where
  count : Nat
  container : Nat → Option γ
  place : Option κ → Nat × Nat
  shows : γ → String → ι → Prop

def Plan.layout (plan : Plan γ ι κ) (entry : β → Entry) (passes : Entry → Bool) :
    Layout (Source γ entry) ι κ String where
  containers := plan.count
  place := plan.place
  listed source i := (plan.container i).elim [] (source.ids passes)
  shows i id raw := ∃ container, plan.container i = some container ∧ plan.shows container id raw

/-- One page of a container: it shows a slice of the ids, and leads on in the container,
or to the next one when no id is left. -/
structure Plan.Turns (plan : Plan γ ι κ) (size : Nat) (container : γ) (ids : List String)
    (cursor : Option κ) (page : FetchResult ι κ τ) : Prop where
  shown : ∀ id ∈ slice (plan.place cursor).2 size ids, ∃ raw ∈ page.items, plan.shows container id raw
  next :
    (page.hasMore = true ∧
        plan.place page.nextCursor = ((plan.place cursor).1, (plan.place cursor).2 + size)) ∨
      (ids.drop ((plan.place cursor).2 + size) = [] ∧
        ((plan.place cursor).1 + 1 < plan.count →
          page.hasMore = true ∧ plan.place page.nextCursor = ((plan.place cursor).1 + 1, 0)))

omit [DecidableEq γ] in
theorem Plan.pages {plan : Plan γ ι κ} {passes : Entry → Bool}
    {fetchBatch : Source γ entry → Option κ → FetchResult ι κ τ} (size : Nat)
    (hstart : plan.place none = (0, 0))
    (hcount : ∀ i, i < plan.count → ∃ container, plan.container i = some container)
    (hturns : ∀ source cursor container,
      plan.container (plan.place cursor).1 = some container →
        plan.Turns size container (source.ids passes container) cursor (fetchBatch source cursor)) :
    (plan.layout entry passes).Pages fetchBatch where
  start := hstart
  covers source cursor id hahead := by
    cases hcontainer : plan.container (plan.place cursor).1 with
    | none =>
      have hlisted : (plan.layout entry passes).listed source (plan.place cursor).1 = [] := by
        show (plan.container _).elim [] _ = []
        rw [hcontainer]
        rfl
      have hnone : id ∈ ((plan.layout entry passes).listed source (plan.place cursor).1).drop
          (plan.place cursor).2 := hahead
      rw [hlisted, List.drop_nil] at hnone
      cases hnone
    | some container =>
      have hlisted : (plan.layout entry passes).listed source (plan.place cursor).1 =
          source.ids passes container := by
        show (plan.container _).elim [] _ = _
        rw [hcontainer]
        rfl
      have hrest : id ∈ (source.ids passes container).drop (plan.place cursor).2 := by
        rw [← hlisted]
        exact hahead
      obtain ⟨hshown, hnext⟩ := hturns source cursor container hcontainer
      have hsplit : id ∈ slice (plan.place cursor).2 size (source.ids passes container) ∨
          id ∈ (source.ids passes container).drop ((plan.place cursor).2 + size) :=
        mem_slice_or_ahead hrest
      rcases hsplit with hslice | hahead'
      · obtain ⟨raw, hraw, hshows⟩ := hshown id hslice
        exact .inl ⟨raw, hraw, container, hcontainer, hshows⟩
      · rcases hnext with ⟨hmore, hplace⟩ | ⟨hover, -⟩
        · have hsame : (plan.place (fetchBatch source cursor).nextCursor).1 =
              (plan.place cursor).1 := by
            rw [hplace]
          refine .inr ⟨hmore, hsame, ?_⟩
          show id ∈ ((plan.layout entry passes).listed source (plan.place cursor).1).drop
            (plan.place (fetchBatch source cursor).nextCursor).2
          rw [hlisted, hplace]
          exact hahead'
        · rw [hover] at hahead'
          cases hahead'
  onward source cursor i hlater hi := by
    have hlt : (plan.place cursor).1 < i := hlater
    have hcounted : i < plan.count := hi
    obtain ⟨container, hcontainer⟩ := hcount (plan.place cursor).1 (hlt.trans hcounted)
    rcases (hturns source cursor container hcontainer).next with ⟨hmore, hplace⟩ | ⟨-, hturn⟩
    · have hsame : (plan.place (fetchBatch source cursor).nextCursor).1 = (plan.place cursor).1 := by
        rw [hplace]
      exact ⟨hmore, .inl hsame⟩
    · obtain ⟨hmore, hplace⟩ := hturn (by omega)
      exact ⟨hmore, .inr hplace⟩

/-- No item is updated that stands before the offset in the present container while
others are ahead of it. -/
def Undisturbed (plan : Plan γ ι κ) (passes : Entry → Bool) (w : Walk (Source γ entry) ι κ) :
    Label (Update γ β) → Prop
  | .changed update =>
    plan.container (plan.place w.cursor).1 = some update.container →
      (entry update.item).id ∈
          (w.source.ids passes update.container).take (plan.place w.cursor).2 →
        (w.source.ids passes update.container).drop (plan.place w.cursor).2 = []
  | .fetched => True

instance decidableUndisturbed (plan : Plan γ ι κ) (passes : Entry → Bool)
    (w : Walk (Source γ entry) ι κ) : DecidablePred (Undisturbed (β := β) plan passes w)
  | .changed update => inferInstanceAs (Decidable (_ = some update.container → _ → _ = []))
  | .fetched => isTrue trivial

variable {plan : Plan γ ι κ} {passes : Entry → Bool}

theorem touch_quiet {source : Source γ entry} {w : Walk (Source γ entry) ι κ} {update : Update γ β}
    (hrising : Rising passes) (hundisturbed : Undisturbed plan passes w (.changed update))
    (h : touch w.source update = some source) :
    (plan.layout entry passes).Quiet w.cursor w.source source := by
  have hids := ids_moved hrising h
  have hother : ∀ container ≠ update.container,
      source.ids passes container = w.source.ids passes container := by
    intro container hne
    rw [touch_moved h]
    exact ids_moved_ne hne
  constructor
  · intro i
    show (plan.container i).elim [] (w.source.ids passes) ⊆ (plan.container i).elim [] (source.ids passes)
    cases plan.container i with
    | none => exact fun _ hid => hid
    | some container =>
      show w.source.ids passes container ⊆ source.ids passes container
      by_cases hsame : container = update.container
      · rw [hsame, hids]
        intro id hid
        split
        · exact mem_moveToEnd.mpr (.inl hid)
        · exact hid
      · rw [hother container hsame]
        exact fun _ hid => hid
  · show Keeps (plan.place w.cursor).2
      ((plan.container (plan.place w.cursor).1).elim [] (w.source.ids passes))
      ((plan.container (plan.place w.cursor).1).elim [] (source.ids passes))
    cases hcontainer : plan.container (plan.place w.cursor).1 with
    | none => exact Keeps.refl
    | some container =>
      show Keeps _ (w.source.ids passes container) (source.ids passes container)
      by_cases hsame : container = update.container
      · rw [hsame] at hcontainer ⊢
        rw [hids]
        split
        · exact Keeps.moveToEnd (ids_nodup _ _ _) (hundisturbed hcontainer)
        · exact Keeps.refl
      · rw [hother container hsame]
        exact Keeps.refl

/-- Every item that passes the filter when the walk begins is returned by its end, if no
update disturbs it. -/
theorem returned_of_undisturbed {fetchBatch : Source γ entry → Option κ → FetchResult ι κ τ}
    (hrising : Rising passes) (hpages : (plan.layout entry passes).Pages fetchBatch)
    {source : Source γ entry} {w : Walk (Source γ entry) ι κ}
    (hrun : Run (step fetchBatch touch) (Undisturbed plan passes) { source } w)
    (hend : w.hasMore = false) {i : Nat} (hi : i < plan.count) {container : γ}
    (hcontainer : plan.container i = some container) {item : β}
    (hitem : item ∈ source.items container) (hpass : passes (entry item) = true) :
    ∃ raw ∈ w.returned, plan.shows container (entry item).id raw := by
  have hlisted : (entry item).id ∈ (plan.layout entry passes).listed source i := by
    show (entry item).id ∈ (plan.container i).elim [] (source.ids passes)
    rw [hcontainer]
    exact List.mem_map_of_mem (f := fun item => (entry item).id)
      (List.mem_filter.mpr ⟨hitem, hpass⟩)
  obtain ⟨raw, hraw, shown, hshown, hshows⟩ := returned_of_quiet hpages
    (fun w update source hok h => touch_quiet hrising hok h) hrun hend hi hlisted
  obtain rfl := Option.some.inj (hcontainer.symm.trans hshown)
  exact ⟨raw, hraw, hshows⟩

/-! ## Items that can be read -/

/-- No update makes the item one that cannot be read. -/
def StaysReadable (entry : β → Entry) (readable : β → Bool) (container : γ) (id : String) :
    Label (Update γ β) → Prop
  | .changed update =>
    update.container = container → (entry update.item).id = id → readable update.item = true
  | .fetched => True

instance decidableStaysReadable (entry : β → Entry) (readable : β → Bool)
    (container : γ) (id : String) : DecidablePred (StaysReadable entry readable container id)
  | .changed _ => inferInstanceAs (Decidable (_ = container → _ = id → _ = true))
  | .fetched => isTrue trivial

/-- Every readable item of a configured container that passes the filter when the walk
begins is returned by its end, if no update disturbs the walk. -/
def Complete (configured : γ → Prop) (plan : Plan γ ι κ) (passes : Entry → Bool)
    (readable : β → Bool) (fetchBatch : Source γ entry → Option κ → FetchResult ι κ τ) : Prop :=
  ∀ (source : Source γ entry) (w : Walk (Source γ entry) ι κ) (container : γ),
    ∀ item ∈ source.items container, configured container → passes (entry item) = true →
      readable item = true →
        Run (step fetchBatch touch) (fun w a => Undisturbed plan passes w a ∧
          StaysReadable entry readable container (entry item).id a) { source } w →
          w.hasMore = false → ∃ raw ∈ w.returned, plan.shows container (entry item).id raw

theorem complete_of_pages {configured : γ → Prop} {readable : β → Bool}
    {fetchBatch : Source γ entry → Option κ → FetchResult ι κ τ} (hrising : Rising passes)
    (hpages : (plan.layout entry passes).Pages fetchBatch)
    (hconfigured : ∀ container, configured container →
      ∃ i < plan.count, plan.container i = some container) :
    Complete configured plan passes readable fetchBatch := by
  intro source w container item hitem hcontainer hpass _ hrun hend
  obtain ⟨i, hi, hplanned⟩ := hconfigured container hcontainer
  exact returned_of_undisturbed hrising hpages (hrun.weaken fun _ _ hok => hok.1) hend hi hplanned
    hitem hpass

theorem readable_moved {source source' : Source γ entry} {update : Update γ β} {readable : β → Bool}
    {container : γ} {id : String} (h : touch source update = some source')
    (hupdate : StaysReadable entry readable container id (.changed update))
    (hreadable : ∀ item ∈ source.items container, (entry item).id = id → readable item = true) :
    ∀ item ∈ source'.items container, (entry item).id = id → readable item = true := by
  intro item hitem hid
  rw [touch_moved h, moved_items] at hitem
  by_cases hsame : container = update.container
  · rw [hsame, Function.update_self] at hitem
    rcases List.mem_append.mp hitem with hkept | hnew
    · refine hreadable item ?_ hid
      rw [hsame]
      exact (List.mem_filter.mp hkept).1
    · rw [List.mem_singleton.mp hnew] at hid ⊢
      exact hupdate hsame.symm hid
  · rw [Function.update_of_ne hsame] at hitem
    exact hreadable item hitem hid

end Ekip.Ingestion.UpdateOrder
