import Ekip.Lib.Firsts
import Ekip.Core.Graph.Traversal

/-!
# What the walk collects

The loops of the walk go through relationships one by one. What they have collected is a
function of the list of relationships so far: the first hundred distinct ones, and the
first fifty distinct nodes at their ends.
-/
namespace Ekip.Core.Graph

open Ekip.Lib Ekip.Core

/-! ## One relationship after the other -/

/-- A relationship as it is met at a node. -/
structure Item where
  depth : Nat
  node : EntityRef
  rel : GraphRelationship

namespace Item

def key (i : Item) : EdgeKey := edgeKey i.rel

def far (i : Item) : EntityRef := farEnd i.node i.rel

def stamped (i : Item) : GraphRelationship := { i.rel with depth := i.depth }

end Item

def Walk.absorb (w : Walk) (i : Item) : Walk :=
  if i.key ∈ w.seenEdges then w
  else if defaultMaxEdges ≤ w.relationships.length then { w with truncated := true }
  else (w.record i.depth i.rel).reach i.far

def Walk.absorbAll (items : List Item) (w : Walk) : Walk := items.foldl Walk.absorb w

/-- The distinct relationships, in the order in which they are met. -/
def found (items : List Item) : List Item := firsts Item.key [] items

def shown (items : List Item) : List Item := (found items).take defaultMaxEdges

/-- The origin and the nodes at the ends of what is shown. -/
def reached (origin : EntityRef) (items : List Item) : List EntityRef :=
  firsts EntityRef.key [] (origin :: (shown items).map Item.far)

structure Absorbed (origin : EntityRef) (items : List Item) (w : Walk) : Prop where
  relationships : w.relationships = (shown items).map Item.stamped
  seen : ∀ k, k ∈ w.seenEdges ↔ k ∈ (shown items).map Item.key
  visited : w.visited = (reached origin items).take defaultMaxNodes
  whole : w.truncated = false →
    (found items).length ≤ defaultMaxEdges ∧ (reached origin items).length ≤ defaultMaxNodes

section Absorb

variable {origin : EntityRef} {items : List Item} {w : Walk}

theorem Walk.reach_known {other : EntityRef} (h : other.key ∈ w.visited.map EntityRef.key) :
    w.reach other = w := if_pos h

theorem Walk.reach_capped {other : EntityRef} (h : other.key ∉ w.visited.map EntityRef.key)
    (hmany : defaultMaxNodes ≤ w.visited.length) :
    w.reach other = { w with truncated := true } := by
  unfold Walk.reach
  rw [if_neg h, if_pos hmany]

theorem Walk.reach_new {other : EntityRef} (h : other.key ∉ w.visited.map EntityRef.key)
    (hfew : ¬ defaultMaxNodes ≤ w.visited.length) :
    w.reach other =
      { w with visited := w.visited ++ [other], nextFrontier := w.nextFrontier ++ [other] } := by
  unfold Walk.reach
  rw [if_neg h, if_neg hfew]

theorem Absorbed.start (origin : EntityRef) : Absorbed origin [] { visited := [origin] } where
  relationships := rfl
  seen := fun _ => Iff.rfl
  visited := rfl
  whole := fun _ => ⟨Nat.zero_le _, (by decide : 1 ≤ 50)⟩

/-- A relationship that was found before. -/
theorem found_old {i : Item} (h : i.key ∈ items.map Item.key) : found (items ++ [i]) = found items := by
  unfold found
  rw [Firsts.concat, if_pos h]

theorem found_new {i : Item} (h : i.key ∉ items.map Item.key) :
    found (items ++ [i]) = found items ++ [i] := by
  unfold found
  rw [Firsts.concat, if_neg h]

theorem mem_found_keys {k : EdgeKey} :
    k ∈ (found items).map Item.key ↔ k ∈ items.map Item.key := by
  unfold found
  rw [Firsts.mem_keys]
  exact and_iff_left List.not_mem_nil

theorem shown_full {more : List Item} (h : defaultMaxEdges ≤ (found items).length)
    (hmore : found more = found items ∨ ∃ i, found more = found items ++ [i]) :
    shown more = shown items := by
  unfold shown
  rcases hmore with hsame | ⟨i, hone⟩
  · rw [hsame]
  · rw [hone, List.take_append_of_le_length h]

theorem Absorbed.flag (h : Absorbed origin items w) :
    Absorbed origin items { w with truncated := true } where
  relationships := h.relationships
  seen := h.seen
  visited := h.visited
  whole := fun hflag => by cases hflag

/-- More items of which no others are shown. -/
theorem Absorbed.of_shown {more : List Item} (h : Absorbed origin items w) (hshown : shown more = shown items)
    (hwhole : w.truncated = false → found more = found items) : Absorbed origin more w := by
  have hreached : reached origin more = reached origin items := by
    unfold reached
    rw [hshown]
  refine ⟨?_, ?_, ?_, ?_⟩
  · rw [hshown]
    exact h.relationships
  · rw [hshown]
    exact h.seen
  · rw [hreached]
    exact h.visited
  · intro hflag
    rw [hreached, hwhole hflag]
    exact h.whole hflag

/-- Once full, nothing but the flag changes. -/
theorem Absorbed.full {i : Item} (h : Absorbed origin items w)
    (hfull : defaultMaxEdges ≤ (found items).length) :
    Absorbed origin (items ++ [i]) (w.absorb i) := by
  have hlength : w.relationships.length = defaultMaxEdges := by
    rw [h.relationships, List.length_map]
    exact List.length_take_of_le hfull
  have hmore : found (items ++ [i]) = found items ∨ ∃ j, found (items ++ [i]) = found items ++ [j] := by
    by_cases hold : i.key ∈ items.map Item.key
    · exact .inl (found_old hold)
    · exact .inr ⟨i, found_new hold⟩
  have hshown : shown (items ++ [i]) = shown items := shown_full hfull hmore
  unfold Walk.absorb
  by_cases hseen : i.key ∈ w.seenEdges
  · rw [if_pos hseen]
    have hin : i.key ∈ items.map Item.key := by
      refine mem_found_keys.mp ?_
      obtain ⟨j, hj, hkey⟩ := List.mem_map.mp ((h.seen _).mp hseen)
      rw [← hkey]
      exact List.mem_map_of_mem (List.mem_of_mem_take hj)
    exact h.of_shown hshown fun _ => found_old hin
  · rw [if_neg hseen, if_pos (le_of_eq hlength.symm)]
    exact h.flag.of_shown hshown fun hflag => by cases hflag

theorem Absorbed.step {i : Item} (h : Absorbed origin items w) :
    Absorbed origin (items ++ [i]) (w.absorb i) := by
  by_cases hfull : defaultMaxEdges ≤ (found items).length
  · exact h.full hfull
  · have hshort : (found items).length < defaultMaxEdges := Nat.lt_of_not_le hfull
    have hshown : shown items = found items := List.take_of_length_le (le_of_lt hshort)
    unfold Walk.absorb
    by_cases hold : i.key ∈ items.map Item.key
    · have hseen : i.key ∈ w.seenEdges := by
        rw [h.seen, hshown]
        exact mem_found_keys.mpr hold
      have hsame : shown (items ++ [i]) = shown items := by
        unfold shown
        rw [found_old hold]
      rw [if_pos hseen]
      exact h.of_shown hsame fun _ => found_old hold
    · have hseen : i.key ∉ w.seenEdges := by
        rw [h.seen, hshown]
        exact fun hmem => hold (mem_found_keys.mp hmem)
      have hlength : ¬ defaultMaxEdges ≤ w.relationships.length := by
        rw [h.relationships, hshown, List.length_map]
        exact hfull
      have hnew : shown (items ++ [i]) = shown items ++ [i] := by
        rw [hshown]
        unfold shown
        rw [found_new hold]
        refine List.take_of_length_le ?_
        rw [List.length_append, List.length_singleton]
        omega
      have hreached : reached origin (items ++ [i]) =
          firsts EntityRef.key [] ((origin :: (shown items).map Item.far) ++ [i.far]) := by
        unfold reached
        rw [hnew, List.map_append, List.cons_append, List.map_singleton]
      have hends : (reached origin items).map EntityRef.key =
          (firsts EntityRef.key [] (origin :: (shown items).map Item.far)).map EntityRef.key := rfl
      have hreached_old : i.far.key ∈ (reached origin items).map EntityRef.key →
          reached origin (items ++ [i]) = reached origin items := by
        intro hall
        rw [hends, Firsts.mem_keys] at hall
        rw [hreached, Firsts.concat, if_pos hall.1]
        rfl
      have hreached_new : i.far.key ∉ (reached origin items).map EntityRef.key →
          reached origin (items ++ [i]) = reached origin items ++ [i.far] := by
        intro hnone
        rw [hends, Firsts.mem_keys] at hnone
        rw [hreached, Firsts.concat, if_neg fun hin => hnone ⟨hin, List.not_mem_nil⟩]
        rfl
      have hfound : (found (items ++ [i])).length ≤ defaultMaxEdges := by
        rw [found_new hold, List.length_append, List.length_singleton]
        omega
      have hrelationships : ((w.record i.depth i.rel).reach i.far).relationships =
          (shown (items ++ [i])).map Item.stamped := by
        have hkept : ((w.record i.depth i.rel).reach i.far).relationships =
            w.relationships ++ [i.stamped] := by
          unfold Walk.reach
          split
          · rfl
          · split <;> rfl
        rw [hkept, h.relationships, hnew, List.map_append]
        rfl
      have hkeys : ∀ k, k ∈ ((w.record i.depth i.rel).reach i.far).seenEdges ↔
          k ∈ (shown (items ++ [i])).map Item.key := by
        intro k
        have hkept : ((w.record i.depth i.rel).reach i.far).seenEdges = i.key :: w.seenEdges := by
          unfold Walk.reach
          split
          · rfl
          · split <;> rfl
        rw [hkept, List.mem_cons, h.seen, hnew, List.map_append, List.mem_append, List.map_singleton,
          List.mem_singleton]
        exact or_comm
      rw [if_neg hseen, if_neg hlength]
      by_cases hin : i.far.key ∈ w.visited.map EntityRef.key
      · have hall : i.far.key ∈ (reached origin items).map EntityRef.key := by
          rw [h.visited] at hin
          exact List.map_subset _ (List.take_subset _ _) hin
        have hw : (w.record i.depth i.rel).reach i.far = w.record i.depth i.rel :=
          Walk.reach_known hin
        refine ⟨hrelationships, hkeys, ?_, ?_⟩
        · rw [hw, hreached_old hall]
          exact h.visited
        · rw [hw, hreached_old hall]
          exact fun hflag => ⟨hfound, (h.whole hflag).2⟩
      · by_cases hmany : defaultMaxNodes ≤ w.visited.length
        · have hlong : defaultMaxNodes ≤ (reached origin items).length := by
            rw [h.visited, List.length_take] at hmany
            omega
          have hw : (w.record i.depth i.rel).reach i.far =
              { w.record i.depth i.rel with truncated := true } :=
            Walk.reach_capped hin hmany
          refine ⟨hrelationships, hkeys, ?_, ?_⟩
          · rw [hw]
            show w.visited = _
            rw [h.visited]
            by_cases hall : i.far.key ∈ (reached origin items).map EntityRef.key
            · rw [hreached_old hall]
            · rw [hreached_new hall, List.take_append_of_le_length hlong]
          · rw [hw]
            intro hflag
            cases hflag
        · have hfew : (reached origin items).length < defaultMaxNodes := by
            rw [h.visited, List.length_take] at hmany
            omega
          have hwhole : w.visited = reached origin items := by
            rw [h.visited]
            exact List.take_of_length_le (le_of_lt hfew)
          have hw : (w.record i.depth i.rel).reach i.far =
              { w.record i.depth i.rel with
                visited := w.visited ++ [i.far]
                nextFrontier := w.nextFrontier ++ [i.far] } :=
            Walk.reach_new hin hmany
          have hall : i.far.key ∉ (reached origin items).map EntityRef.key := by
            rw [← hwhole]
            exact hin
          refine ⟨hrelationships, hkeys, ?_, ?_⟩
          · rw [hw, hreached_new hall]
            show w.visited ++ [i.far] = _
            rw [hwhole]
            refine (List.take_of_length_le ?_).symm
            rw [List.length_append, List.length_singleton]
            omega
          · rw [hw, hreached_new hall]
            intro _
            rw [List.length_append, List.length_singleton]
            exact ⟨hfound, hfew⟩

theorem Absorbed.all (h : Absorbed origin items w) (more : List Item) :
    Absorbed origin (items ++ more) (w.absorbAll more) := by
  induction more generalizing items w with
  | nil =>
    rw [List.append_nil]
    exact h
  | cons i more ih =>
    have hstep := ih (h.step (i := i))
    rw [List.append_assoc] at hstep
    exact hstep

/-- What is full and says so does not change any more. -/
theorem Walk.absorbAll_done (hfull : defaultMaxEdges ≤ w.relationships.length)
    (hflag : w.truncated = true) (more : List Item) : w.absorbAll more = w := by
  have hsame : ({ w with truncated := true } : Walk) = w := by
    rw [← hflag]
  induction more with
  | nil => rfl
  | cons i more ih =>
    have hstep : w.absorb i = w := by
      unfold Walk.absorb
      by_cases hseen : i.key ∈ w.seenEdges
      · rw [if_pos hseen]
      · rw [if_neg hseen, if_pos hfull]
        exact hsame
    show (w.absorb i).absorbAll more = w
    rw [hstep]
    exact ih

end Absorb

/-! ## The frontier -/

/-- What joins the visited nodes joins the next frontier. -/
def Walk.Grows (w w' : Walk) : Prop :=
  ∃ more, w'.visited = w.visited ++ more ∧ w'.nextFrontier = w.nextFrontier ++ more

namespace Walk.Grows

variable {w w' w'' : Walk}

theorem refl (w : Walk) : w.Grows w := ⟨[], (List.append_nil _).symm, (List.append_nil _).symm⟩

theorem trans (h : w.Grows w') (h' : w'.Grows w'') : w.Grows w'' := by
  obtain ⟨first, hvisited, hnext⟩ := h
  obtain ⟨rest, hvisited', hnext'⟩ := h'
  refine ⟨first ++ rest, ?_, ?_⟩
  · rw [hvisited', hvisited, List.append_assoc]
  · rw [hnext', hnext, List.append_assoc]

theorem absorb (w : Walk) (i : Item) : w.Grows (w.absorb i) := by
  unfold Walk.absorb
  split
  · exact refl w
  · split
    · exact refl w
    · unfold Walk.reach
      split
      · exact refl w
      · split
        · exact refl w
        · exact ⟨[i.far], rfl, rfl⟩

theorem absorbAll (w : Walk) (items : List Item) : w.Grows (w.absorbAll items) := by
  induction items generalizing w with
  | nil => exact refl w
  | cons i items ih => exact (absorb w i).trans (ih (w.absorb i))

end Walk.Grows

/-! ## The loops -/

def Item.at (depth : Nat) (node : EntityRef) (rel : GraphRelationship) : Item :=
  { depth, node, rel }

/-- The loop ends at the cap, where nothing would change any more. -/
theorem visit_eq (depth : Nat) (node : EntityRef) (rels : List GraphRelationship) (w : Walk) :
    visit depth node rels w = w.absorbAll (rels.map (Item.at depth node)) := by
  induction rels generalizing w with
  | nil => rfl
  | cons rel rels ih =>
    show visit depth node (rel :: rels) w =
      (w.absorb (Item.at depth node rel)).absorbAll (rels.map (Item.at depth node))
    unfold visit Walk.absorb
    by_cases hseen : edgeKey rel ∈ w.seenEdges
    · have hkey : (Item.at depth node rel).key ∈ w.seenEdges := hseen
      rw [if_pos hseen, if_pos hkey]
      exact ih w
    · have hkey : (Item.at depth node rel).key ∉ w.seenEdges := hseen
      rw [if_neg hseen, if_neg hkey]
      by_cases hfull : defaultMaxEdges ≤ w.relationships.length
      · have hdone : defaultMaxEdges ≤ ({ w with truncated := true } : Walk).relationships.length :=
          hfull
        rw [if_pos hfull, if_pos hfull, Walk.absorbAll_done hdone rfl]
      · rw [if_neg hfull, if_neg hfull]
        exact ih _

section Loops

variable {direct : EntityRef → Except Exn (List GraphRelationship)} {origin : EntityRef}
  {items : List Item} {w w' : Walk} {depth : Nat}

/-- What is met at a node; nothing where reading its relationships fails. -/
def itemsAt (direct : EntityRef → Except Exn (List GraphRelationship)) (depth : Nat)
    (node : EntityRef) : List Item :=
  ((direct node).toOption.getD []).map (Item.at depth node)

theorem mem_itemsAt {node : EntityRef} {i : Item} (h : i ∈ itemsAt direct depth node) :
    i.depth = depth ∧ i.node = node ∧ ∃ rels, direct node = .ok rels ∧ i.rel ∈ rels := by
  obtain ⟨rel, hrel, rfl⟩ := List.mem_map.mp h
  cases hdirect : direct node with
  | error e =>
    rw [hdirect] at hrel
    cases hrel
  | ok rels =>
    rw [hdirect] at hrel
    exact ⟨rfl, rfl, rels, rfl, hrel⟩

theorem expand_ok {frontier : List EntityRef} (h : Absorbed origin items w)
    (hexpand : expand direct depth frontier w = .ok w') :
    Absorbed origin (items ++ frontier.flatMap (itemsAt direct depth)) w' ∧ w.Grows w' ∧
      (w'.truncated = false → ∀ node ∈ frontier, ∃ rels, direct node = .ok rels) := by
  induction frontier generalizing items w with
  | nil =>
    obtain rfl := Except.ok.inj hexpand
    rw [List.flatMap_nil, List.append_nil]
    refine ⟨h, Walk.Grows.refl w, ?_⟩
    intro _ node hnode
    cases hnode
  | cons node nodes ih =>
    unfold expand at hexpand
    obtain ⟨rels, hrels, hexpand⟩ := Query.bind_ok.mp hexpand
    dsimp only at hexpand
    have hmet : itemsAt direct depth node = rels.map (Item.at depth node) := by
      unfold itemsAt
      rw [hrels]
      rfl
    have hvisit : Absorbed origin (items ++ itemsAt direct depth node) (visit depth node rels w) := by
      rw [visit_eq, hmet]
      exact h.all _
    have hgrows : w.Grows (visit depth node rels w) := by
      rw [visit_eq]
      exact Walk.Grows.absorbAll w _
    rw [List.flatMap_cons, ← List.append_assoc]
    by_cases hfull : defaultMaxEdges ≤ (visit depth node rels w).relationships.length
    · rw [if_pos hfull] at hexpand
      obtain rfl := Except.ok.inj hexpand
      refine ⟨?_, hgrows, ?_⟩
      · have hrest := hvisit.flag.all (nodes.flatMap (itemsAt direct depth))
        rw [Walk.absorbAll_done] at hrest
        · exact hrest
        · exact hfull
        · rfl
      · intro hflag
        cases hflag
    · rw [if_neg hfull] at hexpand
      obtain ⟨habsorbed, hmore, hread⟩ := ih hvisit hexpand
      refine ⟨habsorbed, hgrows.trans hmore, ?_⟩
      intro hflag
      refine List.forall_mem_cons.mpr ⟨⟨rels, hrels⟩, hread hflag⟩

end Loops

end Ekip.Core.Graph
