import Ekip.Core.Graph.BreadthFirst
import Ekip.Core.Graph.Noninterference

/-!
# The shape of a neighborhood

When the result of the walk is a subgraph: with the ends of its relationships, with the
depths that the distances give, and whole where it does not say that it was cut off.
-/
namespace Ekip.Core.Graph

open Ekip.Lib Ekip.Database Ekip.Shared Ekip.Core

/-! ## Distance -/

section Distance

variable (direct : EntityRef → Except Exn (List GraphRelationship)) (origin : EntityRef)

/-- What is reached from the origin in at most so many steps. -/
def Within : Nat → EntityRef → Prop
  | 0, ref => ref = origin
  | steps + 1, ref => Within steps ref ∨
      ∃ node rels, Within steps node ∧ direct node = .ok rels ∧
        ∃ rel ∈ rels, ref = rel.source ∨ ref = rel.target

/-- The nearer end of the relationship is so many steps from the origin. -/
structure Nearer (distance : Nat) (rel : GraphRelationship) : Prop where
  near : Within direct origin distance rel.source ∨ Within direct origin distance rel.target
  nearest : ∀ steps < distance,
    ¬ Within direct origin steps rel.source ∧ ¬ Within direct origin steps rel.target

/-- A subgraph around the origin, of which nothing is missing where it is not truncated. -/
structure WellFormed (limit : Nat) (neighborhood : GraphNeighborhood) : Prop where
  origin_eq : neighborhood.origin = origin
  nodes_distinct : (neighborhood.nodes.map EntityRef.key).Nodup
  origin_mem : origin ∈ neighborhood.nodes
  nodes_le : neighborhood.nodes.length ≤ 50
  relationships_le : neighborhood.relationships.length ≤ 100
  relationships_distinct : (neighborhood.relationships.map edgeKey).Nodup
  ends_mem : ∀ rel ∈ neighborhood.relationships,
    rel.source ∈ neighborhood.nodes ∧ rel.target ∈ neighborhood.nodes
  depth_eq : ∀ rel ∈ neighborhood.relationships,
    ∃ distance, rel.depth = distance + 1 ∧ Nearer direct origin distance rel
  only_direct : neighborhood.truncated = false → ∀ rel ∈ neighborhood.relationships,
    ∃ steps < limit, ∃ node rels, Within direct origin steps node ∧ direct node = .ok rels ∧
      ∃ found ∈ rels, rel = { found with depth := rel.depth }
  all_direct : neighborhood.truncated = false → ∀ steps < limit, ∀ node,
    Within direct origin steps node → ∃ rels, direct node = .ok rels ∧
      ∀ rel ∈ rels, edgeKey rel ∈ neighborhood.relationships.map edgeKey

/-! ## What is met breadth first -/

/-- The nodes that the second round starts from. -/
def ring (limit : Nat) : List EntityRef :=
  if limit ≤ 1 then [] else (reached origin (itemsAt direct 1 origin)).tail

/-- The relationships of the origin, then those of the nodes of a frontier. -/
def rounds (frontier : List EntityRef) : List Item :=
  itemsAt direct 1 origin ++ frontier.flatMap (itemsAt direct 2)

/-- All that is met where no cap on the nodes cuts the frontier. -/
def breadthFirst (limit : Nat) : List Item := rounds direct origin (ring direct origin limit)

/-- The first hundred relationships have at most fifty ends, and what is met only at a
neighbor does not lead back to the origin. -/
structure Fits (limit : Nat) : Prop where
  nodes : (reached origin (breadthFirst direct origin limit)).length ≤ 50
  depths : ∀ i ∈ shown (breadthFirst direct origin limit), i.far = origin → i.depth = 1

end Distance

/-! ## Prefixes -/

section Prefixes

variable (origin : EntityRef) (items more : List Item)

theorem found_append : ∃ rest, found (items ++ more) = found items ++ rest := by
  unfold found
  rw [Firsts.append]
  exact ⟨_, rfl⟩

theorem shown_append : ∃ rest, shown (items ++ more) = shown items ++ rest := by
  obtain ⟨rest, hrest⟩ := found_append items more
  unfold shown
  rw [hrest, List.take_append]
  exact ⟨_, rfl⟩

theorem reached_append : ∃ rest, reached origin (items ++ more) = reached origin items ++ rest := by
  obtain ⟨rest, hrest⟩ := shown_append items more
  unfold reached
  rw [hrest, List.map_append, ← List.cons_append, Firsts.append]
  exact ⟨_, rfl⟩

theorem reached_nodup : ((reached origin items).map EntityRef.key).Nodup := Firsts.nodup _ _

theorem reached_eq_cons : ∃ rest, reached origin items = origin :: rest := by
  unfold reached
  rw [Firsts.cons_new List.not_mem_nil]
  exact ⟨_, rfl⟩

theorem mem_reached_keys {k : EntityType × Uuid} :
    k ∈ (reached origin items).map EntityRef.key ↔
      k = origin.key ∨ ∃ i ∈ shown items, k = i.far.key := by
  unfold reached
  rw [Firsts.mem_keys, List.map_cons, List.mem_cons, List.map_map]
  constructor
  · rintro ⟨rfl | hmem, -⟩
    · exact .inl rfl
    · obtain ⟨i, hi, rfl⟩ := List.mem_map.mp hmem
      exact .inr ⟨i, hi, rfl⟩
  · rintro (rfl | ⟨i, hi, rfl⟩)
    · exact ⟨.inl rfl, List.not_mem_nil⟩
    · exact ⟨.inr (List.mem_map_of_mem hi), List.not_mem_nil⟩

/-- A node that is reached is the origin or the far end of something shown. -/
theorem mem_reached {ref : EntityRef} (h : ref ∈ reached origin items) :
    ref = origin ∨ ∃ i ∈ shown items, ref = i.far := by
  rcases List.mem_cons.mp ((Firsts.sublist _ _).subset h) with rfl | hmem
  · exact .inl rfl
  · obtain ⟨i, hi, rfl⟩ := List.mem_map.mp hmem
    exact .inr ⟨i, hi, rfl⟩

end Prefixes

theorem mem_of_shown {items : List Item} {i : Item} (h : i ∈ shown items) : i ∈ items :=
  (Firsts.sublist _ _).subset (List.mem_of_mem_take h)

/-! ## Ends -/

/-- What holds of the nodes of a walk and of the relationships that are read at them. -/
structure Navigable (P : EntityRef → Prop)
    (direct : EntityRef → Except Exn (List GraphRelationship)) : Prop where
  closed : Closed P direct
  ends : ∀ node, P node → ∀ rels, direct node = .ok rels →
    ∀ rel ∈ rels, rel.source = node ∨ rel.target = node
  key_inj : ∀ ref ref', P ref → P ref' → ref.key = ref'.key → ref = ref'

/-- The ends are the node and the far end. -/
def Item.Ends (i : Item) : Prop :=
  (i.rel.source = i.node ∧ i.rel.target = i.far) ∨ (i.rel.source = i.far ∧ i.rel.target = i.node)

section Rounds

variable {P : EntityRef → Prop} {direct : EntityRef → Except Exn (List GraphRelationship)}
  {origin : EntityRef} {limit : Nat} {frontier : List EntityRef}

/-- What an item says of the node that it was met at. -/
structure Met (direct : EntityRef → Except Exn (List GraphRelationship)) (P : EntityRef → Prop)
    (i : Item) : Prop where
  node : P i.node
  far : P i.far
  ends : i.Ends
  read : ∃ rels, direct i.node = .ok rels ∧ i.rel ∈ rels

theorem Navigable.met (h : Navigable P direct) {depth : Nat} {node : EntityRef} (hnode : P node)
    {i : Item} (hi : i ∈ itemsAt direct depth node) : Met direct P i := by
  obtain ⟨-, rfl, rels, hrels, hrel⟩ := mem_itemsAt hi
  have hboth := h.closed i.node hnode rels hrels i.rel hrel
  refine ⟨hnode, farEnd_of hboth, ?_, rels, hrels, hrel⟩
  unfold Item.Ends Item.far farEnd
  rcases h.ends i.node hnode rels hrels i.rel hrel with hsource | htarget
  · by_cases hself : i.rel.target.key ≠ i.node.key
    · rw [if_pos hself]
      exact .inl ⟨hsource, rfl⟩
    · rw [if_neg hself]
      exact .inr ⟨rfl, h.key_inj _ _ hboth.2 hnode (not_not.mp hself)⟩
  · have hself : ¬ i.rel.target.key ≠ i.node.key := fun hne => hne (by rw [htarget])
    rw [if_neg hself]
    exact .inr ⟨rfl, htarget⟩

/-- The nodes are one step from the origin. -/
def OneStep (direct : EntityRef → Except Exn (List GraphRelationship)) (origin : EntityRef)
    (frontier : List EntityRef) : Prop :=
  ∀ node ∈ frontier, node ∈ (reached origin (itemsAt direct 1 origin)).tail

theorem OneStep.ne_origin (h : OneStep direct origin frontier) {node : EntityRef}
    (hnode : node ∈ frontier) : node ≠ origin := by
  have hnodup := reached_nodup origin (itemsAt direct 1 origin)
  obtain ⟨rest, hrest⟩ := reached_eq_cons origin (itemsAt direct 1 origin)
  have hin := h node hnode
  rw [hrest] at hnodup hin
  rintro rfl
  exact (List.nodup_cons.mp hnodup).1 (List.mem_map_of_mem hin)

theorem OneStep.met (h : OneStep direct origin frontier) (hnav : Navigable P direct)
    (horigin : P origin) {node : EntityRef} (hnode : node ∈ frontier) :
    P node ∧ Within direct origin 1 node := by
  rcases mem_reached _ _ (List.mem_of_mem_tail (h node hnode)) with rfl | ⟨i, hi, rfl⟩
  · exact ⟨horigin, .inl rfl⟩
  · have hmem := mem_of_shown hi
    have hmet := hnav.met horigin hmem
    obtain ⟨-, hat, rels, hrels, hrel⟩ := mem_itemsAt hmem
    refine ⟨hmet.far, .inr ⟨origin, rels, rfl, hrels, i.rel, hrel, ?_⟩⟩
    rcases hmet.ends with ⟨-, htarget⟩ | ⟨hsource, -⟩
    · exact .inr htarget.symm
    · exact .inl hsource.symm

theorem mem_rounds {i : Item} (hi : i ∈ rounds direct origin frontier) :
    i ∈ itemsAt direct 1 origin ∨ ∃ node ∈ frontier, i ∈ itemsAt direct 2 node := by
  rcases List.mem_append.mp hi with hfirst | hsecond
  · exact .inl hfirst
  · exact .inr (List.mem_flatMap.mp hsecond)

theorem OneStep.met_rounds (h : OneStep direct origin frontier) (hnav : Navigable P direct)
    (horigin : P origin) {i : Item} (hi : i ∈ rounds direct origin frontier) : Met direct P i := by
  rcases mem_rounds hi with hfirst | ⟨node, hnode, hsecond⟩
  · exact hnav.met horigin hfirst
  · exact hnav.met (h.met hnav horigin hnode).1 hsecond

/-- What is met at a neighbor is one step further, unless it leads back. -/
theorem OneStep.depth_iff (h : OneStep direct origin frontier) (hnav : Navigable P direct)
    (horigin : P origin) {i : Item} (hi : i ∈ rounds direct origin frontier) :
    (∃ distance, i.depth = distance + 1 ∧ Nearer direct origin distance i.rel) ↔
      (i.far = origin → i.depth = 1) := by
  have hends := (h.met_rounds hnav horigin hi).ends
  unfold Item.Ends at hends
  rcases mem_rounds hi with hfirst | ⟨node, hnode, hsecond⟩
  · obtain ⟨hdepth, hat, -⟩ := mem_itemsAt hfirst
    refine ⟨fun _ _ => hdepth, fun _ => ⟨0, hdepth, ?_, ?_⟩⟩
    · rw [hat] at hends
      rcases hends with ⟨hsource, -⟩ | ⟨-, htarget⟩
      · exact .inl hsource
      · exact .inr htarget
    · intro steps hsteps
      exact absurd hsteps (Nat.not_lt_zero steps)
  · obtain ⟨hdepth, hat, -⟩ := mem_itemsAt hsecond
    rw [hat] at hends
    constructor
    · rintro ⟨distance, hdistance, hnearer⟩ hfar
      have hone : 0 < distance := by omega
      obtain ⟨hsource, htarget⟩ := hnearer.nearest 0 hone
      rcases hends with ⟨-, hend⟩ | ⟨hend, -⟩
      · exact absurd (hend.trans hfar) htarget
      · exact absurd (hend.trans hfar) hsource
    · intro hback
      have hfar : i.far ≠ origin := by
        intro heq
        have := hback heq
        omega
      have hwithin := (h.met hnav horigin hnode).2
      refine ⟨1, hdepth, ?_, ?_⟩
      · rcases hends with ⟨hsource, -⟩ | ⟨-, htarget⟩
        · rw [hsource]
          exact .inl hwithin
        · rw [htarget]
          exact .inr hwithin
      · intro steps hsteps
        obtain rfl := Nat.lt_one_iff.mp hsteps
        rcases hends with ⟨hsource, htarget⟩ | ⟨hsource, htarget⟩
        · rw [hsource, htarget]
          exact ⟨h.ne_origin hnode, hfar⟩
        · rw [hsource, htarget]
          exact ⟨hfar, h.ne_origin hnode⟩

theorem OneStep.subset_reached (h : OneStep direct origin frontier) {node : EntityRef}
    (hnode : node = origin ∨ node ∈ frontier) :
    node ∈ reached origin (rounds direct origin frontier) := by
  obtain ⟨more, hmore⟩ := reached_append origin (itemsAt direct 1 origin)
    (frontier.flatMap (itemsAt direct 2))
  obtain ⟨rest, hrest⟩ := reached_eq_cons origin (itemsAt direct 1 origin)
  unfold rounds
  rw [hmore]
  refine List.mem_append_left _ ?_
  rcases hnode with rfl | hnode
  · rw [hrest]
    exact List.mem_cons_self
  · exact List.mem_of_mem_tail (h node hnode)

theorem far_mem_reached (hnav : Navigable P direct) (horigin : P origin) {items : List Item}
    (hmet : ∀ i ∈ items, Met direct P i) {i : Item} (hi : i ∈ shown items) :
    i.far ∈ reached origin items := by
  have hkey : i.far.key ∈ (reached origin items).map EntityRef.key :=
    (mem_reached_keys origin items).mpr (.inr ⟨i, hi, rfl⟩)
  obtain ⟨ref, href, heq⟩ := List.mem_map.mp hkey
  have hsame : ref = i.far := by
    refine hnav.key_inj ref i.far ?_ (hmet i (mem_of_shown hi)).far heq
    rcases mem_reached _ _ href with rfl | ⟨j, hj, rfl⟩
    · exact horigin
    · exact (hmet j (mem_of_shown hj)).far
  rw [← hsame]
  exact href

section Absorbed

variable {w : Walk}

/-- The ends are there exactly where no node is left out. -/
theorem OneStep.ends_mem_iff (h : OneStep direct origin frontier) (hnav : Navigable P direct)
    (horigin : P origin) (habsorbed : Absorbed origin (rounds direct origin frontier) w) :
    (∀ rel ∈ w.relationships, rel.source ∈ w.visited ∧ rel.target ∈ w.visited) ↔
      (reached origin (rounds direct origin frontier)).length ≤ 50 := by
  have hmet := fun i hi => h.met_rounds hnav horigin (i := i) hi
  rw [habsorbed.relationships, habsorbed.visited]
  constructor
  · intro hends
    by_contra hmany
    have hlong : 50 < (reached origin (rounds direct origin frontier)).length := Nat.lt_of_not_le hmany
    obtain ⟨ref, more, hdrop⟩ := List.exists_cons_of_length_pos (l :=
      (reached origin (rounds direct origin frontier)).drop 50) (by rw [List.length_drop]; omega)
    have hnodup := (reached_nodup origin (rounds direct origin frontier)).of_map
    rw [← List.take_append_drop 50 (reached origin (rounds direct origin frontier)), hdrop] at hnodup
    have hout : ref ∉ (reached origin (rounds direct origin frontier)).take defaultMaxNodes :=
      fun hin => (List.nodup_append.mp hnodup).2.2 ref hin ref List.mem_cons_self rfl
    have hin : ref ∈ reached origin (rounds direct origin frontier) := by
      refine List.mem_of_mem_drop (i := 50) ?_
      rw [hdrop]
      exact List.mem_cons_self
    rcases mem_reached _ _ hin with rfl | ⟨i, hi, rfl⟩
    · obtain ⟨rest, hrest⟩ := reached_eq_cons ref (rounds direct ref frontier)
      rw [hrest] at hout
      exact hout List.mem_cons_self
    · obtain ⟨hsource, htarget⟩ := hends i.stamped (List.mem_map_of_mem hi)
      rcases (hmet i (mem_of_shown hi)).ends with ⟨-, hfar⟩ | ⟨hfar, -⟩
      · exact hout (hfar ▸ htarget)
      · exact hout (hfar ▸ hsource)
  · intro hfew rel hrel
    obtain ⟨i, hi, rfl⟩ := List.mem_map.mp hrel
    have hmem := mem_of_shown hi
    have hfar := far_mem_reached hnav horigin hmet hi
    have hnode : i.node ∈ reached origin (rounds direct origin frontier) := by
      refine h.subset_reached ?_
      rcases mem_rounds hmem with hfirst | ⟨node, hnode, hsecond⟩
      · exact .inl (mem_itemsAt hfirst).2.1
      · rw [(mem_itemsAt hsecond).2.1]
        exact .inr hnode
    have hwhole : (reached origin (rounds direct origin frontier)).take defaultMaxNodes =
        reached origin (rounds direct origin frontier) := List.take_of_length_le hfew
    rw [hwhole]
    rcases (hmet i hmem).ends with ⟨hsource, htarget⟩ | ⟨hsource, htarget⟩
    · exact ⟨hsource ▸ hnode, htarget ▸ hfar⟩
    · exact ⟨hsource ▸ hfar, htarget ▸ hnode⟩

theorem depth_eq_iff {items : List Item} (habsorbed : Absorbed origin items w) :
    (∀ rel ∈ w.relationships, ∃ distance, rel.depth = distance + 1 ∧
        Nearer direct origin distance rel) ↔
      ∀ i ∈ shown items, ∃ distance, i.depth = distance + 1 ∧
        Nearer direct origin distance i.rel := by
  rw [habsorbed.relationships]
  constructor
  · intro h i hi
    obtain ⟨distance, hdepth, hnearer⟩ := h i.stamped (List.mem_map_of_mem hi)
    exact ⟨distance, hdepth, hnearer.near, hnearer.nearest⟩
  · intro h rel hrel
    obtain ⟨i, hi, rfl⟩ := List.mem_map.mp hrel
    obtain ⟨distance, hdepth, hnearer⟩ := h i hi
    exact ⟨distance, hdepth, hnearer.near, hnearer.nearest⟩

theorem OneStep.only_direct (h : OneStep direct origin frontier) (hnav : Navigable P direct)
    (horigin : P origin) (hlimit : frontier ≠ [] → 1 < limit) (hpos : 0 < limit)
    (habsorbed : Absorbed origin (rounds direct origin frontier) w) {rel : GraphRelationship}
    (hrel : rel ∈ w.relationships) :
    ∃ steps < limit, ∃ node rels, Within direct origin steps node ∧ direct node = .ok rels ∧
      ∃ found ∈ rels, rel = { found with depth := rel.depth } := by
  rw [habsorbed.relationships] at hrel
  obtain ⟨i, hi, rfl⟩ := List.mem_map.mp hrel
  rcases mem_rounds (mem_of_shown hi) with hfirst | ⟨node, hnode, hsecond⟩
  · obtain ⟨-, -, rels, hrels, hin⟩ := mem_itemsAt hfirst
    exact ⟨0, hpos, origin, rels, rfl, hrels, i.rel, hin, rfl⟩
  · obtain ⟨-, -, rels, hrels, hin⟩ := mem_itemsAt hsecond
    have htwo : 1 < limit := hlimit (List.ne_nil_of_mem hnode)
    exact ⟨1, htwo, node, rels, (h.met hnav horigin hnode).2, hrels, i.rel, hin, rfl⟩

end Absorbed

theorem item_mem {depth : Nat} {node : EntityRef} {rels : List GraphRelationship}
    {rel : GraphRelationship} (hrels : direct node = .ok rels) (hrel : rel ∈ rels) :
    Item.at depth node rel ∈ itemsAt direct depth node := by
  unfold itemsAt
  rw [hrels]
  exact List.mem_map_of_mem hrel

theorem Met.both {i : Item} (h : Met direct P i) : P i.rel.source ∧ P i.rel.target := by
  rcases h.ends with ⟨hsource, htarget⟩ | ⟨hsource, htarget⟩
  · rw [hsource, htarget]
    exact ⟨h.node, h.far⟩
  · rw [hsource, htarget]
    exact ⟨h.far, h.node⟩

/-- What is met again at one node leads to the same end. -/
theorem Navigable.far_eq (hnav : Navigable P direct) {i j : Item} (hi : Met direct P i)
    (hj : Met direct P j) (hnode : i.node = j.node) (hkey : i.key = j.key) : i.far = j.far := by
  have hsource : i.rel.source = j.rel.source :=
    hnav.key_inj _ _ hi.both.1 hj.both.1 (congrArg Prod.fst hkey)
  have htarget : i.rel.target = j.rel.target :=
    hnav.key_inj _ _ hi.both.2 hj.both.2 (congrArg (fun key => key.2.2) hkey)
  unfold Item.far farEnd
  rw [hnode, hsource, htarget]

/-- Where nothing is left out, the frontier is all that is one step away. -/
theorem within_one (hnav : Navigable P direct) (horigin : P origin)
    (hall : shown (itemsAt direct 1 origin) = found (itemsAt direct 1 origin)) {node : EntityRef}
    (hwithin : Within direct origin 1 node) :
    node = origin ∨ node ∈ (reached origin (itemsAt direct 1 origin)).tail := by
  rcases hwithin with hzero | ⟨start, rels, hstart, hrels, rel, hrel, hend⟩
  · exact .inl hzero
  · rw [show start = origin from hstart] at hrels
    have hmem : Item.at 1 origin rel ∈ itemsAt direct 1 origin := item_mem hrels hrel
    have hmet := hnav.met horigin hmem
    have hor : node = origin ∨ node = (Item.at 1 origin rel).far := by
      rcases hmet.ends with ⟨hsource, htarget⟩ | ⟨hsource, htarget⟩ <;> rcases hend with rfl | rfl
      · exact .inl hsource
      · exact .inr htarget
      · exact .inr hsource
      · exact .inl htarget
    rcases hor with hhome | hfar
    · exact .inl hhome
    · have hfound : (Item.at 1 origin rel).key ∈ (shown (itemsAt direct 1 origin)).map Item.key := by
        rw [hall, mem_found_keys]
        exact List.mem_map_of_mem hmem
      obtain ⟨i, hi, hkey⟩ := List.mem_map.mp hfound
      have himet := hnav.met horigin (mem_of_shown hi)
      have hsame : i.far = (Item.at 1 origin rel).far :=
        hnav.far_eq himet hmet (mem_itemsAt (mem_of_shown hi)).2.1 hkey
      have hin : node ∈ reached origin (itemsAt direct 1 origin) := by
        rw [hfar, ← hsame]
        exact far_mem_reached hnav horigin (fun j hj => hnav.met horigin hj) hi
      obtain ⟨rest, hrest⟩ := reached_eq_cons origin (itemsAt direct 1 origin)
      rw [hrest] at hin ⊢
      exact List.mem_cons.mp hin

/-- The ring, of which the node cap may have cut something off. -/
def cutRing (direct : EntityRef → Except Exn (List GraphRelationship)) (origin : EntityRef)
    (limit : Nat) : List EntityRef :=
  if limit ≤ 1 then [] else ((reached origin (itemsAt direct 1 origin)).take defaultMaxNodes).tail

theorem cutRing_oneStep : OneStep direct origin (cutRing direct origin limit) := by
  intro node hnode
  unfold cutRing at hnode
  split at hnode
  · cases hnode
  · obtain ⟨rest, hrest⟩ := reached_eq_cons origin (itemsAt direct 1 origin)
    rw [hrest] at hnode ⊢
    exact List.mem_of_mem_take (i := 49) hnode

theorem cutRing_whole (h : (reached origin (itemsAt direct 1 origin)).length ≤ 50) :
    cutRing direct origin limit = ring direct origin limit := by
  have hwhole : (reached origin (itemsAt direct 1 origin)).take defaultMaxNodes =
      reached origin (itemsAt direct 1 origin) := List.take_of_length_le h
  unfold cutRing ring
  rw [hwhole]

/-- What a walk is that ends. -/
structure Walked (direct : EntityRef → Except Exn (List GraphRelationship)) (origin : EntityRef)
    (limit : Nat) (w : Walk) : Prop where
  absorbed : Absorbed origin (rounds direct origin (cutRing direct origin limit)) w
  origin_read : ∃ rels, direct origin = .ok rels
  all_read : w.truncated = false →
    ∀ node ∈ cutRing direct origin limit, ∃ rels, direct node = .ok rels

/-- One round of the walk. -/
theorem traverse_cons {depth : Nat} {depths : List Nat} {w : Walk} {before : Nat}
    {out : Walk × Nat}
    (h : traverse direct (depth :: depths) frontier w before = .ok out) :
    (frontier = [] ∧ out.1 = w) ∨
      ∃ next, expand direct depth frontier { w with nextFrontier := [] } = .ok next ∧
        traverse direct depths next.nextFrontier next depth = .ok out := by
  unfold traverse at h
  by_cases hempty : frontier.isEmpty = true
  · rw [if_pos hempty] at h
    obtain rfl := Except.ok.inj h
    exact .inl ⟨List.isEmpty_iff.mp hempty, rfl⟩
  · rw [if_neg hempty] at h
    obtain ⟨next, hexpand, hrest⟩ := Query.bind_ok.mp h
    exact .inr ⟨next, hexpand, hrest⟩

theorem traverse_walked {out : Walk × Nat} (hlimit : limit = 1 ∨ limit = 2)
    (h : traverse direct (List.range' 1 limit) [origin] { visited := [origin] } 0 = .ok out) :
    Walked direct origin limit out.1 := by
  have hrange : List.range' 1 limit = 1 :: (if limit = 1 then [] else [2]) := by
    rcases hlimit with rfl | rfl <;> rfl
  rw [hrange] at h
  obtain ⟨hempty, -⟩ | ⟨first, hexpand, hrest⟩ := traverse_cons h
  · cases hempty
  · obtain ⟨habsorbed, ⟨more, hvisited, hnext⟩, -⟩ := expand_ok (Absorbed.start origin) hexpand
    obtain ⟨rels, hrels, -⟩ := Query.bind_ok.mp hexpand
    have hmet : ([] ++ [origin].flatMap (itemsAt direct 1) : List Item) = itemsAt direct 1 origin := by
      rw [List.nil_append, List.flatMap_singleton]
    rw [hmet] at habsorbed
    have hfrontier : first.nextFrontier = (first.visited).tail := by
      rw [hnext, hvisited]
      rfl
    rcases hlimit with rfl | rfl
    · obtain rfl := Except.ok.inj hrest
      refine ⟨?_, ⟨rels, hrels⟩, ?_⟩
      · show Absorbed origin (itemsAt direct 1 origin ++ []) first
        rw [List.append_nil]
        exact habsorbed
      · intro _ node hnode
        cases hnode
    · have hcut : first.nextFrontier = cutRing direct origin 2 := by
        rw [hfrontier, habsorbed.visited]
        rfl
      have hstart : Absorbed origin (itemsAt direct 1 origin) { first with nextFrontier := [] } :=
        ⟨habsorbed.relationships, habsorbed.seen, habsorbed.visited, habsorbed.whole⟩
      rw [hcut] at hrest
      obtain ⟨hempty, hout⟩ | ⟨second, hexpand', hrest'⟩ := traverse_cons hrest
      · rw [hout]
        refine ⟨?_, ⟨rels, hrels⟩, ?_⟩
        · unfold rounds
          rw [hempty, List.flatMap_nil, List.append_nil]
          exact habsorbed
        · intro _ node hnode
          rw [hempty] at hnode
          cases hnode
      · obtain ⟨habsorbed', -, hread⟩ := expand_ok hstart hexpand'
        obtain rfl := Except.ok.inj hrest'
        exact ⟨habsorbed', ⟨rels, hrels⟩, hread⟩

theorem Walked.all_direct {w : Walk} (h : Walked direct origin limit w) (hnav : Navigable P direct)
    (horigin : P origin) (hlimit : limit = 1 ∨ limit = 2) (hflag : w.truncated = false)
    {steps : Nat} (hsteps : steps < limit) {node : EntityRef}
    (hwithin : Within direct origin steps node) :
    ∃ rels, direct node = .ok rels ∧
      ∀ rel ∈ rels, edgeKey rel ∈ w.relationships.map edgeKey := by
  obtain ⟨hfew, hnodes⟩ := h.absorbed.whole hflag
  have hshown : shown (rounds direct origin (cutRing direct origin limit)) =
      found (rounds direct origin (cutRing direct origin limit)) := List.take_of_length_le hfew
  have hkeys : ∀ i ∈ rounds direct origin (cutRing direct origin limit),
      i.key ∈ w.relationships.map edgeKey := by
    intro i hi
    have hin : i.key ∈ (shown (rounds direct origin (cutRing direct origin limit))).map Item.key := by
      rw [hshown, mem_found_keys]
      exact List.mem_map_of_mem hi
    obtain ⟨j, hj, hkey⟩ := List.mem_map.mp hin
    rw [h.absorbed.relationships, ← hkey, List.map_map]
    exact List.mem_map_of_mem (f := edgeKey ∘ Item.stamped) hj
  have hhome : ∃ rels, direct origin = .ok rels ∧
      ∀ rel ∈ rels, edgeKey rel ∈ w.relationships.map edgeKey := by
    obtain ⟨rels, hrels⟩ := h.origin_read
    refine ⟨rels, hrels, fun rel hrel => ?_⟩
    exact hkeys _ (List.mem_append_left _ (item_mem hrels hrel))
  obtain ⟨more, hmore⟩ := found_append (itemsAt direct 1 origin)
    ((cutRing direct origin limit).flatMap (itemsAt direct 2))
  obtain ⟨later, hlater⟩ := reached_append origin (itemsAt direct 1 origin)
    ((cutRing direct origin limit).flatMap (itemsAt direct 2))
  have hfirst : (found (itemsAt direct 1 origin)).length ≤ defaultMaxEdges := by
    have hsum := congrArg List.length hmore
    rw [List.length_append] at hsum
    unfold rounds at hfew
    omega
  have hfirstNodes : (reached origin (itemsAt direct 1 origin)).length ≤ 50 := by
    have hsum := congrArg List.length hlater
    rw [List.length_append] at hsum
    have hmax : defaultMaxNodes = 50 := rfl
    unfold rounds at hnodes
    omega
  rcases Nat.eq_zero_or_pos steps with rfl | hpos
  · rw [show node = origin from hwithin]
    exact hhome
  · have htwo : limit = 2 := by omega
    have hone : steps = 1 := by omega
    rw [hone] at hwithin
    rcases within_one hnav horigin (List.take_of_length_le hfirst) hwithin with rfl | hnode
    · exact hhome
    · have hring : node ∈ cutRing direct origin limit := by
        rw [cutRing_whole hfirstNodes, htwo]
        exact hnode
      obtain ⟨rels, hrels⟩ := h.all_read hflag node hring
      refine ⟨rels, hrels, fun rel hrel => ?_⟩
      exact hkeys _ (List.mem_append_right _
        (List.mem_flatMap.mpr ⟨node, hring, item_mem hrels hrel⟩))

theorem Walked.wellFormed_iff {w : Walk} (h : Walked direct origin limit w)
    (hnav : Navigable P direct) (horigin : P origin) (hlimit : limit = 1 ∨ limit = 2)
    (maxDepthReached : Nat) :
    WellFormed direct origin limit
        { origin
          relationships := w.relationships
          nodes := w.visited
          maxDepthReached
          truncated := w.truncated } ↔
      Fits direct origin limit := by
  have hstep : OneStep direct origin (cutRing direct origin limit) := cutRing_oneStep
  have hends := hstep.ends_mem_iff hnav horigin h.absorbed
  have hdepth : (∀ rel ∈ w.relationships, ∃ distance, rel.depth = distance + 1 ∧
        Nearer direct origin distance rel) ↔
      ∀ i ∈ shown (rounds direct origin (cutRing direct origin limit)),
        i.far = origin → i.depth = 1 := by
    rw [depth_eq_iff h.absorbed]
    constructor
    · intro hall i hi
      exact (hstep.depth_iff hnav horigin (mem_of_shown hi)).mp (hall i hi)
    · intro hall i hi
      exact (hstep.depth_iff hnav horigin (mem_of_shown hi)).mpr (hall i hi)
  by_cases hfew : (reached origin (itemsAt direct 1 origin)).length ≤ 50
  · have hrounds : rounds direct origin (cutRing direct origin limit) =
        breadthFirst direct origin limit := by
      rw [cutRing_whole hfew]
      rfl
    constructor
    · intro hwell
      refine ⟨?_, ?_⟩
      · rw [← hrounds]
        exact hends.mp hwell.ends_mem
      · rw [← hrounds]
        exact hdepth.mp hwell.depth_eq
    · intro hfits
      have hpos : 0 < limit := by omega
      have hring : cutRing direct origin limit ≠ [] → 1 < limit := by
        intro hne
        by_contra hle
        exact hne (if_pos (Nat.le_of_not_lt hle))
      have hvisited := h.absorbed.visited
      have hrelationships := h.absorbed.relationships
      refine ⟨rfl, ?_, ?_, ?_, ?_, ?_, ?_, ?_, ?_, ?_⟩
      · rw [hvisited]
        exact (reached_nodup _ _).sublist ((List.take_sublist _ _).map _)
      · obtain ⟨rest, hrest⟩ := reached_eq_cons origin
          (rounds direct origin (cutRing direct origin limit))
        rw [hvisited, hrest]
        exact List.mem_cons_self
      · rw [hvisited]
        exact List.length_take_le 50 _
      · rw [hrelationships, List.length_map]
        exact List.length_take_le 100 _
      · rw [hrelationships, List.map_map]
        exact (@Firsts.nodup _ _ _ Item.key [] _).sublist ((List.take_sublist _ _).map _)
      · refine hends.mpr ?_
        rw [hrounds]
        exact hfits.nodes
      · refine hdepth.mpr ?_
        rw [hrounds]
        exact hfits.depths
      · intro _ rel hrel
        exact hstep.only_direct hnav horigin hring hpos h.absorbed hrel
      · intro hflag steps hsteps node hwithin
        exact h.all_direct hnav horigin hlimit hflag hsteps hwithin
  · -- more than fifty ends already at the origin, however the second round goes on
    have hmany (frontier : List EntityRef) :
        ¬ (reached origin (rounds direct origin frontier)).length ≤ 50 := by
      obtain ⟨later, hlater⟩ := reached_append origin (itemsAt direct 1 origin)
        (frontier.flatMap (itemsAt direct 2))
      unfold rounds
      rw [hlater, List.length_append]
      omega
    constructor
    · intro hwell
      exact absurd (hends.mp hwell.ends_mem) (hmany _)
    · intro hfits
      exact absurd hfits.nodes (hmany _)

end Rounds

/-! ## The relationships of the graph -/

section Graph

variable {ε : Type} {texts : Texts} {db : GraphDb ε} {actor : Identity} {node : EntityRef}

theorem mem_fkRelationships_end {rels : List GraphRelationship} {rel : GraphRelationship}
    (h : fkRelationships texts db actor node = .ok rels) (hrel : rel ∈ rels) :
    rel.source = node ∨ rel.target = node := by
  have howner {spec : RelationshipSpec} {incidentId : Option Uuid}
      (hmem : rel ∈ ownerRelationship db actor node spec incidentId) : rel.target = node := by
    obtain ⟨incident, -, rfl⟩ := Option.map_eq_some_iff.mp (Option.mem_toList.mp hmem)
    rfl
  unfold fkRelationships at h
  split at h
  · split at h
    · obtain rfl := Except.ok.inj h
      cases hrel
    · unfold incidentRelationships at h
      obtain ⟨postmortemRow, -, h⟩ := Query.bind_ok.mp h
      obtain rfl := Except.ok.inj h
      rcases List.mem_append.mp hrel with hrel | hrel
      · rcases List.mem_append.mp hrel with hrel | hrel
        · obtain ⟨target, -, rfl⟩ := Option.map_eq_some_iff.mp (Option.mem_toList.mp hrel)
          exact .inl rfl
        · obtain ⟨target, -, rfl⟩ := Option.map_eq_some_iff.mp (Option.mem_toList.mp hrel)
          exact .inl rfl
      · obtain ⟨target, -, rfl⟩ := List.mem_map.mp hrel
        exact .inl rfl
  · obtain rfl := Except.ok.inj h
    exact .inr (howner hrel)
  · obtain rfl := Except.ok.inj h
    obtain ⟨target, -, rfl⟩ := Option.map_eq_some_iff.mp (Option.mem_toList.mp hrel)
    exact .inl rfl
  · obtain rfl := Except.ok.inj h
    cases hrel
  · obtain rfl := Except.ok.inj h
    exact .inr (howner hrel)

theorem mem_derivedFrom_end {edges : List KnowledgeGraphEdgeRow} {rels : List GraphRelationship}
    {rel : GraphRelationship} (h : derivedFrom texts db actor node edges = .ok rels)
    (hrel : rel ∈ rels) : rel.source = node ∨ rel.target = node := by
  induction edges generalizing rels with
  | nil =>
    obtain rfl := Except.ok.inj h
    cases hrel
  | cons edge edges ih =>
    unfold derivedFrom at h
    split at h
    · exact ih h hrel
    · obtain ⟨first, hfirst, h⟩ := Query.bind_ok.mp h
      obtain ⟨rest, hrest, h⟩ := Query.bind_ok.mp h
      obtain rfl := Except.ok.inj h
      rcases List.mem_cons.mp hrel with rfl | hrel
      · rcases storedRelationship_ok hfirst with ⟨hsource, -⟩ | ⟨-, htarget⟩
        · exact .inl hsource
        · exact .inr htarget
      · exact ih hrest hrel

theorem directRelationships_navigable :
    Navigable (Resolved texts db actor) (directRelationships texts db actor) where
  closed := directRelationships_closed
  ends := by
    intro node _ rels h rel hrel
    unfold directRelationships at h
    obtain ⟨live, hlive, h⟩ := Query.bind_ok.mp h
    obtain ⟨stored, hstored, h⟩ := Query.bind_ok.mp h
    obtain rfl := Except.ok.inj h
    rcases List.mem_append.mp (Query.mem_orderBy.mp hrel) with hrel | hrel
    · exact mem_fkRelationships_end hlive hrel
    · exact mem_derivedFrom_end hstored hrel
  key_inj := by
    intro ref ref' href href' hkey
    obtain ⟨htype, hid⟩ := Prod.mk.inj hkey
    unfold Resolved at href href'
    rw [htype, hid, href'] at href
    exact (Option.some.inj href).symm

theorem depthCap_eq (maxDepth : Int) : depthCap maxDepth = (min (max 1 maxDepth) 2).toNat := by
  unfold depthCap maxTraversalDepth
  omega

theorem investigationRows_nil (h : db.incidentTimeline = [])
    (incidentId : Uuid) : investigationRows db incidentId = [] := by
  unfold investigationRows Incidents.Repository.listTimelineEntries Query.orderBy
  rw [h]
  show List.filter _ (List.mergeSort [] _) = _
  rw [List.mergeSort_nil]
  rfl

/-- A round from a single node. -/
theorem traverse_one {direct : EntityRef → Except Exn (List GraphRelationship)}
    {rels : List GraphRelationship} {depth reached : Nat} {depths : List Nat} {w : Walk}
    (hdirect : direct node = .ok rels)
    (hfew : (visit depth node rels { w with nextFrontier := [] }).relationships.length <
      defaultMaxEdges) :
    traverse direct (depth :: depths) [node] w reached =
      traverse direct depths (visit depth node rels { w with nextFrontier := [] }).nextFrontier
        (visit depth node rels { w with nextFrontier := [] }) depth := by
  have hexpand : expand direct depth [node] { w with nextFrontier := [] } =
      .ok (visit depth node rels { w with nextFrontier := [] }) := by
    unfold expand
    rw [hdirect]
    dsimp only [bind, Except.bind]
    rw [if_neg (not_le.mpr hfew)]
    rfl
  show (if [node].isEmpty then _ else
    expand direct depth [node] _ >>= fun w => traverse direct depths w.nextFrontier w depth) = _
  rw [if_neg (by simp), hexpand]
  rfl

theorem review_direct :
    directRelationships plainTexts (withRows oneOutage [approvedReview] []) onCall reviewRef =
      .ok [foreignKeyRelationship hasPostmortemSpec outageRef reviewRef] :=
  directRelationships_of_sorted rfl rfl (List.pairwise_singleton _ _)

/-- A neighborhood is a subgraph, honest about what it leaves out, exactly where the first
hundred relationships around its origin have at most fifty ends and none of the later round
leads back to the origin. -/
theorem neighborhood_wellFormed_iff (texts : Texts) (db : GraphDb ε) (actor : Identity)
    (entityType : String) (entityId : Uuid) (maxDepth : Int) {neighborhood : GraphNeighborhood}
    (h : getNeighborhood texts db actor entityType entityId maxDepth = .ok neighborhood) :
    ∃ kind origin, EntityType.ofValue? entityType = some kind ∧
      resolveEntity texts db actor kind entityId = some origin ∧
      (WellFormed (directRelationships texts db actor) origin (min (max 1 maxDepth) 2).toNat
          neighborhood ↔
        Fits (directRelationships texts db actor) origin (min (max 1 maxDepth) 2).toNat) := by
  unfold getNeighborhood at h
  cases hkind : EntityType.ofValue? entityType with
  | none =>
    rw [hkind] at h
    cases h
  | some kind =>
    rw [hkind] at h
    dsimp only at h
    cases horigin : resolveEntity texts db actor kind entityId with
    | none =>
      rw [horigin] at h
      cases h
    | some origin =>
      rw [horigin] at h
      dsimp only at h
      obtain ⟨out, hwalk, h⟩ := Query.bind_ok.mp h
      obtain rfl := Except.ok.inj h
      have hlimit : depthCap maxDepth = 1 ∨ depthCap maxDepth = 2 := by
        rw [depthCap_eq]
        omega
      have hwalked := traverse_walked hlimit hwalk
      refine ⟨kind, origin, rfl, horigin, ?_⟩
      rw [← depthCap_eq]
      exact hwalked.wellFormed_iff directRelationships_navigable
        (resolved_of_resolveEntity kind horigin) hlimit out.2

/-- From a postmortem to its incident, and from there to the project. -/
theorem neighborhood_wellFormed_outage :
    ∃ neighborhood, getNeighborhood plainTexts (withRows oneOutage [approvedReview] []) onCall
        "postmortem" 10 2 = .ok neighborhood ∧ neighborhood.nodes.length = 3 ∧
      WellFormed (directRelationships plainTexts (withRows oneOutage [approvedReview] []) onCall)
        reviewRef 2 neighborhood := by
  have horigin : resolveEntity plainTexts (withRows oneOutage [approvedReview] []) onCall
      .postmortem 10 = some reviewRef := rfl
  obtain ⟨neighborhood, hwalk, hnodes⟩ : ∃ neighborhood,
      getNeighborhood plainTexts (withRows oneOutage [approvedReview] []) onCall "postmortem" 10 2 =
        .ok neighborhood ∧ neighborhood.nodes.length = 3 := by
    unfold getNeighborhood
    rw [show EntityType.ofValue? "postmortem" = some .postmortem from rfl]
    dsimp only
    rw [horigin]
    dsimp only
    rw [show List.range' 1 (depthCap 2) = [1, 2] from rfl]
    rw [traverse_one review_direct (by decide),
      show (visit 1 reviewRef _ { visited := [reviewRef] }).nextFrontier = [outageRef] from rfl,
      traverse_one reviewedOutage_direct (by decide)]
    exact ⟨_, rfl, rfl⟩
  obtain ⟨kind, origin, hkind, hresolved, hiff⟩ :=
    neighborhood_wellFormed_iff plainTexts _ onCall "postmortem" 10 2 hwalk
  obtain rfl : .postmortem = kind := Option.some.inj hkind
  obtain rfl : reviewRef = origin := Option.some.inj hresolved
  have hmet : breadthFirst (directRelationships plainTexts
      (withRows oneOutage [approvedReview] []) onCall) reviewRef 2 =
        [Item.at 1 reviewRef (foreignKeyRelationship hasPostmortemSpec outageRef reviewRef),
          Item.at 2 outageRef (foreignKeyRelationship incidentBelongsToSpec outageRef projectRef),
          Item.at 2 outageRef (foreignKeyRelationship hasPostmortemSpec outageRef reviewRef)] := by
    unfold breadthFirst rounds ring itemsAt
    rw [review_direct]
    show _ ++ [outageRef].flatMap _ = _
    rw [List.flatMap_singleton, reviewedOutage_direct]
    rfl
  refine ⟨neighborhood, hwalk, hnodes, hiff.mpr ⟨?_, ?_⟩⟩
  · show (reached reviewRef (breadthFirst _ reviewRef 2)).length ≤ 50
    rw [hmet]
    decide
  · show ∀ i ∈ shown (breadthFirst _ reviewRef 2), _
    rw [hmet]
    decide

end Graph

/-! ## An incident with many related ones -/

def relatedOutages : GraphDb Unit :=
  { oneOutage with
    incidents := oneOutage.incidents ++ (List.range 49).map fun n =>
      { id := 100 + n
        organizationId := 1
        projectId := 1
        title := "Outage"
        severity := "high"
        reportedBy := 1
        createdAt := 0
        description := ""
        updatedAt := 0 }
    knowledgeGraphEdges := (List.range 49).map fun n =>
      { id := n
        organizationId := 1
        projectId := none
        sourceEntityType := "incident"
        sourceEntityId := 5
        relationshipType := "related_to"
        targetEntityType := "incident"
        targetEntityId := 100 + n
        provenanceType := "manual"
        createdBy := "user:1" } }

def relatedRelationship (n : Nat) : GraphRelationship :=
  { source := outageRef
    relationshipType := .relatedTo
    target := { entityType := .incident, entityId := 100 + n, label := some "Outage" }
    provenanceType := .manual
    meaning := relatedToSpec.meaning
    edgeId := some n }

def crowdedRelationships : List GraphRelationship :=
  foreignKeyRelationship incidentBelongsToSpec outageRef projectRef ::
    (List.range 49).map relatedRelationship

theorem relatedOutages_direct :
    directRelationships plainTexts relatedOutages onCall outageRef = .ok crowdedRelationships := by
  have hlive : fkRelationships plainTexts relatedOutages onCall outageRef =
      .ok [foreignKeyRelationship incidentBelongsToSpec outageRef projectRef] := by
    show incidentRelationships _ _ _ _ _ = _
    unfold incidentRelationships
    rw [investigationRows_nil rfl]
    rfl
  have hstored : derivedRelationships plainTexts relatedOutages onCall outageRef =
      .ok ((List.range 49).map relatedRelationship) := by
    have hvalue : (derivedRelationships plainTexts relatedOutages onCall outageRef).toOption =
        some ((List.range 49).map relatedRelationship) := by decide +kernel
    cases hcase : derivedRelationships plainTexts relatedOutages onCall outageRef with
    | error e =>
      rw [hcase] at hvalue
      cases hvalue
    | ok rels =>
      rw [hcase] at hvalue
      exact congrArg Except.ok (Option.some.inj hvalue)
  unfold directRelationships
  rw [hlive, hstored]
  show Except.ok (Query.orderBy SortKey.le sortKey crowdedRelationships) = _
  unfold Query.orderBy
  rw [List.mergeSort_of_pairwise (by decide +kernel)]

/-- With its project and forty-nine related incidents, an incident has fifty neighbors: the
last relationship is shown without the incident that it leads to. -/
theorem relatedOutages_end_missing :
    ∃ neighborhood, getNeighborhood plainTexts relatedOutages onCall "incident" 5 1 =
        .ok neighborhood ∧
      ¬ WellFormed (directRelationships plainTexts relatedOutages onCall) outageRef
        (min (max 1 (1 : Int)) 2).toNat neighborhood := by
  have horigin : resolveEntity plainTexts relatedOutages onCall .incident 5 = some outageRef := rfl
  obtain ⟨neighborhood, hwalk, hrelationships, hnodes⟩ :=
    getNeighborhood_first horigin relatedOutages_direct
  refine ⟨neighborhood, hwalk, ?_⟩
  intro hwell
  have hends := hwell.ends_mem
  rw [hrelationships, hnodes] at hends
  revert hends
  decide +kernel

end Ekip.Core.Graph
