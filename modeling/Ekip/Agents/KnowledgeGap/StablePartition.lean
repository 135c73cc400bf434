import Mathlib.Tactic.Linarith
import Mathlib.Tactic.NormNum
import Ekip.Agents.KnowledgeGap.Centroids

/-!
# Clustering is an order-stable partition

A turn of the loop places one vector: alone, or into the earliest of the clusters that are
most similar to it. The scan starts from the similarity -1 and takes only what beats it, so
that a vector which points exactly against every centroid is placed alone even where the
threshold admits the similarity -1.
-/
namespace Ekip.Agents.KnowledgeGap

open Ekip.Lib Ekip.Core

/-! ## The cosine -/

/-- The cosine that is meant, and 0 for a vector without length. -/
noncomputable def cosine (a b : Embedding) : ℝ :=
  if dot a a = 0 ∨ dot b b = 0 then 0
  else (dot a b : ℝ) / (√(dot a a : ℝ) * √(dot b b : ℝ))

theorem cosineSimilarity_cosine {a b : Embedding} (h : a.length = b.length) :
    ∃ found, cosineSimilarity a b = .ok found ∧ found.value = cosine a b := by
  have hlength : ¬ a.length ≠ b.length := not_not.mpr h
  by_cases hzero : dot a a = 0 ∨ dot b b = 0
  · refine ⟨.ofRat 0, ?_, ?_⟩
    · unfold cosineSimilarity
      rw [if_neg hlength, dif_pos hzero]
    · simp [cosine, hzero]
  · obtain ⟨found, hfound⟩ : ∃ found, cosineSimilarity a b = .ok found := by
      unfold cosineSimilarity
      rw [if_neg hlength, dif_neg hzero]
      exact ⟨_, rfl⟩
    refine ⟨found, hfound, ?_⟩
    rcases cosineSimilarity_value hfound with hvalue | ⟨-, hzero'⟩
    · rw [hvalue]
      simp only [cosine, if_neg hzero]
    · exact absurd hzero' hzero

/-- The products of two components are no more than half their squares, each weighted by
the length of the other vector. -/
theorem two_mul_le_weighted {x y A B D : Rat} (hA : 0 ≤ A) (hB : 0 ≤ B) (hD : D ^ 2 ≤ A * B) :
    2 * (x * y) * D ≤ x ^ 2 * B + y ^ 2 * A := by
  have hright : 0 ≤ x ^ 2 * B + y ^ 2 * A := by positivity
  have hxy : 0 ≤ 4 * (x * y) ^ 2 := by positivity
  refine le_of_abs_le (abs_le_of_sq_le_sq ?_ hright)
  calc (2 * (x * y) * D) ^ 2 = 4 * (x * y) ^ 2 * D ^ 2 := by ring
    _ ≤ 4 * (x * y) ^ 2 * (A * B) := mul_le_mul_of_nonneg_left hD hxy
    _ ≤ (x ^ 2 * B + y ^ 2 * A) ^ 2 := by nlinarith [sq_nonneg (x ^ 2 * B - y ^ 2 * A)]

theorem dot_sq_le (a b : Embedding) : dot a b ^ 2 ≤ dot a a * dot b b := by
  induction a generalizing b with
  | nil => simp [dot]
  | cons x a ih =>
    cases b with
    | nil => simp [dot]
    | cons y b =>
      have hsum : dot (x :: a) (y :: b) = x * y + dot a b := rfl
      have hleft : dot (x :: a) (x :: a) = x * x + dot a a := rfl
      have hright : dot (y :: b) (y :: b) = y * y + dot b b := rfl
      have hcross := two_mul_le_weighted (x := x) (y := y) (dot_self_nonneg a)
        (dot_self_nonneg b) (ih b)
      rw [hsum, hleft, hright]
      nlinarith [ih b]

theorem neg_one_le_cosine (a b : Embedding) : -1 ≤ cosine a b := by
  unfold cosine
  split
  case isTrue => norm_num
  case isFalse hzero =>
    rw [not_or] at hzero
    have ha : (0 : ℝ) < dot a a := by
      exact_mod_cast lt_of_le_of_ne (dot_self_nonneg a) (Ne.symm hzero.1)
    have hb : (0 : ℝ) < dot b b := by
      exact_mod_cast lt_of_le_of_ne (dot_self_nonneg b) (Ne.symm hzero.2)
    have hsq : (dot a b : ℝ) ^ 2 ≤ dot a a * dot b b := by exact_mod_cast dot_sq_le a b
    have hroot : |(dot a b : ℝ)| ≤ √(dot a a : ℝ) * √(dot b b : ℝ) := by
      rw [← Real.sqrt_mul ha.le]
      exact Real.abs_le_sqrt hsq
    rw [le_div_iff₀ (mul_pos (Real.sqrt_pos.mpr ha) (Real.sqrt_pos.mpr hb))]
    have hlow := neg_le_of_abs_le hroot
    linarith

/-- Only the direction of a centroid matters. -/
theorem cosine_div_right (a s : Embedding) {n : Nat} (hn : 0 < n) :
    cosine a (s.map fun value => value / n) = cosine a s := by
  have hn' : (0 : Rat) < n := by exact_mod_cast hn
  have hzero : dot s s / n / n = 0 ↔ dot s s = 0 := by
    rw [div_eq_zero_iff, div_eq_zero_iff]
    simp [hn'.ne']
  unfold cosine
  rw [dot_div_self, dot_div_right]
  simp only [hzero]
  split
  case isTrue => rfl
  case isFalse =>
    have hreal : (0 : ℝ) < n := by exact_mod_cast hn
    have hroot : √((dot s s / n / n : Rat) : ℝ) = √(dot s s : ℝ) / n := by
      push_cast
      rw [div_div, Real.sqrt_div' _ (by positivity), Real.sqrt_mul_self hreal.le]
    rw [hroot]
    push_cast
    field_simp

/-! ## Sums of the members -/

def total : List Embedding → Embedding
  | [] => []
  | first :: rest => rest.foldl (List.zipWith (· + ·)) first

theorem total_concat {vectors : List Embedding} (h : vectors ≠ []) (vector : Embedding) :
    total (vectors ++ [vector]) = List.zipWith (· + ·) (total vectors) vector := by
  obtain ⟨first, rest, rfl⟩ := List.exists_cons_of_ne_nil h
  show (rest ++ [vector]).foldl _ first = _
  rw [List.foldl_append]
  rfl

theorem length_total {vectors : List Embedding} {width : Nat} (hne : vectors ≠ [])
    (h : ∀ vector ∈ vectors, vector.length = width) : (total vectors).length = width := by
  induction vectors using List.reverseRecOn with
  | nil => exact absurd rfl hne
  | append_singleton vectors vector ih =>
    have hlast : vector.length = width := h vector (by simp)
    by_cases hnil : vectors = []
    · rw [hnil]
      exact hlast
    · have hrest := ih hnil fun other hother => h other (List.mem_append_left _ hother)
      rw [total_concat hnil, List.length_zipWith, hrest, hlast, Nat.min_self]

variable {embeddings : List Embedding}

def vectorsOf (embeddings : List Embedding) (members : List Nat) : List Embedding :=
  members.filterMap (embeddings[·]?)

/-- The average of the members. -/
def centroidOf (embeddings : List Embedding) (members : List Nat) : Embedding :=
  (total (vectorsOf embeddings members)).map fun value => value / members.length

theorem vectorsOf_concat {index : Nat} {embedding : Embedding}
    (hitem : embeddings[index]? = some embedding) (members : List Nat) :
    vectorsOf embeddings (members ++ [index]) = vectorsOf embeddings members ++ [embedding] := by
  simp [vectorsOf, hitem]

theorem mem_of_mem_vectorsOf {members : List Nat} {vector : Embedding}
    (h : vector ∈ vectorsOf embeddings members) : vector ∈ embeddings := by
  obtain ⟨i, -, hi⟩ := List.mem_filterMap.mp h
  exact List.mem_of_getElem? hi

theorem vectorsOf_ne_nil {members : List Nat} (hne : members ≠ [])
    (h : ∀ i ∈ members, i < embeddings.length) : vectorsOf embeddings members ≠ [] := by
  obtain ⟨i, rest, rfl⟩ := List.exists_cons_of_ne_nil hne
  have hi := h i List.mem_cons_self
  simp [vectorsOf, hi]

theorem vectorsOf_range {n : Nat} (h : n ≤ embeddings.length) :
    vectorsOf embeddings (List.range n) = embeddings.take n := by
  induction n with
  | zero => rfl
  | succ n ih =>
    have hn : n < embeddings.length := by omega
    have hitem : embeddings[n]? = some embeddings[n] := List.getElem?_eq_getElem hn
    rw [List.range_succ, vectorsOf_concat hitem, ih (by omega), List.take_add_one, hitem]
    rfl

/-! ## Partitions -/

structure Partition (n : Nat) (clusters : List (List Nat)) : Prop where
  nonempty : ∀ members ∈ clusters, members ≠ []
  increasing : ∀ members ∈ clusters, members.Pairwise (· < ·)
  once : clusters.flatten.Perm (List.range n)
  ordered : clusters.Pairwise fun members others =>
    ∀ first ∈ members.head?, ∀ other ∈ others.head?, first < other

/-- What is left of a result for the first `n` vectors. -/
def restricted (n : Nat) (clusters : List (List Nat)) : List (List Nat) :=
  (clusters.map fun members => members.filter fun i => i < n).filter fun members => members ≠ []

theorem restricted_restricted {m n : Nat} (h : m ≤ n) (clusters : List (List Nat)) :
    restricted m (restricted n clusters) = restricted m clusters := by
  induction clusters with
  | nil => rfl
  | cons members clusters ih =>
    have hinner : (members.filter fun i => i < n).filter (fun i => i < m) =
        members.filter fun i => i < m := by
      rw [List.filter_filter]
      refine List.filter_congr fun i _ => ?_
      simp only [← Bool.decide_and]
      exact decide_eq_decide.mpr (by omega)
    have hcons (k : Nat) (all : List (List Nat)) : restricted k (members :: all) =
        if members.filter (fun i => i < k) = [] then restricted k all
        else members.filter (fun i => i < k) :: restricted k all := by
      by_cases hnil : members.filter (fun i => i < k) = []
      · rw [if_pos hnil]
        simp [restricted, hnil]
      · rw [if_neg hnil]
        simp [restricted, hnil]
    rw [hcons n, hcons m]
    by_cases hn : members.filter (fun i => i < n) = []
    · have hm : members.filter (fun i => i < m) = [] := by rw [← hinner, hn]; rfl
      rw [if_pos hn, if_pos hm, ih]
    · rw [if_neg hn]
      by_cases hm : members.filter (fun i => i < m) = []
      · rw [if_pos hm, ← ih]
        simp only [restricted, List.map_cons, hinner, hm]
        rfl
      · rw [if_neg hm, ← ih]
        simp [restricted, hinner, hm]

namespace Partition

variable {n : Nat} {clusters earlier later : List (List Nat)} {chosen : List Nat}

theorem lt (h : Partition n clusters) {members : List Nat} (hmembers : members ∈ clusters)
    {i : Nat} (hi : i ∈ members) : i < n :=
  List.mem_range.mp (h.once.mem_iff.mp (List.mem_flatten_of_mem hmembers hi))

theorem zero : Partition 0 [] where
  nonempty := by simp
  increasing := by simp
  once := by simp
  ordered := .nil

theorem alone (h : Partition n clusters) : Partition (n + 1) (clusters ++ [[n]]) where
  nonempty := by
    intro members hmembers
    rcases List.mem_append.mp hmembers with hold | hnew
    · exact h.nonempty members hold
    · rw [List.mem_singleton.mp hnew]
      simp
  increasing := by
    intro members hmembers
    rcases List.mem_append.mp hmembers with hold | hnew
    · exact h.increasing members hold
    · rw [List.mem_singleton.mp hnew]
      simp
  once := by
    rw [List.flatten_append, List.range_succ]
    exact h.once.append_right [n]
  ordered := by
    refine List.pairwise_append.mpr ⟨h.ordered, by simp, ?_⟩
    intro members hmembers others hothers first hfirst other hother
    rw [List.mem_singleton.mp hothers] at hother
    obtain rfl : n = other := by simpa using hother
    exact h.lt hmembers (List.mem_of_mem_head? hfirst)

theorem join (h : Partition n (earlier ++ chosen :: later)) :
    Partition (n + 1) (earlier ++ (chosen ++ [n]) :: later) := by
  have hchosen : chosen ∈ earlier ++ chosen :: later := by simp
  have hne : chosen ≠ [] := h.nonempty chosen hchosen
  have hcases : ∀ members ∈ earlier ++ (chosen ++ [n]) :: later,
      members = chosen ++ [n] ∨ members ∈ earlier ++ chosen :: later := by
    intro members hmembers
    rcases List.mem_append.mp hmembers with hmem | hmem
    · exact .inr (List.mem_append_left _ hmem)
    · rcases List.mem_cons.mp hmem with rfl | hmem
      · exact .inl rfl
      · exact .inr (List.mem_append_right _ (List.mem_cons_of_mem _ hmem))
  refine ⟨?_, ?_, ?_, ?_⟩
  · intro members hmembers
    rcases hcases members hmembers with rfl | hold
    · simp
    · exact h.nonempty members hold
  · intro members hmembers
    rcases hcases members hmembers with rfl | hold
    · refine List.pairwise_append.mpr ⟨h.increasing chosen hchosen, by simp, ?_⟩
      intro i hi j hj
      rw [List.mem_singleton.mp hj]
      exact h.lt hchosen hi
    · exact h.increasing members hold
  · have honce := h.once.append_right [n]
    rw [← List.range_succ] at honce
    refine .trans ?_ honce
    simp only [List.flatten_append, List.flatten_cons, List.append_assoc]
    exact .append_left _ (.append_left _ List.perm_append_comm)
  · -- The first member of the cluster that grows stays the first.
    have hhead : (chosen ++ [n]).head? = chosen.head? := by
      obtain ⟨first, rest, rfl⟩ := List.exists_cons_of_ne_nil hne
      rfl
    have hold := h.ordered
    rw [List.pairwise_append, List.pairwise_cons] at hold ⊢
    obtain ⟨hearlier, ⟨hchosenLater, hlater⟩, hcross⟩ := hold
    refine ⟨hearlier, ⟨?_, hlater⟩, ?_⟩
    · rw [hhead]
      exact hchosenLater
    · intro members hmembers others hothers
      rcases List.mem_cons.mp hothers with rfl | hothers
      · rw [hhead]
        exact hcross members hmembers chosen List.mem_cons_self
      · exact hcross members hmembers others (List.mem_cons_of_mem _ hothers)

theorem filter_eq (h : Partition n clusters) {members : List Nat} (hmembers : members ∈ clusters) :
    members.filter (fun i => i < n) = members :=
  List.filter_eq_self.mpr fun i hi => by simpa using h.lt hmembers hi

theorem restricted_eq (h : Partition n clusters) : restricted n clusters = clusters := by
  have hkeep : clusters.map (fun members => members.filter fun i => i < n) = clusters.map id :=
    List.map_congr_left fun members hmembers => h.filter_eq hmembers
  unfold restricted
  rw [hkeep, List.map_id]
  exact List.filter_eq_self.mpr fun members hmembers => by simpa using h.nonempty members hmembers

theorem restricted_alone (h : Partition n clusters) :
    restricted n (clusters ++ [[n]]) = clusters := by
  have hsplit : restricted n (clusters ++ [[n]]) = restricted n clusters ++ restricted n [[n]] := by
    simp [restricted]
  have hnew : restricted n [[n]] = [] := by simp [restricted]
  rw [hsplit, hnew, h.restricted_eq, List.append_nil]

theorem restricted_join (h : Partition n (earlier ++ chosen :: later)) :
    restricted n (earlier ++ (chosen ++ [n]) :: later) = earlier ++ chosen :: later := by
  have hchosen : (chosen ++ [n]).filter (fun i => i < n) = chosen.filter fun i => i < n := by simp
  have hsame : restricted n (earlier ++ (chosen ++ [n]) :: later) =
      restricted n (earlier ++ chosen :: later) := by
    unfold restricted
    simp only [List.map_append, List.map_cons, hchosen]
  rw [hsame, h.restricted_eq]

end Partition

/-! ## One turn -/

/-- Where a vector belongs that is met with these clusters. -/
structure Placed (similarityThreshold : Rat) (embeddings : List Embedding)
    (before : List (List Nat)) (index : Nat) (embedding : Embedding) (after : List (List Nat)) :
    Prop where
  alone : (∀ members ∈ before,
      cosine embedding (centroidOf embeddings members) < similarityThreshold) →
    after = before ++ [[index]]
  joins : (∃ members ∈ before,
      similarityThreshold ≤ cosine embedding (centroidOf embeddings members)) →
    ∃ earlier chosen later, before = earlier ++ chosen :: later ∧
      after = earlier ++ (chosen ++ [index]) :: later ∧
      (∀ members ∈ earlier, cosine embedding (centroidOf embeddings members) <
        cosine embedding (centroidOf embeddings chosen)) ∧
      ∀ members ∈ later, cosine embedding (centroidOf embeddings members) ≤
        cosine embedding (centroidOf embeddings chosen)

/-- Where the loop puts it. -/
def Turn (similarityThreshold : Rat) (embeddings : List Embedding) (before : List (List Nat))
    (index : Nat) (embedding : Embedding) (after : List (List Nat)) : Prop :=
  (after = before ++ [[index]] ∧ ∀ members ∈ before,
    cosine embedding (centroidOf embeddings members) < similarityThreshold ∨
      cosine embedding (centroidOf embeddings members) = -1) ∨
  ∃ earlier chosen later, before = earlier ++ chosen :: later ∧
    after = earlier ++ (chosen ++ [index]) :: later ∧
    similarityThreshold ≤ cosine embedding (centroidOf embeddings chosen) ∧
    -1 < cosine embedding (centroidOf embeddings chosen) ∧
    (∀ members ∈ earlier, cosine embedding (centroidOf embeddings members) <
      cosine embedding (centroidOf embeddings chosen)) ∧
    ∀ members ∈ later, cosine embedding (centroidOf embeddings members) ≤
      cosine embedding (centroidOf embeddings chosen)

/-- What the loop knows after `n` vectors. -/
structure Tracks (embeddings : List Embedding) (n : Nat) (clusters : List Cluster) : Prop where
  partition : Partition n (clusters.map Cluster.memberIndices)
  sums : ∀ cluster ∈ clusters, cluster.sum = total (vectorsOf embeddings cluster.memberIndices)

namespace Tracks

variable {n : Nat} {clusters earlier later : List Cluster} {cluster grown : Cluster}
  {embedding : Embedding}

theorem centroid_eq (h : Tracks embeddings n clusters) (hcluster : cluster ∈ clusters) :
    cluster.centroid = centroidOf embeddings cluster.memberIndices := by
  unfold Cluster.centroid centroidOf
  rw [h.sums cluster hcluster]

theorem vectorsOf_ne_nil (h : Tracks embeddings n clusters) (hn : n ≤ embeddings.length)
    (hcluster : cluster ∈ clusters) : vectorsOf embeddings cluster.memberIndices ≠ [] := by
  have hmembers := List.mem_map_of_mem (f := Cluster.memberIndices) hcluster
  refine KnowledgeGap.vectorsOf_ne_nil (h.partition.nonempty _ hmembers) fun i hi => ?_
  have hlt := h.partition.lt hmembers hi
  omega

theorem length_sum (h : Tracks embeddings n clusters) (hn : n ≤ embeddings.length)
    (width : ∀ a ∈ embeddings, ∀ b ∈ embeddings, a.length = b.length)
    (hembedding : embedding ∈ embeddings) (hcluster : cluster ∈ clusters) :
    cluster.sum.length = embedding.length := by
  rw [h.sums cluster hcluster]
  exact length_total (h.vectorsOf_ne_nil hn hcluster) fun vector hvector =>
    width vector (mem_of_mem_vectorsOf hvector) embedding hembedding

theorem alone (h : Tracks embeddings n clusters) (hitem : embeddings[n]? = some embedding) :
    Tracks embeddings (n + 1) (clusters ++ [Cluster.init n embedding]) where
  partition := by
    rw [List.map_append]
    exact h.partition.alone
  sums := by
    intro cluster hcluster
    rcases List.mem_append.mp hcluster with hold | hnew
    · exact h.sums cluster hold
    · rw [List.mem_singleton.mp hnew]
      simp [Cluster.init, vectorsOf, hitem, total]

theorem join (h : Tracks embeddings n (earlier ++ cluster :: later))
    (hitem : embeddings[n]? = some embedding) (hgrown : cluster.add n embedding = .ok grown) :
    Tracks embeddings (n + 1) (earlier ++ grown :: later) := by
  have hn : n < embeddings.length := (List.getElem?_eq_some_iff.mp hitem).1
  have hcluster : cluster ∈ earlier ++ cluster :: later := by simp
  have hvectors := h.vectorsOf_ne_nil (by omega) hcluster
  have hsum := h.sums cluster hcluster
  unfold Cluster.add at hgrown
  split at hgrown
  case isTrue => cases hgrown
  case isFalse =>
    obtain rfl := Except.ok.inj hgrown
    refine ⟨?_, ?_⟩
    · have hold := h.partition
      simp only [List.map_append, List.map_cons] at hold ⊢
      exact hold.join
    · intro other hother
      rcases List.mem_append.mp hother with hmem | hmem
      · exact h.sums other (List.mem_append_left _ hmem)
      · rcases List.mem_cons.mp hmem with rfl | hmem
        · rw [vectorsOf_concat hitem, total_concat hvectors, hsum]
        · exact h.sums other (List.mem_append_right _ (List.mem_cons_of_mem _ hmem))

end Tracks

variable {similarityThreshold : Rat} {n : Nat} {clusters : List Cluster} {embedding : Embedding}

theorem closest_total {α : Type} (similarity : α → Except Exn RootQuotient) {as : List α}
    (h : ∀ a ∈ as, ∃ found, similarity a = .ok found) (start : Option α × RootQuotient) :
    ∃ best, closest similarity as start = .ok best := by
  induction as generalizing start with
  | nil => exact ⟨start, rfl⟩
  | cons a as ih =>
    obtain ⟨found, hfound⟩ := h a List.mem_cons_self
    obtain ⟨best, hbest⟩ := ih (fun b hb => h b (List.mem_cons_of_mem _ hb))
      (if start.2 < found then (some a, found) else start)
    exact ⟨best, Query.bind_ok.mpr ⟨found, hfound, hbest⟩⟩

/-- An entry of the scan stands at its own position. -/
theorem zipIdx_split {α : Type} {as : List α} {earlier later : List (α × Nat)} {a : α}
    {position : Nat} (h : as.zipIdx = earlier ++ (a, position) :: later) :
    as = earlier.map Prod.fst ++ a :: later.map Prod.fst ∧
      position = (earlier.map Prod.fst).length := by
  obtain ⟨front, back, rfl, hfront, hback⟩ := List.zipIdx_eq_append_iff.mp h
  obtain ⟨b, rest, hrest, hb, hlater⟩ := List.zipIdx_eq_cons_iff.mp hback.symm
  obtain ⟨rfl, rfl⟩ := Prod.mk.inj hb
  rw [hfront, hlater, hrest, List.zipIdx_map_fst, List.zipIdx_map_fst]
  exact ⟨rfl, by omega⟩

theorem gather_append (front back : List (Embedding × Nat)) (clusters : List Cluster) :
    gather similarityThreshold (front ++ back) clusters =
      (gather similarityThreshold front clusters).bind (gather similarityThreshold back) := by
  induction front generalizing clusters with
  | nil => rfl
  | cons entry front ih =>
    obtain ⟨embedding, index⟩ := entry
    show (do
      let best ← closest (fun entry : Cluster × Nat =>
        cosineSimilarity embedding entry.1.centroid) clusters.zipIdx noneYet
      let clusters ← assign similarityThreshold clusters index embedding best
      gather similarityThreshold (front ++ back) clusters) = Except.bind (do
      let best ← closest (fun entry : Cluster × Nat =>
        cosineSimilarity embedding entry.1.centroid) clusters.zipIdx noneYet
      let clusters ← assign similarityThreshold clusters index embedding best
      gather similarityThreshold front clusters) _
    cases closest (fun entry : Cluster × Nat => cosineSimilarity embedding entry.1.centroid)
        clusters.zipIdx noneYet with
    | error raised => rfl
    | ok best =>
      show (assign similarityThreshold clusters index embedding best).bind _ =
        ((assign similarityThreshold clusters index embedding best).bind _).bind _
      cases assign similarityThreshold clusters index embedding best with
      | error raised => rfl
      | ok grown => exact ih grown

theorem add_ok (index : Nat) {cluster : Cluster} (h : cluster.sum.length = embedding.length) :
    ∃ grown, cluster.add index embedding = .ok grown ∧
      grown.memberIndices = cluster.memberIndices ++ [index] := by
  unfold Cluster.add
  rw [if_neg (not_not.mpr h)]
  exact ⟨_, rfl, rfl⟩

theorem assign_chosen (clusters : List Cluster) (index : Nat) (embedding : Embedding)
    (cluster : Cluster) (position : Nat) (similarity : RootQuotient) :
    assign similarityThreshold clusters index embedding (some (cluster, position), similarity) =
      if .ofRat similarityThreshold ≤ similarity then
        (cluster.add index embedding).map fun grown => clusters.set position grown
      else .ok (clusters ++ [Cluster.init index embedding]) := rfl

/-- What the scan of the clusters finds. -/
theorem scan_spec (h : Tracks embeddings n clusters)
    (hlength : ∀ cluster ∈ clusters, cluster.sum.length = embedding.length) :
    ∃ best, closest (fun entry : Cluster × Nat => cosineSimilarity embedding entry.1.centroid)
        clusters.zipIdx noneYet = .ok best ∧
      (∀ cluster ∈ clusters,
        cosine embedding (centroidOf embeddings cluster.memberIndices) ≤ best.2.value) ∧
      (best = noneYet ∨ ∃ earlier cluster later, clusters = earlier ++ cluster :: later ∧
        best.1 = some (cluster, earlier.length) ∧
        best.2.value = cosine embedding (centroidOf embeddings cluster.memberIndices) ∧
        -1 < best.2.value ∧ ∀ other ∈ earlier,
          cosine embedding (centroidOf embeddings other.memberIndices) < best.2.value) := by
  have hsimilarity : ∀ entry ∈ clusters.zipIdx, ∃ found,
      cosineSimilarity embedding entry.1.centroid = .ok found ∧
        found.value = cosine embedding (centroidOf embeddings entry.1.memberIndices) := by
    intro entry hentry
    have hcluster := List.fst_mem_of_mem_zipIdx hentry
    rw [← h.centroid_eq hcluster]
    refine cosineSimilarity_cosine ?_
    unfold Cluster.centroid
    rw [List.length_map, hlength _ hcluster]
  obtain ⟨best, hbest⟩ := closest_total
    (fun entry : Cluster × Nat => cosineSimilarity embedding entry.1.centroid)
    (fun entry hentry => (hsimilarity entry hentry).imp fun _ hfound => hfound.1) noneYet
  have hvalue {entry : Cluster × Nat} (hentry : entry ∈ clusters.zipIdx) {found : RootQuotient}
      (hfound : cosineSimilarity embedding entry.1.centroid = .ok found) :
      found.value = cosine embedding (centroidOf embeddings entry.1.memberIndices) := by
    obtain ⟨found', hfound', hvalue⟩ := hsimilarity entry hentry
    obtain rfl : found = found' := Except.ok.inj (hfound.symm.trans hfound')
    exact hvalue
  refine ⟨best, hbest, ?_, ?_⟩
  · intro cluster hcluster
    rw [← List.zipIdx_map_fst 0 clusters] at hcluster
    obtain ⟨entry, hentry, rfl⟩ := List.mem_map.mp hcluster
    obtain ⟨found, hfound, hle⟩ := (closest_spec hbest).1 entry hentry
    rw [← hvalue hentry hfound]
    exact RootQuotient.le_iff_value_le.mp hle
  · rcases closest_first hbest with hnone | ⟨before, ⟨cluster, position⟩, after, hzip, hsome,
      hsimilar, hrise, hbefore⟩
    · exact .inl hnone
    · obtain ⟨hclusters, hposition⟩ := zipIdx_split hzip
      have hentry : (cluster, position) ∈ clusters.zipIdx := by rw [hzip]; simp
      have hlow : -1 < best.2.value := by
        simpa [noneYet] using RootQuotient.lt_iff_value_lt.mp hrise
      refine .inr ⟨_, cluster, _, hclusters, ?_, hvalue hentry hsimilar, hlow, ?_⟩
      · rw [hsome, hposition]
      · intro other hother
        obtain ⟨entry, hmem, rfl⟩ := List.mem_map.mp hother
        obtain ⟨found, hfound, hlt⟩ := hbefore entry hmem
        rw [← hvalue (by rw [hzip]; simp [hmem]) hfound]
        exact RootQuotient.lt_iff_value_lt.mp hlt

/-- One turn: the vector is placed, and the loop knows as much of one vector more. -/
theorem gather_turn (similarityThreshold : Rat) (h : Tracks embeddings n clusters)
    (width : ∀ a ∈ embeddings, ∀ b ∈ embeddings, a.length = b.length)
    (hitem : embeddings[n]? = some embedding) :
    ∃ grown, gather similarityThreshold [(embedding, n)] clusters = .ok grown ∧
      Tracks embeddings (n + 1) grown ∧
      Turn similarityThreshold embeddings (clusters.map Cluster.memberIndices) n embedding
        (grown.map Cluster.memberIndices) := by
  have hn : n < embeddings.length := (List.getElem?_eq_some_iff.mp hitem).1
  have hlength : ∀ cluster ∈ clusters, cluster.sum.length = embedding.length :=
    fun cluster hcluster =>
      h.length_sum (by omega) width (List.mem_of_getElem? hitem) hcluster
  obtain ⟨best, hbest, hbound, hchosen⟩ := scan_spec h hlength
  have hrun (grown : List Cluster)
      (hassign : assign similarityThreshold clusters n embedding best = .ok grown) :
      gather similarityThreshold [(embedding, n)] clusters = .ok grown :=
    Query.bind_ok.mpr ⟨best, hbest, Query.bind_ok.mpr ⟨grown, hassign, rfl⟩⟩
  have halone (hlow : ∀ cluster ∈ clusters,
      cosine embedding (centroidOf embeddings cluster.memberIndices) < similarityThreshold ∨
        cosine embedding (centroidOf embeddings cluster.memberIndices) = -1) :
      Turn similarityThreshold embeddings (clusters.map Cluster.memberIndices) n embedding
        ((clusters ++ [Cluster.init n embedding]).map Cluster.memberIndices) := by
    refine .inl ⟨by simp [Cluster.init], ?_⟩
    intro members hmembers
    obtain ⟨cluster, hcluster, rfl⟩ := List.mem_map.mp hmembers
    exact hlow cluster hcluster
  rcases hchosen with rfl | ⟨earlier, cluster, later, rfl, hsome, hvalue, hlow, hearlier⟩
  · -- Nothing beats the similarity -1.
    refine ⟨_, hrun _ rfl, h.alone hitem, halone fun cluster hcluster => .inr ?_⟩
    have hle := hbound cluster hcluster
    have hlow : (noneYet (α := Cluster × Nat)).2.value = -1 := by simp [noneYet]
    rw [hlow] at hle
    exact le_antisymm hle (neg_one_le_cosine _ _)
  · obtain ⟨chosen, similarity⟩ := best
    obtain rfl : chosen = some (cluster, earlier.length) := hsome
    rw [assign_chosen] at hrun
    by_cases hclear : .ofRat similarityThreshold ≤ similarity
    · obtain ⟨grown, hgrown, hmembers⟩ := add_ok n (hlength cluster (by simp))
      rw [if_pos hclear, hgrown] at hrun
      have hset : (earlier ++ cluster :: later).set earlier.length grown =
          earlier ++ grown :: later := by simp
      refine ⟨_, hrun _ (congrArg Except.ok hset), h.join hitem hgrown, .inr ⟨
        earlier.map Cluster.memberIndices, cluster.memberIndices,
        later.map Cluster.memberIndices, by simp, by simp [hmembers], ?_⟩⟩
      rw [RootQuotient.le_iff_value_le, RootQuotient.value_ofRat] at hclear
      rw [← hvalue]
      refine ⟨hclear, hlow, ?_, ?_⟩
      · intro members hmem
        obtain ⟨other, hother, rfl⟩ := List.mem_map.mp hmem
        exact hearlier other hother
      · intro members hmem
        obtain ⟨other, hother, rfl⟩ := List.mem_map.mp hmem
        exact hbound other (List.mem_append_right _ (List.mem_cons_of_mem _ hother))
    · rw [if_neg hclear] at hrun
      refine ⟨_, hrun _ rfl, h.alone hitem, halone fun other hother => .inl ?_⟩
      rw [RootQuotient.le_iff_value_le, RootQuotient.value_ofRat, not_le] at hclear
      exact lt_of_le_of_lt (hbound other hother) hclear

/-! ## Whole runs -/

theorem zipIdx_take_succ {n : Nat} (hitem : embeddings[n]? = some embedding) :
    (embeddings.take (n + 1)).zipIdx = (embeddings.take n).zipIdx ++ [(embedding, n)] := by
  have hn : n < embeddings.length := (List.getElem?_eq_some_iff.mp hitem).1
  rw [List.take_add_one, hitem, List.zipIdx_append, List.length_take, Nat.min_eq_left (by omega)]
  simp

theorem gather_tracks (similarityThreshold : Rat)
    (width : ∀ a ∈ embeddings, ∀ b ∈ embeddings, a.length = b.length)
    (hn : n ≤ embeddings.length) :
    ∃ clusters, gather similarityThreshold (embeddings.take n).zipIdx [] = .ok clusters ∧
      Tracks embeddings n clusters := by
  induction n with
  | zero => exact ⟨[], rfl, ⟨.zero, by simp⟩⟩
  | succ n ih =>
    obtain ⟨clusters, hclusters, htracks⟩ := ih (by omega)
    have hitem : embeddings[n]? = some embeddings[n] := List.getElem?_eq_getElem hn
    obtain ⟨grown, hgrown, htracks', -⟩ :=
      gather_turn similarityThreshold htracks width hitem
    refine ⟨grown, ?_, htracks'⟩
    rw [zipIdx_take_succ hitem, gather_append, hclusters]
    exact hgrown

/-- The results on two successive beginnings. -/
theorem clusterBySimilarity_turn (similarityThreshold : Rat)
    (width : ∀ a ∈ embeddings, ∀ b ∈ embeddings, a.length = b.length)
    (hitem : embeddings[n]? = some embedding) :
    ∃ before after, clusterBySimilarity similarityThreshold (embeddings.take n) = .ok before ∧
      clusterBySimilarity similarityThreshold (embeddings.take (n + 1)) = .ok after ∧
      Partition n before ∧ Partition (n + 1) after ∧
      Turn similarityThreshold embeddings before n embedding after := by
  have hn : n < embeddings.length := (List.getElem?_eq_some_iff.mp hitem).1
  obtain ⟨clusters, hclusters, htracks⟩ :=
    gather_tracks similarityThreshold width hn.le
  obtain ⟨grown, hgrown, htracks', hturn⟩ :=
    gather_turn similarityThreshold htracks width hitem
  refine ⟨_, _, ?_, ?_, htracks.partition, htracks'.partition, hturn⟩
  · unfold clusterBySimilarity
    rw [hclusters]
    rfl
  · unfold clusterBySimilarity
    rw [zipIdx_take_succ hitem, gather_append, hclusters]
    show (gather similarityThreshold [(embedding, n)] clusters).map _ = _
    rw [hgrown]
    rfl

theorem Turn.restricted {before after : List (List Nat)} {index : Nat}
    (h : Turn similarityThreshold embeddings before index embedding after)
    (hpartition : Partition index before) : KnowledgeGap.restricted index after = before := by
  rcases h with ⟨rfl, -⟩ | ⟨earlier, chosen, later, rfl, rfl, -⟩
  · exact hpartition.restricted_alone
  · exact hpartition.restricted_join

/-- The loop places a vector rightly unless the threshold admits the similarity -1 and every
cluster it meets has just that. -/
theorem Turn.placed {before after : List (List Nat)} {index : Nat}
    (h : Turn similarityThreshold embeddings before index embedding after)
    (hmeets : -1 < similarityThreshold ∨ before = [] ∨
      ∃ members ∈ before, cosine embedding (centroidOf embeddings members) ≠ -1) :
    Placed similarityThreshold embeddings before index embedding after := by
  rcases h with ⟨hafter, hlow⟩ | ⟨earlier, chosen, later, hbefore, hafter, hclear, -, hbest⟩
  · refine ⟨fun _ => hafter, ?_⟩
    rintro ⟨members, hmembers, hclear⟩
    exfalso
    have hthreshold : (similarityThreshold : ℝ) ≤ -1 := by
      rcases hlow members hmembers with hlt | heq
      · linarith
      · linarith
    rcases hmeets with hhigh | rfl | ⟨other, hother, hne⟩
    · have hhigh' : (-1 : ℝ) < similarityThreshold := by exact_mod_cast hhigh
      linarith
    · simp at hmembers
    · rcases hlow other hother with hlt | heq
      · have hge := neg_one_le_cosine embedding (centroidOf embeddings other)
        linarith
      · exact hne heq
  · refine ⟨fun hall => ?_, fun _ => ⟨earlier, chosen, later, hbefore, hafter, hbest⟩⟩
    have hlt := hall chosen (by rw [hbefore]; simp)
    linarith

/-- The vector at `index` was put where it belongs. -/
def PlacedAt (similarityThreshold : Rat) (embeddings : List Embedding) (index : Nat) : Prop :=
  ∀ embedding, embeddings[index]? = some embedding → ∃ before after,
    clusterBySimilarity similarityThreshold (embeddings.take index) = .ok before ∧
      clusterBySimilarity similarityThreshold (embeddings.take (index + 1)) = .ok after ∧
      Placed similarityThreshold embeddings before index embedding after

/-- Whatever has been clustered, the result is a partition of it, the results on its
beginnings are what the result restricts to, and each vector is where it belongs. -/
structure OrderStable (similarityThreshold : Rat) (embeddings : List Embedding) : Prop where
  partition : ∃ clusters, clusterBySimilarity similarityThreshold embeddings = .ok clusters ∧
    Partition embeddings.length clusters
  stable : ∀ n, clusterBySimilarity similarityThreshold (embeddings.take n) =
    (clusterBySimilarity similarityThreshold embeddings).map (restricted n)
  placed : ∀ index, PlacedAt similarityThreshold embeddings index

/-- The result on the first `n` vectors. -/
theorem clusterBySimilarity_partition (similarityThreshold : Rat)
    (width : ∀ a ∈ embeddings, ∀ b ∈ embeddings, a.length = b.length)
    (hn : n ≤ embeddings.length) :
    ∃ clusters, clusterBySimilarity similarityThreshold (embeddings.take n) = .ok clusters ∧
      Partition n clusters := by
  obtain ⟨clusters, hclusters, htracks⟩ :=
    gather_tracks similarityThreshold width hn
  refine ⟨_, ?_, htracks.partition⟩
  unfold clusterBySimilarity
  rw [hclusters]
  rfl

theorem clusterBySimilarity_stable (similarityThreshold : Rat)
    (width : ∀ a ∈ embeddings, ∀ b ∈ embeddings, a.length = b.length) {k : Nat}
    (hk : n + k ≤ embeddings.length) :
    clusterBySimilarity similarityThreshold (embeddings.take n) =
      (clusterBySimilarity similarityThreshold (embeddings.take (n + k))).map (restricted n) := by
  induction k with
  | zero =>
    obtain ⟨clusters, hclusters, hpartition⟩ :=
      clusterBySimilarity_partition similarityThreshold width
        (n := n) (by omega)
    rw [Nat.add_zero, hclusters]
    exact congrArg Except.ok hpartition.restricted_eq.symm
  | succ k ih =>
    have hitem : embeddings[n + k]? = some embeddings[n + k] := List.getElem?_eq_getElem hk
    obtain ⟨before, after, hbefore, hafter, hpartition, -, hturn⟩ :=
      clusterBySimilarity_turn similarityThreshold width hitem
    rw [ih (by omega), hbefore, ← Nat.add_assoc, hafter]
    refine congrArg Except.ok ?_
    rw [← hturn.restricted hpartition, restricted_restricted (by omega)]

/-- Under a threshold that admits every similarity, a rightly placed vector joins the one
cluster there is. -/
theorem placed_all (hlow : similarityThreshold ≤ -1) {before after : List (List Nat)}
    (h : Placed similarityThreshold embeddings before n embedding after)
    (hbefore : before = if n = 0 then [] else [List.range n]) : after = [List.range (n + 1)] := by
  by_cases hn : n = 0
  · rw [if_pos hn] at hbefore
    have hafter := h.alone (by rw [hbefore]; simp)
    rw [hafter, hbefore, hn]
    rfl
  · rw [if_neg hn] at hbefore
    have hadmits : (similarityThreshold : ℝ) ≤
        cosine embedding (centroidOf embeddings (List.range n)) := by
      have hge := neg_one_le_cosine embedding (centroidOf embeddings (List.range n))
      have hlow' : (similarityThreshold : ℝ) ≤ -1 := by exact_mod_cast hlow
      linarith
    obtain ⟨earlier, chosen, later, hsplit, hafter, -⟩ :=
      h.joins ⟨List.range n, by rw [hbefore]; simp, hadmits⟩
    rw [hbefore] at hsplit
    obtain ⟨rfl, rfl, rfl⟩ : earlier = [] ∧ chosen = List.range n ∧ later = [] := by
      cases earlier with
      | nil => exact ⟨rfl, (List.cons.inj hsplit).1.symm, (List.cons.inj hsplit).2.symm⟩
      | cons => simp at hsplit
    rw [hafter, List.range_succ]
    rfl

theorem cosine_range {n : Nat} (hn : n ≤ embeddings.length) (hpos : 0 < n)
    (embedding : Embedding) : cosine embedding (centroidOf embeddings (List.range n)) =
      cosine embedding (total (embeddings.take n)) := by
  unfold centroidOf
  rw [vectorsOf_range hn, List.length_range]
  exact cosine_div_right _ _ hpos

/-- A single cluster is met by a vector that does not point exactly against it. -/
theorem meets_single {before : List (List Nat)} (hn : n ≤ embeddings.length)
    (hbefore : before = if n = 0 then [] else [List.range n])
    (hagainst : cosine embedding (total (embeddings.take n)) ≠ -1) :
    before = [] ∨ ∃ members ∈ before, cosine embedding (centroidOf embeddings members) ≠ -1 := by
  by_cases hzero : n = 0
  · rw [if_pos hzero] at hbefore
    exact .inl hbefore
  · rw [if_neg hzero] at hbefore
    refine .inr ⟨List.range n, by rw [hbefore]; simp, ?_⟩
    rw [cosine_range hn (by omega)]
    exact hagainst

theorem single_of_placed (hlow : similarityThreshold ≤ -1) (hn : n ≤ embeddings.length)
    (h : ∀ index < n, PlacedAt similarityThreshold embeddings index) :
    clusterBySimilarity similarityThreshold (embeddings.take n) =
      .ok (if n = 0 then [] else [List.range n]) := by
  induction n with
  | zero => rfl
  | succ n ih =>
    have hitem : embeddings[n]? = some embeddings[n] := List.getElem?_eq_getElem hn
    obtain ⟨before, after, hbefore, hafter, hplaced⟩ := h n (by omega) _ hitem
    have hsingle := ih (by omega) fun index hindex => h index (by omega)
    have heq := placed_all hlow hplaced (Except.ok.inj (hbefore.symm.trans hsingle))
    rw [hafter, heq, if_neg (by omega)]

theorem placed_of_against (width : ∀ a ∈ embeddings, ∀ b ∈ embeddings, a.length = b.length)
    (hcondition : -1 < similarityThreshold ∨ ∀ index embedding,
      embeddings[index]? = some embedding →
        cosine embedding (total (embeddings.take index)) ≠ -1) (index : Nat) :
    PlacedAt similarityThreshold embeddings index := by
  induction index using Nat.strong_induction_on with
  | _ index ih =>
    intro embedding hitem
    have hindex : index < embeddings.length := (List.getElem?_eq_some_iff.mp hitem).1
    obtain ⟨before, after, hbefore, hafter, -, -, hturn⟩ :=
      clusterBySimilarity_turn similarityThreshold width hitem
    refine ⟨before, after, hbefore, hafter, hturn.placed ?_⟩
    by_cases hhigh : -1 < similarityThreshold
    · exact .inl hhigh
    · have hagainst := (hcondition.resolve_left hhigh) index embedding hitem
      have hsingle := single_of_placed (not_lt.mp hhigh) hindex.le ih
      exact .inr (meets_single hindex.le (Except.ok.inj (hbefore.symm.trans hsingle)) hagainst)

/-- A vector that points against every vector before it is not put where it belongs. -/
theorem against_not_placed (width : ∀ a ∈ embeddings, ∀ b ∈ embeddings, a.length = b.length)
    (hlow : similarityThreshold ≤ -1) {index : Nat}
    (hitem : embeddings[index]? = some embedding)
    (hagainst : cosine embedding (total (embeddings.take index)) = -1) :
    ∃ index, ¬ PlacedAt similarityThreshold embeddings index := by
  by_contra hnone
  have hall : ∀ index, PlacedAt similarityThreshold embeddings index :=
    fun index => not_not.mp fun hnot => hnone ⟨index, hnot⟩
  have hindex : index < embeddings.length := (List.getElem?_eq_some_iff.mp hitem).1
  have hpos : 0 < index := by
    by_contra hzero
    obtain rfl : index = 0 := by omega
    have hnothing : cosine embedding (total (embeddings.take 0)) = 0 := by
      simp [cosine, total, dot]
    rw [hnothing] at hagainst
    norm_num at hagainst
  have hbefore := single_of_placed hlow hindex.le fun index _ => hall index
  have hafter := single_of_placed hlow hindex fun index _ => hall index
  obtain ⟨before, after, hbefore', hafter', -, -, hturn⟩ :=
    clusterBySimilarity_turn similarityThreshold width hitem
  rw [if_neg (by omega)] at hbefore hafter
  obtain rfl := Except.ok.inj (hbefore'.symm.trans hbefore)
  obtain rfl := Except.ok.inj (hafter'.symm.trans hafter)
  rcases hturn with ⟨halone, -⟩ | ⟨earlier, chosen, later, hsplit, -, -, hbeats, -⟩
  · have hlength := congrArg List.length halone
    simp at hlength
  · have hchosen : chosen ∈ [List.range index] := by rw [hsplit]; simp
    rw [List.mem_singleton.mp hchosen, cosine_range hindex.le hpos, hagainst] at hbeats
    exact lt_irrefl _ hbeats

/-- Clustering is an order-stable partition that puts every vector where it belongs, exactly
when the threshold is above -1 or no vector points against the sum of all before it. -/
theorem cluster_order_stable (similarityThreshold : Rat) (embeddings : List Embedding)
    (width : ∀ a ∈ embeddings, ∀ b ∈ embeddings, a.length = b.length) :
    OrderStable similarityThreshold embeddings ↔
      -1 < similarityThreshold ∨ ∀ index embedding, embeddings[index]? = some embedding →
        cosine embedding (total (embeddings.take index)) ≠ -1 := by
  constructor
  · intro h
    by_cases hhigh : -1 < similarityThreshold
    · exact .inl hhigh
    · right
      intro index embedding hitem hagainst
      obtain ⟨index', hnot⟩ := against_not_placed width (not_lt.mp hhigh) hitem hagainst
      exact hnot (h.placed index')
  · intro hcondition
    have hwhole := clusterBySimilarity_partition
      similarityThreshold width (le_refl embeddings.length)
    rw [List.take_length] at hwhole
    refine ⟨hwhole, ?_, placed_of_against width hcondition⟩
    intro n
    by_cases hn : n ≤ embeddings.length
    · obtain ⟨k, hk⟩ := Nat.exists_eq_add_of_le hn
      have hstable := clusterBySimilarity_stable similarityThreshold
        width hk.ge
      rwa [← hk, List.take_length] at hstable
    · -- Nothing is left out.
      obtain ⟨clusters, hclusters, hpartition⟩ := hwhole
      rw [List.take_of_length_le (by omega), hclusters]
      refine congrArg Except.ok ?_
      have hsame : restricted n clusters = restricted embeddings.length clusters := by
        unfold restricted
        refine congrArg (List.filter _) (List.map_congr_left fun members hmembers => ?_)
        refine List.filter_congr fun i hi => decide_eq_decide.mpr ?_
        have hlt := hpartition.lt hmembers hi
        omega
      rw [hsame, hpartition.restricted_eq]

theorem cluster_order_stable_default :
    (∀ a ∈ [[1, 0], [0, 1], [1, 1]], ∀ b ∈ [[1, 0], [0, 1], [(1 : Rat), 1]],
        a.length = b.length) ∧
      OrderStable (82 / 100) [[1, 0], [0, 1], [1, 1]] :=
  ⟨by decide, (cluster_order_stable (82 / 100) _ (by decide)).mpr (.inl (by norm_num))⟩

/-- Two opposite vectors have the similarity -1, which the threshold -1 admits. -/
theorem opposite_not_joined :
    clusterBySimilarity (-1) [[1, 0], [-1, 0]] = .ok [[0], [1]] ∧
      (-1 : ℝ) ≤ cosine [-1, 0] (centroidOf [[1, 0], [-1, 0]] [0]) ∧
      ¬ OrderStable (-1) [[1, 0], [-1, 0]] := by
  have hwhole : clusterBySimilarity (-1) [[1, 0], [-1, 0]] = .ok [[0], [1]] := by decide +kernel
  have hfirst : clusterBySimilarity (-1) [[1, 0]] = .ok [[0]] := by decide +kernel
  have hadmits := neg_one_le_cosine [-1, 0] (centroidOf [[1, 0], [-1, 0]] [0])
  refine ⟨hwhole, hadmits, fun h => ?_⟩
  obtain ⟨before, after, hbefore, hafter, hplaced⟩ := h.placed 1 [-1, 0] rfl
  obtain rfl : before = [[0]] := Except.ok.inj (hbefore.symm.trans hfirst)
  obtain rfl : after = [[0], [1]] := Except.ok.inj (hafter.symm.trans hwhole)
  obtain ⟨earlier, chosen, later, hsplit, hgrown, -⟩ :=
    hplaced.joins ⟨[0], by simp, by simpa using hadmits⟩
  have hbeforeLength := congrArg List.length hsplit
  have hafterLength := congrArg List.length hgrown
  simp only [List.length_append, List.length_cons, List.length_nil] at hbeforeLength hafterLength
  omega

end Ekip.Agents.KnowledgeGap
