import Mathlib.Tactic.Ring
import Mathlib.Tactic.FieldSimp
import Ekip.Agents.KnowledgeGap.Pipeline

/-!
# The centroids that are reported

The average of a cluster's members is the centroid that the clustering kept of it. Under a
positive threshold every member that joined points the way of the sum, so that the sum of
two or more members is never the zero vector.
-/
namespace Ekip.Agents.KnowledgeGap

open Ekip.Lib Ekip.Database

/-! ## Products -/

theorem dot_add_right (e : Embedding) {s t : Embedding} (h : s.length = t.length) :
    dot e (List.zipWith (· + ·) s t) = dot e s + dot e t := by
  unfold dot
  induction e generalizing s t with
  | nil => simp
  | cons x e ih =>
    cases s with
    | nil =>
      cases t with
      | nil => simp
      | cons => simp at h
    | cons y s =>
      cases t with
      | nil => simp at h
      | cons z t =>
        have htail := ih (Nat.succ.inj h)
        simp only [List.zipWith_cons_cons, List.sum_cons, htail]
        ring

theorem dot_comm (a b : Embedding) : dot a b = dot b a := by
  unfold dot
  rw [List.zipWith_comm]
  simp only [mul_comm]

theorem dot_div_right (e s : Embedding) (n : Rat) :
    dot e (s.map fun value => value / n) = dot e s / n := by
  unfold dot
  induction e generalizing s with
  | nil => simp
  | cons x e ih =>
    cases s with
    | nil => simp
    | cons y s =>
      simp only [List.map_cons, List.zipWith_cons_cons, List.sum_cons, ih]
      ring

theorem dot_div_self (s : Embedding) (n : Rat) :
    dot (s.map fun value => value / n) (s.map fun value => value / n) = dot s s / n / n := by
  rw [dot_div_right, dot_comm, dot_div_right]

/-- A vector without length is orthogonal to all. -/
theorem dot_eq_zero {x : Embedding} (h : dot x x = 0) (y : Embedding) : dot y x = 0 := by
  induction x generalizing y with
  | nil => simp [dot]
  | cons a x ih =>
    have hsum : a * a + dot x x = 0 := h
    have htail : 0 ≤ dot x x := dot_self_nonneg x
    have hhead : 0 ≤ a * a := mul_self_nonneg a
    have ha : a = 0 := mul_self_eq_zero.mp (by linarith)
    have hx : dot x x = 0 := by linarith
    cases y with
    | nil => simp [dot]
    | cons b y =>
      show b * a + dot y x = 0
      rw [ha, ih hx y]
      ring

/-- What clears a positive bar points the same way. -/
theorem dot_pos_of_similar {a b : Embedding} {found : RootQuotient} {bar : Rat} (hbar : 0 < bar)
    (h : cosineSimilarity a b = .ok found) (hclear : .ofRat bar ≤ found) : 0 < dot a b := by
  rw [RootQuotient.le_def] at hclear
  have hpos : 0 < (RootQuotient.ofRat bar).signedSquare := by
    show 0 < bar * |bar| / 1
    rw [abs_of_pos hbar, div_one]
    exact mul_pos hbar hbar
  have hfound : 0 < found.signedSquare := lt_of_lt_of_le hpos hclear
  unfold cosineSimilarity at h
  split at h
  case isTrue => cases h
  case isFalse =>
    split at h
    case isTrue =>
      obtain rfl := Except.ok.inj h
      simp [RootQuotient.signedSquare, RootQuotient.ofRat] at hfound
    case isFalse =>
      obtain rfl := Except.ok.inj h
      by_contra hneg
      have hle : dot a b ≤ 0 := not_lt.mp hneg
      have hlow : dot a b * |dot a b| ≤ 0 := mul_nonpos_of_nonpos_of_nonneg hle (abs_nonneg _)
      have hsquare : 0 ≤ dot a a * dot b b := mul_nonneg (dot_self_nonneg a) (dot_self_nonneg b)
      exact absurd hfound (not_lt.mpr (div_nonpos_of_nonpos_of_nonneg hlow hsquare))

/-! ## Averages -/

theorem mapM_of_forall {ε α β : Type} {f : α → Except ε β} {g : α → β} {l : List α}
    (h : ∀ a ∈ l, f a = .ok (g a)) : l.mapM f = .ok (l.map g) := by
  induction l with
  | nil => rfl
  | cons a l ih =>
    rw [List.mapM_cons, h a List.mem_cons_self, ih fun b hb => h b (List.mem_cons_of_mem _ hb)]
    rfl

theorem item_ok {α : Type} {items : List α} {i : Nat} {a : α} :
    item items i = .ok a ↔ items[i]? = some a := by
  unfold item
  cases items[i]? <;> simp

/-- `sum` is the sum of the vectors, component by component. -/
structure Totals (vectors : List Embedding) (sum : Embedding) : Prop where
  lengths : ∀ vector ∈ vectors, vector.length = sum.length
  components : ∀ d, (vectors.map fun vector => vector.getD d 0).sum = sum.getD d 0

namespace Totals

variable {vectors : List Embedding} {sum vector : Embedding}

theorem single (vector : Embedding) : Totals [vector] vector where
  lengths := by simp
  components := by simp

theorem add (h : Totals vectors sum) (hlength : sum.length = vector.length) :
    Totals (vectors ++ [vector]) (List.zipWith (· + ·) sum vector) where
  lengths := by
    intro v hv
    rw [List.length_zipWith, hlength, Nat.min_self]
    rcases List.mem_append.mp hv with hv | hv
    · exact (h.lengths v hv).trans hlength
    · rw [List.mem_singleton.mp hv]
  components := by
    intro d
    rw [List.map_append, List.sum_append, h.components d]
    by_cases hd : d < sum.length
    · have hd' : d < vector.length := hlength ▸ hd
      simp [List.getD, hd, hd']
    · have hd' : ¬ d < vector.length := hlength ▸ hd
      simp [List.getD, hd, hd']

theorem average_eq (h : Totals vectors sum) (hne : vectors ≠ []) :
    average vectors = .ok (sum.map fun value => value / vectors.length) := by
  obtain ⟨first, rest, rfl⟩ := List.exists_cons_of_ne_nil hne
  have hfirst : item (first :: rest) 0 = .ok first := item_ok.mpr rfl
  have hlength : first.length = sum.length := h.lengths first List.mem_cons_self
  have hcolumn : ∀ d ∈ List.range first.length,
      (column (first :: rest) d).map (fun values => values.sum / ((first :: rest).length : Rat)) =
        .ok (sum.getD d 0 / (first :: rest).length) := by
    intro d hd
    have hvalues : column (first :: rest) d =
        .ok ((first :: rest).map fun vector => vector.getD d 0) := by
      refine mapM_of_forall fun vector hvector => item_ok.mpr ?_
      have hbound : d < vector.length := by
        rw [h.lengths vector hvector, ← hlength]
        exact List.mem_range.mp hd
      simp [List.getD, hbound]
    rw [hvalues, ← h.components d]
    rfl
  unfold average
  rw [hfirst]
  show (List.range first.length).mapM _ = _
  rw [mapM_of_forall hcolumn, hlength]
  refine congrArg Except.ok (List.ext_getElem (by simp) fun d hd _ => ?_)
  have hbound : d < sum.length := by simpa using hd
  simp [List.getD, hbound]

end Totals

/-! ## Clusters -/

/-- What a cluster keeps of the embeddings that it absorbed. -/
structure Gathered (embeddings : List Embedding) (cluster : Cluster) : Prop where
  totals : ∃ vectors, cluster.memberIndices.mapM (item embeddings) = .ok vectors ∧
    vectors.length = cluster.memberIndices.length ∧ Totals vectors cluster.sum
  nonempty : cluster.memberIndices ≠ []
  nonzero : 2 ≤ cluster.memberIndices.length → dot cluster.sum cluster.sum ≠ 0

variable {embeddings : List Embedding} {cluster : Cluster} {similarityThreshold : Rat}

theorem Gathered.average_eq (h : Gathered embeddings cluster) {vectors : List Embedding}
    (hvectors : cluster.memberIndices.mapM (item embeddings) = .ok vectors) :
    average vectors = .ok cluster.centroid := by
  obtain ⟨vectors', hvectors', hlength, htotals⟩ := h.totals
  obtain rfl : vectors = vectors' := Except.ok.inj (hvectors.symm.trans hvectors')
  have hne : vectors ≠ [] := by
    intro hnil
    rw [hnil] at hlength
    exact h.nonempty (List.length_eq_zero_iff.mp hlength.symm)
  rw [htotals.average_eq hne, hlength]
  rfl

theorem Gathered.centroid_nonzero (h : Gathered embeddings cluster)
    (htwo : 2 ≤ cluster.memberIndices.length) :
    dot cluster.centroid cluster.centroid ≠ 0 := by
  have hsize : (cluster.memberIndices.length : Rat) ≠ 0 := by
    have : cluster.memberIndices.length ≠ 0 := by omega
    exact_mod_cast this
  unfold Cluster.centroid
  rw [dot_div_self]
  exact div_ne_zero (div_ne_zero (h.nonzero htwo) hsize) hsize

theorem gathered_init {index : Nat} {embedding : Embedding}
    (hitem : embeddings[index]? = some embedding) :
    Gathered embeddings (Cluster.init index embedding) where
  totals := by
    refine ⟨[embedding], ?_, rfl, .single embedding⟩
    show [index].mapM (item embeddings) = _
    rw [List.mapM_cons, item_ok.mpr hitem]
    rfl
  nonempty := by simp [Cluster.init]
  nonzero := by simp [Cluster.init]

theorem gathered_add {index : Nat} {embedding : Embedding} {grown : Cluster}
    (h : Gathered embeddings cluster) (hitem : embeddings[index]? = some embedding)
    (hsame : 0 < dot embedding cluster.centroid)
    (hgrown : cluster.add index embedding = .ok grown) : Gathered embeddings grown := by
  unfold Cluster.add at hgrown
  split at hgrown
  case isTrue => cases hgrown
  case isFalse hlength =>
    have hlength : cluster.sum.length = embedding.length := not_not.mp hlength
    obtain rfl := Except.ok.inj hgrown
    obtain ⟨vectors, hvectors, hcount, htotals⟩ := h.totals
    refine ⟨⟨vectors ++ [embedding], ?_, by simp [hcount], htotals.add hlength⟩, by simp, ?_⟩
    · show (cluster.memberIndices ++ [index]).mapM (item embeddings) = _
      rw [List.mapM_append, hvectors, List.mapM_cons, item_ok.mpr hitem]
      rfl
    · intro _ hzero
      have hsum : 0 < dot embedding cluster.sum := by
        have hdiv : dot embedding cluster.centroid =
            dot embedding cluster.sum / cluster.memberIndices.length := dot_div_right _ _ _
        rw [hdiv] at hsame
        exact (div_pos_iff_of_pos_right (by
          have := List.length_pos_iff.mpr h.nonempty
          exact_mod_cast this)).mp hsame
      have hnone := dot_eq_zero hzero embedding
      rw [dot_add_right embedding hlength] at hnone
      have hself := dot_self_nonneg embedding
      linarith

theorem assign_gathered (hpos : 0 < similarityThreshold) {index : Nat} {embedding : Embedding}
    (hitem : embeddings[index]? = some embedding) {clusters found : List Cluster}
    (hclusters : ∀ cluster ∈ clusters, Gathered embeddings cluster)
    {best : Option (Cluster × Nat) × RootQuotient}
    (hbest : closest (fun entry : Cluster × Nat => cosineSimilarity embedding entry.1.centroid)
      clusters.zipIdx noneYet = .ok best)
    (h : assign similarityThreshold clusters index embedding best = .ok found) :
    ∀ cluster ∈ found, Gathered embeddings cluster := by
  have hnew : ∀ cluster ∈ clusters ++ [Cluster.init index embedding],
      Gathered embeddings cluster := by
    intro cluster hcluster
    rcases List.mem_append.mp hcluster with hcluster | hcluster
    · exact hclusters cluster hcluster
    · rw [List.mem_singleton.mp hcluster]
      exact gathered_init hitem
  obtain ⟨_, _, rfl | ⟨⟨cluster, position⟩, hmem, hsome, hsimilar⟩⟩ := closest_spec hbest
  · obtain rfl := Except.ok.inj h
    exact hnew
  · obtain ⟨chosen, similarity⟩ := best
    obtain rfl : chosen = some (cluster, position) := hsome
    have hcluster := hclusters cluster (List.fst_mem_of_mem_zipIdx hmem)
    unfold assign at h
    dsimp only at h
    by_cases hclear : .ofRat similarityThreshold ≤ similarity
    · rw [if_pos hclear] at h
      obtain ⟨grown, hgrown, rfl⟩ := Query.map_ok.mp h
      intro other hother
      rcases List.mem_or_eq_of_mem_set hother with hother | rfl
      · exact hclusters other hother
      · exact gathered_add hcluster hitem (dot_pos_of_similar hpos hsimilar hclear) hgrown
    · rw [if_neg hclear] at h
      obtain rfl := Except.ok.inj h
      exact hnew

theorem gather_gathered (hpos : 0 < similarityThreshold) {rest : List (Embedding × Nat)}
    (hitems : ∀ entry ∈ rest, embeddings[entry.2]? = some entry.1) {clusters found : List Cluster}
    (hclusters : ∀ cluster ∈ clusters, Gathered embeddings cluster)
    (h : gather similarityThreshold rest clusters = .ok found) :
    ∀ cluster ∈ found, Gathered embeddings cluster := by
  induction rest generalizing clusters with
  | nil =>
    obtain rfl := Except.ok.inj h
    exact hclusters
  | cons entry rest ih =>
    obtain ⟨embedding, index⟩ := entry
    unfold gather at h
    obtain ⟨best, hbest, hplaced⟩ := Query.bind_ok.mp h
    obtain ⟨grown, hassign, hnext⟩ := Query.bind_ok.mp hplaced
    have hgrown := assign_gathered hpos (hitems _ List.mem_cons_self) hclusters hbest hassign
    exact ih (fun entry hentry => hitems entry (List.mem_cons_of_mem _ hentry)) hgrown hnext

/-- Under a positive threshold no topic of two or more questions is the zero vector. -/
theorem topic_nonzero (hpos : 0 < similarityThreshold) {clusters : List (List Nat)}
    (h : clusterBySimilarity similarityThreshold embeddings = .ok clusters)
    {queryable : List (AgentExecutionRow × String)} {memberIndices : List Nat}
    (hmem : memberIndices ∈ clusters) (htwo : 2 ≤ memberIndices.length) {topic : Topic}
    (htopic : gatherTopic queryable embeddings memberIndices = .ok topic) :
    dot topic.centroid topic.centroid ≠ 0 := by
  obtain ⟨found, hgather, rfl⟩ := Query.map_ok.mp h
  obtain ⟨cluster, hcluster, rfl⟩ := List.mem_map.mp hmem
  have hgathered : Gathered embeddings cluster := by
    refine gather_gathered hpos ?_ (by simp) hgather cluster hcluster
    intro entry hentry
    exact List.mem_zipIdx_iff_getElem?.mp hentry
  obtain ⟨members, _, hgather⟩ := Query.bind_ok.mp htopic
  obtain ⟨vectors, hvectors, haverage⟩ := Query.bind_ok.mp hgather
  obtain ⟨centroid, hcentroid, hmade⟩ := Query.bind_ok.mp haverage
  obtain rfl := Except.ok.inj hmade
  have hsame := hgathered.average_eq hvectors
  obtain rfl : centroid = cluster.centroid := Except.ok.inj (hcentroid.symm.trans hsame)
  exact hgathered.centroid_nonzero htwo

end Ekip.Agents.KnowledgeGap
