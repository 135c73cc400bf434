import Mathlib.Algebra.BigOperators.Group.List.Basic
import Ekip.Lib.RootQuotient
import Ekip.Lib.Query
import Ekip.Core.Exceptions

/-!
# `agents/knowledge_gap/clustering.py`

Components of embeddings are exact fractions, and similarities are compared exactly.
-/
namespace Ekip.Agents.KnowledgeGap

open Ekip.Lib Ekip.Core

abbrev Embedding := List Rat

def zipError : Exn := .valueError "zip() arguments have different lengths"

def indexError : Exn := .runtimeError "list index out of range"

def dot (a b : Embedding) : Rat := (List.zipWith (· * ·) a b).sum

theorem dot_self_nonneg (a : Embedding) : 0 ≤ dot a a := by
  unfold dot
  rw [List.zipWith_self]
  refine List.sum_nonneg ?_
  intro r hr
  obtain ⟨x, _, rfl⟩ := List.mem_map.mp hr
  exact mul_self_nonneg x

/-- The norms are the roots of `dot a a` and `dot b b`. -/
def cosineSimilarity (a b : Embedding) : Except Exn RootQuotient :=
  if a.length ≠ b.length then .error zipError
  else if h : dot a a = 0 ∨ dot b b = 0 then .ok (.ofRat 0)
  else .ok
    { num := dot a b
      square := dot a a * dot b b
      square_pos := by
        rw [not_or] at h
        have ha : 0 < dot a a := lt_of_le_of_ne (dot_self_nonneg a) (Ne.symm h.1)
        have hb : 0 < dot b b := lt_of_le_of_ne (dot_self_nonneg b) (Ne.symm h.2)
        exact mul_pos ha hb }

structure Cluster where
  memberIndices : List Nat
  sum : Embedding

namespace Cluster

def init (firstIndex : Nat) (firstEmbedding : Embedding) : Cluster :=
  { memberIndices := [firstIndex], sum := firstEmbedding }

def centroid (cluster : Cluster) : Embedding :=
  cluster.sum.map fun value => value / cluster.memberIndices.length

def add (cluster : Cluster) (index : Nat) (embedding : Embedding) : Except Exn Cluster :=
  if cluster.sum.length ≠ embedding.length then .error zipError
  else .ok
    { memberIndices := cluster.memberIndices ++ [index]
      sum := List.zipWith (· + ·) cluster.sum embedding }

end Cluster

/-- The loop that both the clustering and the merge check run: the first of the most
similar, if one beats the similarity it starts from. -/
def closest {α : Type} (similarity : α → Except Exn RootQuotient) :
    List α → Option α × RootQuotient → Except Exn (Option α × RootQuotient)
  | [], best => .ok best
  | a :: as, best => do
    let found ← similarity a
    closest similarity as (if best.2 < found then (some a, found) else best)

def noneYet {α : Type} : Option α × RootQuotient := (none, .ofRat (-1))

/-- Where one embedding goes. -/
def assign (similarityThreshold : Rat) (clusters : List Cluster) (index : Nat)
    (embedding : Embedding) : Option (Cluster × Nat) × RootQuotient → Except Exn (List Cluster)
  | (some (cluster, position), bestSimilarity) =>
    if .ofRat similarityThreshold ≤ bestSimilarity then
      (cluster.add index embedding).map fun grown => clusters.set position grown
    else .ok (clusters ++ [Cluster.init index embedding])
  | (none, _) => .ok (clusters ++ [Cluster.init index embedding])

def gather (similarityThreshold : Rat) :
    List (Embedding × Nat) → List Cluster → Except Exn (List Cluster)
  | [], clusters => .ok clusters
  | (embedding, index) :: rest, clusters => do
    let best ← closest (fun entry => cosineSimilarity embedding entry.1.centroid)
      clusters.zipIdx noneYet
    let clusters ← assign similarityThreshold clusters index embedding best
    gather similarityThreshold rest clusters

def clusterBySimilarity (similarityThreshold : Rat) (embeddings : List Embedding) :
    Except Exn (List (List Nat)) :=
  (gather similarityThreshold embeddings.zipIdx []).map fun clusters =>
    clusters.map Cluster.memberIndices

/-! ## Similarity -/

/-- The value that is computed is the cosine. -/
theorem cosineSimilarity_value {a b : Embedding} {found : RootQuotient}
    (h : cosineSimilarity a b = .ok found) :
    found.value = (dot a b : ℝ) / (√(dot a a : ℝ) * √(dot b b : ℝ)) ∨
      found.value = 0 ∧ (dot a a = 0 ∨ dot b b = 0) := by
  unfold cosineSimilarity at h
  split at h
  case isTrue => cases h
  case isFalse =>
    split at h
    case isTrue hzero =>
      obtain rfl := Except.ok.inj h
      exact .inr ⟨by simp, hzero⟩
    case isFalse =>
      obtain rfl := Except.ok.inj h
      have hnonneg : (0 : ℝ) ≤ (dot a a : ℝ) := by exact_mod_cast dot_self_nonneg a
      refine .inl ?_
      unfold RootQuotient.value
      rw [← Real.sqrt_mul hnonneg]
      push_cast
      rfl

/-- A vector that is not zero is as similar to itself as can be. -/
theorem cosineSimilarity_self {a : Embedding} (h : dot a a ≠ 0) :
    ∃ found, cosineSimilarity a a = .ok found ∧ RootQuotient.ofRat 1 ≤ found := by
  have hzero : ¬ (dot a a = 0 ∨ dot a a = 0) := by simpa using h
  have hpos : 0 < dot a a * dot a a := mul_self_pos.mpr h
  refine ⟨{ num := dot a a, square := dot a a * dot a a, square_pos := hpos }, ?_, ?_⟩
  · unfold cosineSimilarity
    rw [if_neg (by simp), dif_neg hzero]
  · rw [RootQuotient.le_def]
    unfold RootQuotient.signedSquare RootQuotient.ofRat
    rw [abs_of_nonneg (dot_self_nonneg a), div_self hpos.ne']
    norm_num

theorem closest_spec {α : Type} {similarity : α → Except Exn RootQuotient} {as : List α}
    {start best : Option α × RootQuotient} (h : closest similarity as start = .ok best) :
    (∀ a ∈ as, ∃ found, similarity a = .ok found ∧ found ≤ best.2) ∧ start.2 ≤ best.2 ∧
      (best = start ∨ ∃ a ∈ as, best.1 = some a ∧ similarity a = .ok best.2) := by
  induction as generalizing start with
  | nil =>
    obtain rfl := Except.ok.inj h
    exact ⟨by simp, le_rfl, .inl rfl⟩
  | cons a as ih =>
    unfold closest at h
    cases hfound : similarity a with
    | error raised =>
      rw [hfound] at h
      cases h
    | ok found =>
      rw [hfound] at h
      obtain ⟨hall, hstart, hbest⟩ := ih h
      by_cases hbeat : start.2 < found
      · rw [if_pos hbeat] at hstart hbest
        refine ⟨?_, (le_of_lt hbeat).trans hstart, .inr ?_⟩
        · intro b hb
          rcases List.mem_cons.mp hb with rfl | hb
          · exact ⟨found, hfound, hstart⟩
          · exact hall b hb
        · rcases hbest with rfl | ⟨b, hb, hsome, hsimilar⟩
          · exact ⟨a, List.mem_cons_self, rfl, hfound⟩
          · exact ⟨b, List.mem_cons_of_mem _ hb, hsome, hsimilar⟩
      · rw [if_neg hbeat] at hstart hbest
        refine ⟨?_, hstart, ?_⟩
        · intro b hb
          rcases List.mem_cons.mp hb with rfl | hb
          · exact ⟨found, hfound, (RootQuotient.le_of_not_lt hbeat).trans hstart⟩
          · exact hall b hb
        · rcases hbest with rfl | ⟨b, hb, hsome, hsimilar⟩
          · exact .inl rfl
          · exact .inr ⟨b, List.mem_cons_of_mem _ hb, hsome, hsimilar⟩

/-- What is chosen beats what was scanned before it. -/
theorem closest_first {α : Type} {similarity : α → Except Exn RootQuotient} {as : List α}
    {start best : Option α × RootQuotient} (h : closest similarity as start = .ok best) :
    best = start ∨ ∃ earlier a later, as = earlier ++ a :: later ∧ best.1 = some a ∧
      similarity a = .ok best.2 ∧ start.2 < best.2 ∧
      ∀ b ∈ earlier, ∃ found, similarity b = .ok found ∧ found < best.2 := by
  induction as generalizing start with
  | nil => exact .inl (Except.ok.inj h).symm
  | cons a as ih =>
    obtain ⟨found, hfound, hnext⟩ := Query.bind_ok.mp h
    have hbest := ih hnext
    by_cases hbeat : start.2 < found
    · rw [if_pos hbeat] at hbest
      rcases hbest with rfl | ⟨earlier, b, later, rfl, hsome, hsimilar, hrise, hearlier⟩
      · exact .inr ⟨[], a, as, rfl, rfl, hfound, hbeat, by simp⟩
      · refine .inr ⟨a :: earlier, b, later, rfl, hsome, hsimilar, hbeat.trans hrise, ?_⟩
        intro c hc
        rcases List.mem_cons.mp hc with rfl | hc
        · exact ⟨found, hfound, hrise⟩
        · exact hearlier c hc
    · rw [if_neg hbeat] at hbest
      rcases hbest with rfl | ⟨earlier, b, later, rfl, hsome, hsimilar, hrise, hearlier⟩
      · exact .inl rfl
      · refine .inr ⟨a :: earlier, b, later, rfl, hsome, hsimilar, hrise, ?_⟩
        intro c hc
        rcases List.mem_cons.mp hc with rfl | hc
        · exact ⟨found, hfound, lt_of_le_of_lt (RootQuotient.le_of_not_lt hbeat) hrise⟩
        · exact hearlier c hc

end Ekip.Agents.KnowledgeGap
