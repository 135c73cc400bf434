import Mathlib.Algebra.BigOperators.Group.List.Basic
import Mathlib.Algebra.Order.Field.Basic
import Mathlib.Algebra.Order.Field.Rat
import Mathlib.Data.Finset.Card
import Mathlib.Tactic.Linarith
import Mathlib.Tactic.NormNum
import Ekip.Lib.TopRanked
import Ekip.Retrieval.Service
import Mathlib.Tactic.Ring

/-!
# What rank fusion computes

With exact scores, the fused score of a chunk is the sum of what each list gives it,
and a chunk of two short lists beats every chunk of one.
-/
namespace Ekip.Retrieval

open Ekip.Lib Ekip.Database

variable {ε τ : Type}

/-- Scores are fractions. -/
def rational (engine : Engine ε τ ℚ) : Engine ε τ ℚ :=
  { engine with
    le := fun a b => decide (a ≤ b)
    neg := fun a => -a
    zero := 0
    add := fun a b => a + b
    reciprocal := fun n => 1 / n }

def ids (chunks : List (ScoredChunk ℚ)) : List Uuid := chunks.map ScoredChunk.chunkId

/-! ## The sum over the lists -/

/-- What a list gives to a chunk, its first rank being `start`. -/
def creditFrom (k start : Nat) (id : Uuid) : List (ScoredChunk ℚ) → ℚ
  | [] => 0
  | chunk :: rest =>
    (if id = chunk.chunkId then 1 / ((k + start : Nat) : ℚ) else 0) +
      creditFrom k (start + 1) id rest

/-- `1/(k + rank)`, or nothing where the chunk is not in the list. -/
def contribution (k : Nat) (resultList : List (ScoredChunk ℚ)) (id : Uuid) : ℚ :=
  if id ∈ ids resultList then 1 / (k + ((ids resultList).idxOf id + 1)) else 0

/-- The state of the accumulating loop. -/
structure Ledger (score : Uuid → ℚ) (fused : List (ScoredChunk ℚ)) : Prop where
  nodup : (ids fused).Nodup
  scored : ∀ chunk ∈ fused, chunk.score = score chunk.chunkId
  unscored : ∀ id, id ∉ ids fused → score id = 0

theorem Ledger.nil : Ledger (fun _ => 0) [] where
  nodup := List.nodup_nil
  scored := fun _ h => absurd h List.not_mem_nil
  unscored := fun _ _ => rfl

section Credit

variable (engine : Engine ε τ ℚ) (k : Nat) {score : Uuid → ℚ} {fused : List (ScoredChunk ℚ)}

theorem ids_creditRank (ranked : ScoredChunk ℚ × Nat) (fused : List (ScoredChunk ℚ)) :
    ids (creditRank (rational engine) k fused ranked) =
      if ranked.1.chunkId ∈ ids fused then ids fused else ids fused ++ [ranked.1.chunkId] := by
  have hany : (fused.any fun entry => entry.chunkId = ranked.1.chunkId) = true ↔
      ranked.1.chunkId ∈ ids fused := by
    simp [ids]
  unfold creditRank
  dsimp only
  by_cases hmem : ranked.1.chunkId ∈ ids fused
  · rw [if_pos (hany.mpr hmem), if_pos hmem]
    unfold ids
    rw [List.map_map]
    apply List.map_congr_left
    intro entry _
    show (if entry.chunkId = ranked.1.chunkId then _ else entry).chunkId = _
    split <;> rfl
  · rw [if_neg fun h => hmem (hany.mp h), if_neg hmem]
    simp [ids]

theorem mem_ids_creditRank {ranked : ScoredChunk ℚ × Nat} {id : Uuid} :
    id ∈ ids (creditRank (rational engine) k fused ranked) ↔
      id ∈ ids fused ∨ id = ranked.1.chunkId := by
  rw [ids_creditRank]
  by_cases hmem : ranked.1.chunkId ∈ ids fused
  · rw [if_pos hmem]
    constructor
    · exact .inl
    · rintro (h | rfl)
      · exact h
      · exact hmem
  · rw [if_neg hmem, List.mem_append, List.mem_singleton]

/-- One step of the loop adds to one chunk. -/
theorem Ledger.credit (h : Ledger score fused) (ranked : ScoredChunk ℚ × Nat) :
    Ledger (fun id => score id +
        if id = ranked.1.chunkId then 1 / ((k + ranked.2 : Nat) : ℚ) else 0)
      (creditRank (rational engine) k fused ranked) := by
  obtain ⟨chunk, rank⟩ := ranked
  constructor
  · rw [ids_creditRank]
    by_cases hmem : chunk.chunkId ∈ ids fused
    · rw [if_pos hmem]
      exact h.nodup
    · rw [if_neg hmem]
      refine List.nodup_append.mpr ⟨h.nodup, List.nodup_singleton _, ?_⟩
      intro a ha b hb hab
      rw [List.mem_singleton.mp hb] at hab
      rw [hab] at ha
      exact hmem ha
  · intro other hother
    unfold creditRank at hother
    dsimp only at hother
    split at hother
    · obtain ⟨entry, hentry, rfl⟩ := List.mem_map.mp hother
      by_cases hid : entry.chunkId = chunk.chunkId
      · rw [if_pos hid, if_pos hid]
        show entry.score + 1 / ((k + rank : Nat) : ℚ) = _
        rw [h.scored entry hentry]
      · rw [if_neg hid, if_neg hid, add_zero]
        exact h.scored entry hentry
    · rename_i hnew
      have hmem : chunk.chunkId ∉ ids fused := by
        simpa [ids] using hnew
      rcases List.mem_append.mp hother with hold | hlast
      · have hid : other.chunkId ≠ chunk.chunkId := by
          intro heq
          rw [← heq] at hmem
          exact hmem (List.mem_map_of_mem hold)
        rw [if_neg hid, add_zero]
        exact h.scored other hold
      · rw [List.mem_singleton.mp hlast]
        show 0 + 1 / ((k + rank : Nat) : ℚ) = score chunk.chunkId + _
        rw [h.unscored _ hmem, if_pos rfl]
  · intro id hid
    have hneither := not_or.mp (fun hor => hid ((mem_ids_creditRank engine k).mpr hor))
    show score id + (if id = chunk.chunkId then _ else 0) = 0
    rw [h.unscored id hneither.1, if_neg hneither.2, add_zero]

theorem Ledger.creditZip (h : Ledger score fused) (resultList : List (ScoredChunk ℚ))
    (start : Nat) :
    Ledger (fun id => score id + creditFrom k start id resultList)
        ((resultList.zipIdx start).foldl (creditRank (rational engine) k) fused) ∧
      ∀ id, id ∈ ids ((resultList.zipIdx start).foldl (creditRank (rational engine) k) fused) ↔
        id ∈ ids fused ∨ id ∈ ids resultList := by
  induction resultList generalizing score fused start with
  | nil =>
    constructor
    · have hsame : (fun id => score id + creditFrom k start id []) = score := by
        funext id
        exact add_zero _
      rw [hsame]
      exact h
    · intro id
      exact ⟨.inl, fun hor => hor.elim (fun hid => hid) fun hid => absurd hid List.not_mem_nil⟩
  | cons chunk rest ih =>
    rw [List.zipIdx_cons, List.foldl_cons]
    obtain ⟨hledger, hids⟩ := ih (h.credit engine k (chunk, start)) (start + 1)
    constructor
    · have hsame : (fun id => score id + creditFrom k start id (chunk :: rest)) =
          fun id => score id + (if id = chunk.chunkId then 1 / ((k + start : Nat) : ℚ) else 0) +
            creditFrom k (start + 1) id rest := by
        funext id
        exact (add_assoc _ _ _).symm
      rw [hsame]
      exact hledger
    · intro id
      rw [hids, mem_ids_creditRank, or_assoc]
      exact or_congr_right List.mem_cons.symm

theorem Ledger.creditList (h : Ledger score fused) (resultList : List (ScoredChunk ℚ)) :
    Ledger (fun id => score id + creditFrom k 1 id resultList)
        (Retrieval.creditList (rational engine) k fused resultList) ∧
      ∀ id, id ∈ ids (Retrieval.creditList (rational engine) k fused resultList) ↔
        id ∈ ids fused ∨ id ∈ ids resultList := h.creditZip engine k resultList 1

/-- One list after the other. -/
theorem Ledger.creditLists (h : Ledger score fused) (resultLists : List (List (ScoredChunk ℚ))) :
    Ledger (fun id => score id + (resultLists.map (creditFrom k 1 id)).sum)
        (resultLists.foldl (Retrieval.creditList (rational engine) k) fused) ∧
      ∀ id, id ∈ ids (resultLists.foldl (Retrieval.creditList (rational engine) k) fused) ↔
        id ∈ ids fused ∨ ∃ resultList ∈ resultLists, id ∈ ids resultList := by
  induction resultLists generalizing score fused with
  | nil =>
    constructor
    · have hsame : (fun id => score id + (([] : List (List (ScoredChunk ℚ))).map
          (creditFrom k 1 id)).sum) = score := by
        funext id
        exact add_zero _
      rw [hsame]
      exact h
    · intro id
      simp
  | cons resultList rest ih =>
    rw [List.foldl_cons]
    obtain ⟨hfirst, hfirstIds⟩ := h.creditList engine k resultList
    obtain ⟨hledger, hids⟩ := ih hfirst
    constructor
    · have hsame : (fun id => score id + ((resultList :: rest).map (creditFrom k 1 id)).sum) =
          fun id => score id + creditFrom k 1 id resultList +
            (rest.map (creditFrom k 1 id)).sum := by
        funext id
        rw [List.map_cons, List.sum_cons]
        exact (add_assoc _ _ _).symm
      rw [hsame]
      exact hledger
    · intro id
      rw [hids, hfirstIds, or_assoc]
      simp

end Credit

/-! ## Lists without repeated chunks -/

theorem creditFrom_eq (k start : Nat) (id : Uuid) {resultList : List (ScoredChunk ℚ)}
    (hnodup : (ids resultList).Nodup) : creditFrom k start id resultList =
      if id ∈ ids resultList then 1 / ((k + (start + (ids resultList).idxOf id) : Nat) : ℚ)
      else 0 := by
  induction resultList generalizing start with
  | nil => rfl
  | cons chunk rest ih =>
    obtain ⟨hfresh, hrest⟩ := List.nodup_cons.mp hnodup
    rw [creditFrom, ih (start + 1) hrest]
    by_cases hid : id = chunk.chunkId
    · have hhead : (ids (chunk :: rest)).idxOf id = 0 := by
        rw [hid]
        exact List.idxOf_cons_self
      have hmem : id ∈ ids (chunk :: rest) := by
        rw [hid]
        exact List.mem_cons_self
      have htail : id ∉ ids rest := by
        rw [hid]
        exact hfresh
      rw [if_pos hid, if_neg htail, if_pos hmem, hhead, add_zero, Nat.add_zero]
    · have hidx : (ids (chunk :: rest)).idxOf id = (ids rest).idxOf id + 1 :=
        List.idxOf_cons_ne _ (Ne.symm hid)
      have hmem : id ∈ ids (chunk :: rest) ↔ id ∈ ids rest := by
        constructor
        · intro h
          exact (List.mem_cons.mp h).resolve_left hid
        · exact List.mem_cons_of_mem _
      rw [if_neg hid, zero_add]
      by_cases htail : id ∈ ids rest
      · rw [if_pos htail, if_pos (hmem.mpr htail), hidx]
        congr 2
        omega
      · rw [if_neg htail, if_neg fun h => htail (hmem.mp h)]

theorem creditFrom_one (k : Nat) (id : Uuid) {resultList : List (ScoredChunk ℚ)}
    (hnodup : (ids resultList).Nodup) :
    creditFrom k 1 id resultList = contribution k resultList id := by
  rw [creditFrom_eq k 1 id hnodup]
  unfold contribution
  congr 2
  push_cast
  rw [add_comm (1 : ℚ)]

/-! ## Contributions of short lists -/

section Bounds

variable {resultList : List (ScoredChunk ℚ)} {id : Uuid}

theorem contribution_of_absent (h : id ∉ ids resultList) :
    contribution defaultK resultList id = 0 := if_neg h

theorem contribution_le : contribution defaultK resultList id ≤ 1 / 61 := by
  unfold contribution
  split
  · have hrank : (61 : ℚ) ≤ (defaultK : ℚ) + (((ids resultList).idxOf id : ℚ) + 1) := by
      have hnonneg : (0 : ℚ) ≤ ((ids resultList).idxOf id : ℚ) := Nat.cast_nonneg _
      have hk : (defaultK : ℚ) = 60 := by norm_num [defaultK]
      linarith
    exact one_div_le_one_div_of_le (by norm_num) hrank
  · norm_num

/-- The last rank of a list of 61 still counts for more than half of the first. -/
theorem le_contribution (h : id ∈ ids resultList) (hlength : resultList.length ≤ defaultK + 1) :
    1 / 121 ≤ contribution defaultK resultList id := by
  unfold contribution
  rw [if_pos h]
  have hidx : (ids resultList).idxOf id < resultList.length := by
    have hlt := List.idxOf_lt_length_of_mem h
    rwa [ids, List.length_map] at hlt
  have hk : (defaultK : ℚ) = 60 := by norm_num [defaultK]
  have hrank : (((ids resultList).idxOf id : ℕ) : ℚ) ≤ 60 := by
    have hnat : (ids resultList).idxOf id ≤ 60 := by
      have hbound : defaultK + 1 = 61 := rfl
      omega
    exact_mod_cast hnat
  have hnonneg : (0 : ℚ) ≤ ((ids resultList).idxOf id : ℚ) := Nat.cast_nonneg _
  refine one_div_le_one_div_of_le ?_ ?_
  · linarith
  · linarith

end Bounds

/-! ## Two lists -/

open TopRanked

section Law

variable (engine : Engine ε τ ℚ) (dense lexical : List (ScoredChunk ℚ)) (topK : Int)

/-- The exact sum over the lists that hold the chunk. -/
def fusedScore (id : Uuid) : ℚ :=
  contribution defaultK dense id + contribution defaultK lexical id

def distinctIds : Finset Uuid := (ids dense ++ ids lexical).toFinset

/-- What the slice `[:top_k]` keeps of so many. -/
def kept (count : Nat) : Nat := if topK < 0 then count - topK.natAbs else min topK.toNat count

structure FusionLaw (result : List (ScoredChunk ℚ)) : Prop where
  count : result.length = kept topK (distinctIds dense lexical).card
  nodup : (ids result).Nodup
  found : ∀ id ∈ ids result, id ∈ distinctIds dense lexical
  sorted : Descending ScoredChunk.score result
  exact : ∀ chunk ∈ result, chunk.score = fusedScore dense lexical chunk.chunkId
  dropped : ∀ id ∈ distinctIds dense lexical, id ∉ ids result →
    ∀ chunk ∈ result, fusedScore dense lexical id ≤ chunk.score
  /-- A chunk of both lists stands before each chunk of one. -/
  agreement : ∀ pre chunk post, result = pre ++ chunk :: post →
    ¬ (chunk.chunkId ∈ ids dense ∧ chunk.chunkId ∈ ids lexical) →
    ∀ id, id ∈ ids dense → id ∈ ids lexical → id ∈ ids pre

def pair (chunk : ScoredChunk ℚ) : Uuid × ℚ := (chunk.chunkId, chunk.score)

/-- The pairs above the last score of a result. -/
def aboveLast (result : List (ScoredChunk ℚ)) : List (Uuid × ℚ) :=
  match result.getLast? with
  | none => []
  | some last => (result.filter fun chunk => decide (last.score < chunk.score)).map pair

/-- All the fused chunks, best first. -/
def ranking : List (ScoredChunk ℚ) :=
  Query.orderBy (fun a b => decide (b ≤ a)) ScoredChunk.score
    ([dense, lexical].foldl (creditList (rational engine) defaultK) [])

theorem sliceTo_eq_take {α : Type} (rows : List α) :
    Query.sliceTo topK rows = rows.take (kept topK rows.length) := by
  unfold Query.sliceTo kept
  by_cases hneg : topK < 0
  · rw [if_pos hneg, if_pos hneg]
  · rw [if_neg hneg, if_neg hneg, List.take_eq_take_min]

theorem fusion_eq : reciprocalRankFusion (rational engine) [dense, lexical] topK =
    (ranking engine dense lexical).take (kept topK (ranking engine dense lexical).length) :=
  sliceTo_eq_take topK _

theorem ranking_perm : (ranking engine dense lexical).Perm
    ([dense, lexical].foldl (creditList (rational engine) defaultK) []) :=
  List.mergeSort_perm _ _

theorem ranking_descending : Descending ScoredChunk.score (ranking engine dense lexical) := by
  have htrans : ∀ a b c : ScoredChunk ℚ, decide (b.score ≤ a.score) = true →
      decide (c.score ≤ b.score) = true → decide (c.score ≤ a.score) = true := by
    intro a b c hab hbc
    exact decide_eq_true (le_trans (of_decide_eq_true hbc) (of_decide_eq_true hab))
  have htotal : ∀ a b : ScoredChunk ℚ,
      (decide (b.score ≤ a.score) || decide (a.score ≤ b.score)) = true := by
    intro a b
    rcases le_total a.score b.score with h | h
    · simp [h]
    · simp [h]
  refine (List.pairwise_mergeSort htrans htotal _).imp ?_
  intro a b h
  exact of_decide_eq_true h

variable {dense lexical} (hdense : (ids dense).Nodup) (hlexical : (ids lexical).Nodup)

include hdense hlexical

theorem ranking_ledger : Ledger (fusedScore dense lexical) (ranking engine dense lexical) ∧
    ∀ id, id ∈ ids (ranking engine dense lexical) ↔ id ∈ distinctIds dense lexical := by
  obtain ⟨hledger, hids⟩ := Ledger.nil.creditLists engine defaultK [dense, lexical]
  have hscore : (fun id => (0 : ℚ) + ([dense, lexical].map (creditFrom defaultK 1 id)).sum) =
      fusedScore dense lexical := by
    funext id
    simp only [List.map_cons, List.map_nil, List.sum_cons, List.sum_nil, add_zero, zero_add]
    rw [creditFrom_one defaultK id hdense, creditFrom_one defaultK id hlexical]
    rfl
  rw [hscore] at hledger
  have hperm := ranking_perm engine dense lexical
  have hidsPerm := hperm.map ScoredChunk.chunkId
  constructor
  · constructor
    · exact hidsPerm.nodup_iff.mpr hledger.nodup
    · intro chunk hmem
      exact hledger.scored chunk (hperm.mem_iff.mp hmem)
    · intro id hid
      exact hledger.unscored id fun h => hid (hidsPerm.mem_iff.mpr h)
  · intro id
    have hboth := hids id
    rw [show id ∈ ids (ranking engine dense lexical) ↔ _ from hidsPerm.mem_iff]
    refine hboth.trans ?_
    simp [distinctIds, ids]

theorem length_ranking :
    (ranking engine dense lexical).length = (distinctIds dense lexical).card := by
  obtain ⟨hledger, hids⟩ := ranking_ledger engine hdense hlexical
  have hset : (ids (ranking engine dense lexical)).toFinset = distinctIds dense lexical := by
    ext id
    rw [List.mem_toFinset, hids]
  rw [← hset, List.toFinset_card_of_nodup hledger.nodup, ids, List.length_map]

omit hdense hlexical in
/-- Agreement is worth more than any rank in one of the lists. -/
theorem fusedScore_lt (hdenseLength : dense.length ≤ defaultK + 1)
    (hlexicalLength : lexical.length ≤ defaultK + 1) {one both : Uuid}
    (hone : ¬ (one ∈ ids dense ∧ one ∈ ids lexical)) (hbothDense : both ∈ ids dense)
    (hbothLexical : both ∈ ids lexical) :
    fusedScore dense lexical one < fusedScore dense lexical both := by
  have hhigh : 2 / 121 ≤ fusedScore dense lexical both := by
    have hfirst := le_contribution hbothDense hdenseLength
    have hsecond := le_contribution hbothLexical hlexicalLength
    unfold fusedScore
    linarith
  have hlow : fusedScore dense lexical one ≤ 1 / 61 := by
    have hfirst : contribution defaultK dense one ≤ 1 / 61 := contribution_le
    have hsecond : contribution defaultK lexical one ≤ 1 / 61 := contribution_le
    unfold fusedScore
    by_cases hin : one ∈ ids dense
    · have hout : one ∉ ids lexical := fun h => hone ⟨hin, h⟩
      rw [contribution_of_absent hout, add_zero]
      exact hfirst
    · rw [contribution_of_absent hin, zero_add]
      exact hsecond
  linarith

theorem fusion_law (hdenseLength : dense.length ≤ defaultK + 1)
    (hlexicalLength : lexical.length ≤ defaultK + 1) :
    FusionLaw dense lexical topK (reciprocalRankFusion (rational engine) [dense, lexical] topK) := by
  obtain ⟨hledger, hids⟩ := ranking_ledger engine hdense hlexical
  have hdesc := ranking_descending engine dense lexical
  have hlength := length_ranking engine hdense hlexical
  rw [fusion_eq, hlength]
  have hsub := List.take_sublist (kept topK (distinctIds dense lexical).card)
    (ranking engine dense lexical)
  have hscored : ∀ chunk ∈ (ranking engine dense lexical).take
      (kept topK (distinctIds dense lexical).card),
      chunk.score = fusedScore dense lexical chunk.chunkId := by
    intro chunk hmem
    exact hledger.scored chunk (hsub.subset hmem)
  constructor
  · rw [List.length_take, hlength]
    apply Nat.min_eq_left
    unfold kept
    split
    · exact Nat.sub_le _ _
    · exact Nat.min_le_right _ _
  · exact hledger.nodup.sublist (hsub.map ScoredChunk.chunkId)
  · intro id hid
    exact (hids id).mp ((hsub.map ScoredChunk.chunkId).subset hid)
  · exact hdesc.take _
  · exact hscored
  · intro id hid hnot chunk hchunk
    obtain ⟨other, hother, rfl⟩ := List.mem_map.mp ((hids id).mpr hid)
    have hdropped : other ∈ (ranking engine dense lexical).drop
        (kept topK (distinctIds dense lexical).card) := by
      rw [← List.take_append_drop (kept topK (distinctIds dense lexical).card)
        (ranking engine dense lexical)] at hother
      rcases List.mem_append.mp hother with hkept | hdropped
      · exact absurd (List.mem_map_of_mem hkept) hnot
      · exact hdropped
    rw [← hledger.scored other (List.mem_of_mem_drop hdropped)]
    exact hdesc.kept_ge hchunk hdropped
  · intro pre chunk post hsplit hone id hidDense hidLexical
    have hchunk : chunk ∈ (ranking engine dense lexical).take
        (kept topK (distinctIds dense lexical).card) := by
      rw [hsplit]
      exact List.mem_append_right _ List.mem_cons_self
    have hmem : id ∈ distinctIds dense lexical := by
      simp [distinctIds, hidDense]
    obtain ⟨other, hother, rfl⟩ := List.mem_map.mp ((hids id).mpr hmem)
    have hlt : chunk.score < other.score := by
      rw [hscored chunk hchunk, hledger.scored other hother]
      exact fusedScore_lt hdenseLength hlexicalLength hone hidDense hidLexical
    -- it stands before in the whole ranking, of which the result is the start
    have hall : ranking engine dense lexical = pre ++ chunk :: (post ++
        (ranking engine dense lexical).drop (kept topK (distinctIds dense lexical).card)) := by
      rw [← List.cons_append, ← List.append_assoc, ← hsplit, List.take_append_drop]
    exact List.mem_map_of_mem (hdesc.before hall hother hlt)

omit hdense hlexical in
theorem aboveLast_take (ranked : List (ScoredChunk ℚ)) (n : Nat) :
    aboveLast (ranked.take n) = aboveCut Prod.snd n (ranked.map pair) := by
  unfold aboveLast aboveCut
  rw [← List.map_take, List.getLast?_map]
  cases (ranked.take n).getLast? with
  | none => rfl
  | some last =>
    show _ = List.filter _ _
    rw [List.filter_map]
    rfl

theorem pairs_ranking : (ranking engine dense lexical).map pair =
    (ids (ranking engine dense lexical)).map fun id => (id, fusedScore dense lexical id) := by
  obtain ⟨hledger, -⟩ := ranking_ledger engine hdense hlexical
  unfold ids
  rw [List.map_map]
  apply List.map_congr_left
  intro chunk hmem
  show (chunk.chunkId, chunk.score) = (chunk.chunkId, _)
  rw [hledger.scored chunk hmem]

/-- The two orders of the lists rank the same pairs. -/
theorem pairs_perm : ((ranking engine dense lexical).map pair).Perm
    ((ranking engine lexical dense).map pair) := by
  obtain ⟨hledger, hids⟩ := ranking_ledger engine hdense hlexical
  obtain ⟨hledger', hids'⟩ := ranking_ledger engine hlexical hdense
  have hscores : fusedScore lexical dense = fusedScore dense lexical := by
    funext id
    exact add_comm _ _
  have hsame : (ids (ranking engine dense lexical)).Perm (ids (ranking engine lexical dense)) := by
    refine (List.perm_ext_iff_of_nodup hledger.nodup hledger'.nodup).mpr ?_
    intro id
    rw [hids, hids']
    simp [distinctIds, or_comm]
  rw [pairs_ranking engine hdense hlexical, pairs_ranking engine hlexical hdense, hscores]
  exact hsame.map _

theorem aboveLast_perm :
    (aboveLast (reciprocalRankFusion (rational engine) [dense, lexical] topK)).Perm
      (aboveLast (reciprocalRankFusion (rational engine) [lexical, dense] topK)) := by
  have hperm := pairs_perm engine hdense hlexical
  have hlengths : (ranking engine lexical dense).length = (ranking engine dense lexical).length := by
    have hpairs := hperm.length_eq
    rw [List.length_map, List.length_map] at hpairs
    exact hpairs.symm
  rw [fusion_eq, fusion_eq, aboveLast_take, aboveLast_take, hlengths]
  refine aboveCut_perm ?_ ?_ hperm _
  · exact List.pairwise_map.mpr (ranking_descending engine dense lexical)
  · exact List.pairwise_map.mpr (ranking_descending engine lexical dense)

end Law

/-- The fusion of two short lists, for every slice: how many chunks there are, in what
order, with which scores, and what does not depend on the order of the lists. -/
theorem fusion_rewards_agreement (engine : Engine ε τ ℚ) (dense lexical : List (ScoredChunk ℚ))
    (hdense : (ids dense).Nodup) (hlexical : (ids lexical).Nodup)
    (hdenseLength : dense.length ≤ defaultK + 1) (hlexicalLength : lexical.length ≤ defaultK + 1)
    (topK : Int) :
    FusionLaw dense lexical topK
        (reciprocalRankFusion (rational engine) [dense, lexical] topK) ∧
      (aboveLast (reciprocalRankFusion (rational engine) [dense, lexical] topK)).Perm
        (aboveLast (reciprocalRankFusion (rational engine) [lexical, dense] topK)) :=
  ⟨fusion_law engine topK hdense hlexical hdenseLength hlexicalLength,
    aboveLast_perm engine topK hdense hlexical⟩

def hit (chunkId : Uuid) : ScoredChunk ℚ :=
  { chunkId
    documentId := 1
    collection := .code
    content := ""
    score := 0
    sourceOffsetStart := 0
    sourceOffsetEnd := 0 }

def idleEngine : Engine Unit Unit ℚ where
  embedQuery _ := .ok ()
  embedTexts _ := .ok []
  maxInnerProduct _ _ := 0
  websearchToTsquery _ := ()
  plaintoTsquery _ := ()
  tsMatches _ _ := false
  tsRankCd _ _ := 0
  le _ _ := true
  neg a := a
  zero := 0
  add a _ := a
  reciprocal _ := 0

theorem fusion_rewards_agreement_last :
    FusionLaw [hit 1, hit 2] [hit 3, hit 2] 1
        (reciprocalRankFusion (rational idleEngine) [[hit 1, hit 2], [hit 3, hit 2]] 1) ∧
      (aboveLast (reciprocalRankFusion (rational idleEngine) [[hit 1, hit 2], [hit 3, hit 2]] 1)).Perm
        (aboveLast (reciprocalRankFusion (rational idleEngine)
          [[hit 3, hit 2], [hit 1, hit 2]] 1)) :=
  fusion_rewards_agreement idleEngine [hit 1, hit 2] [hit 3, hit 2] (by decide) (by decide)
    (by decide) (by decide) 1

/-- A negative number of chunks leaves out that many of the last. -/
theorem negative_top_k_keeps_one :
    (reciprocalRankFusion (rational idleEngine) [[hit 1], [hit 2]] (-1)).length = 1 ∧
      ((1 : ℕ) : Int) ≠ min (-1) ((distinctIds [hit 1] [hit 2]).card : Int) := by
  have hcard : (distinctIds [hit 1] [hit 2]).card = 2 := by decide
  constructor
  · rw [fusion_eq, List.length_take]
    have hlength : (ranking idleEngine [hit 1] [hit 2]).length = 2 :=
      (ranking_perm idleEngine [hit 1] [hit 2]).length_eq
    rw [hlength]
    rfl
  · rw [hcard]
    decide

end Ekip.Retrieval

/-!
## The total of the fused scores

The scores of a fusion add up to what all ranks of all lists give, whichever chunks
stand at them. Cut into shorter lists, the same number of ranks gives more.
-/
namespace Ekip.Retrieval

open Ekip.Lib Ekip.Database

variable {ε τ : Type}

def total (chunks : List (ScoredChunk ℚ)) : ℚ := (chunks.map ScoredChunk.score).sum

/-- What a list of this length gives, its first rank being `start`. -/
def rankSum (k start : Nat) : Nat → ℚ
  | 0 => 0
  | n + 1 => 1 / ((k + start : Nat) : ℚ) + rankSum k (start + 1) n

section Total

variable (engine : Engine ε τ ℚ) (k : Nat) {score : Uuid → ℚ} {fused : List (ScoredChunk ℚ)}

/-- Adding to the one chunk of an id. -/
theorem total_raise {id : Uuid} {more : ℚ} (hnodup : (ids fused).Nodup) (hmem : id ∈ ids fused) :
    total (fused.map fun entry =>
      if entry.chunkId = id then { entry with score := entry.score + more } else entry) =
      total fused + more := by
  induction fused with
  | nil => exact absurd hmem List.not_mem_nil
  | cons entry rest ih =>
    obtain ⟨hfresh, hrest⟩ := List.nodup_cons.mp hnodup
    by_cases hid : entry.chunkId = id
    · have hsame : rest.map (fun entry => if entry.chunkId = id then
          { entry with score := entry.score + more } else entry) = rest := by
        refine (List.map_congr_left ?_).trans (List.map_id rest)
        intro other hother
        refine if_neg ?_
        intro hother'
        rw [hid, ← hother'] at hfresh
        exact hfresh (List.mem_map_of_mem hother)
      rw [List.map_cons, hsame, if_pos hid]
      unfold total
      rw [List.map_cons, List.map_cons, List.sum_cons, List.sum_cons]
      ring
    · have htail : id ∈ ids rest := (List.mem_cons.mp hmem).resolve_left (Ne.symm hid)
      have hrestTotal := ih hrest htail
      unfold total at hrestTotal ⊢
      rw [List.map_cons, if_neg hid, List.map_cons, List.map_cons, List.sum_cons, List.sum_cons,
        hrestTotal]
      ring

theorem total_creditRank (h : Ledger score fused) (ranked : ScoredChunk ℚ × Nat) :
    total (creditRank (rational engine) k fused ranked) =
      total fused + 1 / ((k + ranked.2 : Nat) : ℚ) := by
  obtain ⟨chunk, rank⟩ := ranked
  have hany : (fused.any fun entry => entry.chunkId = chunk.chunkId) = true ↔
      chunk.chunkId ∈ ids fused := by
    simp [ids]
  unfold creditRank
  dsimp only
  by_cases hmem : chunk.chunkId ∈ ids fused
  · rw [if_pos (hany.mpr hmem)]
    exact total_raise h.nodup hmem
  · rw [if_neg fun hin => hmem (hany.mp hin)]
    unfold total
    rw [List.map_append, List.sum_append]
    show _ + ([0 + 1 / ((k + rank : Nat) : ℚ)] : List ℚ).sum = _
    simp

theorem total_creditZip (h : Ledger score fused) (resultList : List (ScoredChunk ℚ))
    (start : Nat) :
    total ((resultList.zipIdx start).foldl (creditRank (rational engine) k) fused) =
      total fused + rankSum k start resultList.length := by
  induction resultList generalizing score fused start with
  | nil => exact (add_zero _).symm
  | cons chunk rest ih =>
    rw [List.zipIdx_cons, List.foldl_cons, ih (h.credit engine k (chunk, start)),
      total_creditRank engine k h]
    show _ = total fused + (1 / ((k + start : Nat) : ℚ) + rankSum k (start + 1) rest.length)
    ring

theorem total_creditLists (h : Ledger score fused) (resultLists : List (List (ScoredChunk ℚ))) :
    total (resultLists.foldl (creditList (rational engine) k) fused) =
      total fused + (resultLists.map fun resultList => rankSum k 1 resultList.length).sum := by
  induction resultLists generalizing score fused with
  | nil => exact (add_zero _).symm
  | cons resultList rest ih =>
    have hfirst : total (creditList (rational engine) k fused resultList) =
        total fused + rankSum k 1 resultList.length := total_creditZip engine k h resultList 1
    rw [List.foldl_cons, ih (h.creditList engine k resultList).1, hfirst, List.map_cons,
      List.sum_cons, add_assoc]

end Total

/-! ## Shorter lists give more -/

theorem rankSum_add (k start a b : Nat) :
    rankSum k start (a + b) = rankSum k start a + rankSum k (start + a) b := by
  induction a generalizing start with
  | zero =>
    rw [Nat.zero_add, Nat.add_zero]
    exact (zero_add _).symm
  | succ a ih =>
    have hnext : start + 1 + a = start + (a + 1) := by omega
    rw [Nat.succ_add]
    show 1 / _ + rankSum k (start + 1) (a + b) = 1 / _ + rankSum k (start + 1) a + _
    rw [ih, hnext, add_assoc]

theorem rankSum_succ_lt (k start n : Nat) (hstart : 0 < start) (hn : 0 < n) :
    rankSum k (start + 1) n < rankSum k start n := by
  induction n generalizing start with
  | zero => omega
  | succ n ih =>
    have hfirst : 1 / ((k + (start + 1) : Nat) : ℚ) < 1 / ((k + start : Nat) : ℚ) := by
      refine one_div_lt_one_div_of_lt ?_ ?_
      · exact_mod_cast Nat.add_pos_right k hstart
      · exact_mod_cast Nat.lt_succ_self (k + start)
    have hrest : rankSum k (start + 1 + 1) n ≤ rankSum k (start + 1) n := by
      rcases Nat.eq_zero_or_pos n with rfl | hpos
      · exact le_rfl
      · exact le_of_lt (ih (start + 1) (Nat.succ_pos start) hpos)
    show 1 / _ + rankSum k (start + 1 + 1) n < 1 / _ + rankSum k (start + 1) n
    linarith

theorem rankSum_shift_le (k start a n : Nat) (hstart : 0 < start) :
    rankSum k (start + a) n ≤ rankSum k start n := by
  induction a with
  | zero => exact le_rfl
  | succ a ih =>
    rcases Nat.eq_zero_or_pos n with rfl | hpos
    · exact le_rfl
    · exact le_trans (le_of_lt (rankSum_succ_lt k (start + a) n (Nat.add_pos_left hstart a) hpos)) ih

theorem rankSum_add_le (k a b : Nat) : rankSum k 1 (a + b) ≤ rankSum k 1 a + rankSum k 1 b := by
  rw [rankSum_add]
  have hshift := rankSum_shift_le k 1 a b Nat.one_pos
  linarith

theorem rankSum_add_lt (k : Nat) {a b : Nat} (ha : 0 < a) (hb : 0 < b) :
    rankSum k 1 (a + b) < rankSum k 1 a + rankSum k 1 b := by
  obtain ⟨a, rfl⟩ := Nat.exists_eq_succ_of_ne_zero (Nat.pos_iff_ne_zero.mp ha)
  have hlater := rankSum_succ_lt k (1 + a) b (Nat.add_pos_left Nat.one_pos a) hb
  have hshift := rankSum_shift_le k 1 a b Nat.one_pos
  have hnext : 1 + a.succ = 1 + a + 1 := rfl
  rw [rankSum_add, hnext]
  linarith

/-- Of three shares two are not empty. -/
theorem rankSum_three_lt (k a b c : Nat) (h : ¬ (b = 0 ∧ c = 0)) (h' : ¬ (a = 0 ∧ c = 0))
    (h'' : ¬ (a = 0 ∧ b = 0)) :
    rankSum k 1 (a + b + c) < rankSum k 1 a + rankSum k 1 b + rankSum k 1 c := by
  by_cases hc : c = 0
  · subst hc
    have hab := rankSum_add_lt k (a := a) (b := b) (by omega) (by omega)
    have hnone : rankSum k 1 0 = 0 := rfl
    rw [Nat.add_zero, hnone, add_zero]
    exact hab
  · have hlast := rankSum_add_lt k (a := a + b) (b := c) (by omega) (by omega)
    have hfirst := rankSum_add_le k a b
    linarith

theorem rankSum_three_le (k a b c : Nat) :
    rankSum k 1 (a + b + c) ≤ rankSum k 1 a + rankSum k 1 b + rankSum k 1 c := by
  have hlast := rankSum_add_le k (a + b) c
  have hfirst := rankSum_add_le k a b
  linarith

/-! ## A fusion that drops nothing -/

/-- All chunks of the lists fit into the result. -/
theorem total_fusion (engine : Engine ε τ ℚ) {resultLists : List (List (ScoredChunk ℚ))}
    {everything : List Uuid} {topK : Int}
    (hids : ∀ resultList ∈ resultLists, ∀ id ∈ ids resultList, id ∈ everything)
    (hfits : (everything.length : Int) ≤ topK) :
    total (reciprocalRankFusion (rational engine) resultLists topK) =
      (resultLists.map fun resultList => rankSum defaultK 1 resultList.length).sum := by
  obtain ⟨hledger, hmem⟩ := Ledger.nil.creditLists engine defaultK resultLists
  have htotal := total_creditLists engine defaultK Ledger.nil resultLists
  unfold reciprocalRankFusion
  dsimp only
  generalize hfused : resultLists.foldl (creditList (rational engine) defaultK) [] = fused at *
  have hsub : ids fused ⊆ everything := by
    intro id hid
    rcases (hmem id).mp hid with hnone | ⟨resultList, hlist, hin⟩
    · exact absurd hnone List.not_mem_nil
    · exact hids resultList hlist id hin
  have hcount : fused.length ≤ everything.length := by
    have hle := (List.subperm_of_subset hledger.nodup hsub).length_le
    rwa [ids, List.length_map] at hle
  have hsorted : (Query.orderBy (fun a b => (rational engine).le b a) ScoredChunk.score fused).Perm
      fused := List.mergeSort_perm _ _
  have hall : Query.sliceTo topK
      (Query.orderBy (fun a b => (rational engine).le b a) ScoredChunk.score fused) =
        Query.orderBy (fun a b => (rational engine).le b a) ScoredChunk.score fused := by
    unfold Query.sliceTo
    have hnonneg : ¬ topK < 0 := by omega
    have hlength := hsorted.length_eq
    rw [if_neg hnonneg]
    refine List.take_of_length_le ?_
    omega
  rw [hall]
  have hsame : total (Query.orderBy (fun a b => (rational engine).le b a) ScoredChunk.score fused) =
      total fused := (hsorted.map ScoredChunk.score).sum_eq
  rw [hsame, htotal]
  exact zero_add _

/-! ## The highest score -/

/-- Each list gives a chunk the credit of its first rank at most. -/
theorem score_le (engine : Engine ε τ ℚ) {resultLists : List (List (ScoredChunk ℚ))}
    (hnodup : ∀ resultList ∈ resultLists, (ids resultList).Nodup) {topK : Int} {chunk : ScoredChunk ℚ}
    (h : chunk ∈ reciprocalRankFusion (rational engine) resultLists topK) :
    chunk.score ≤ resultLists.length / 61 := by
  obtain ⟨hledger, -⟩ := Ledger.nil.creditLists engine defaultK resultLists
  have hscore := hledger.scored chunk (Query.mem_orderBy.mp (Query.mem_of_mem_sliceTo h))
  rw [hscore, zero_add]
  clear hledger hscore h
  induction resultLists with
  | nil => simp
  | cons resultList rest ih =>
    have hfirst : creditFrom defaultK 1 chunk.chunkId resultList ≤ 1 / 61 := by
      rw [creditFrom_one defaultK _ (hnodup resultList List.mem_cons_self)]
      exact contribution_le
    have hrest := ih fun other hother => hnodup other (List.mem_cons_of_mem _ hother)
    rw [List.map_cons, List.sum_cons, List.length_cons]
    push_cast
    linarith

end Ekip.Retrieval
