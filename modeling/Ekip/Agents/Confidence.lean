import Mathlib.Analysis.SpecialFunctions.Sigmoid
import Mathlib.Data.Finset.Max
import Mathlib.Order.Bounds.Defs
import Ekip.Lib.WeightedMean
import Ekip.Agents.Graph

/-!
# `agents/confidence.py`

The score of a run is a weighted mean of four signals, each brought to the unit
interval first. Over the reals it is monotone in the raw signals.
-/
namespace Ekip.Agents.Confidence

open Ekip.Lib Ekip.Database Ekip.Shared

/-! ## The signals of a state -/

section Signals

variable {𝕜 : Type}

/-- `signals[key] = value`. -/
def set (key : String) (value : 𝕜) (signals : List (String × 𝕜)) : List (String × 𝕜) :=
  (key, value) :: signals.filter fun entry => entry.1 ≠ key

/-- `signals.pop(key, None)`. -/
def pop (key : String) (signals : List (String × 𝕜)) : List (String × 𝕜) :=
  signals.filter fun entry => entry.1 ≠ key

theorem lookup_pop_self (key : String) (signals : List (String × 𝕜)) :
    (pop key signals).lookup key = none := by
  refine List.lookup_eq_none_iff.mpr ?_
  intro entry hentry
  have hne : entry.1 ≠ key := of_decide_eq_true (List.mem_filter.mp hentry).2
  exact bne_iff_ne.mpr (Ne.symm hne)

theorem lookup_pop_other {key other : String} (hne : other ≠ key) (signals : List (String × 𝕜)) :
    (pop key signals).lookup other = signals.lookup other := by
  unfold pop
  induction signals with
  | nil => rfl
  | cons entry signals ih =>
    obtain ⟨name, value⟩ := entry
    by_cases hname : name = key
    · subst hname
      rw [List.filter_cons_of_neg (by simp), List.lookup_cons, ih]
      simp [beq_eq_false_iff_ne.mpr hne]
    · rw [List.filter_cons_of_pos (by simpa using hname), List.lookup_cons, List.lookup_cons, ih]

theorem lookup_set_self (key : String) (value : 𝕜) (signals : List (String × 𝕜)) :
    (set key value signals).lookup key = some value := by
  unfold set
  rw [List.lookup_cons]
  simp

theorem lookup_set_other {key other : String} (hne : other ≠ key) (value : 𝕜)
    (signals : List (String × 𝕜)) : (set key value signals).lookup other = signals.lookup other := by
  unfold set
  rw [List.lookup_cons]
  simp only [beq_eq_false_iff_ne.mpr hne]
  exact lookup_pop_other hne signals

/-- `if key in signals: signals[key] = f(signals[key])`. -/
def update (key : String) (f : 𝕜 → 𝕜) (signals : List (String × 𝕜)) : List (String × 𝕜) :=
  match signals.lookup key with
  | some raw => set key (f raw) signals
  | none => signals

theorem lookup_update_self (key : String) (f : 𝕜 → 𝕜) (signals : List (String × 𝕜)) :
    (update key f signals).lookup key = (signals.lookup key).map f := by
  unfold update
  cases hraw : signals.lookup key with
  | none => exact hraw
  | some raw => exact lookup_set_self key (f raw) signals

theorem lookup_update_other {key other : String} (hne : other ≠ key) (f : 𝕜 → 𝕜)
    (signals : List (String × 𝕜)) : (update key f signals).lookup other = signals.lookup other := by
  unfold update
  cases signals.lookup key with
  | none => rfl
  | some raw => exact lookup_set_other hne (f raw) signals

end Signals

/-! ## The evaluation -/

section Evaluate

variable {𝕜 : Type} [Field 𝕜] [LinearOrder 𝕜] (exp : 𝕜 → 𝕜)

/-- `_SIGNAL_WEIGHTS`. -/
def signalWeights : List (String × 𝕜) :=
  [("top_similarity", 40 / 100), ("rerank_score", 35 / 100), ("source_count", 15 / 100),
    ("historical_similarity", 10 / 100)]

/-- `_SOURCE_COUNT_DECAY`. -/
def sourceCountDecay : 𝕜 := 30 / 100

/-- `_DENSE_SIMILARITY_FLOOR`. -/
def denseSimilarityFloor : 𝕜 := 35 / 100

/-- `_DENSE_SIMILARITY_CEILING`. -/
def denseSimilarityCeiling : 𝕜 := 65 / 100

def normalizeTopSimilarity (rawDenseSimilarity : 𝕜) : 𝕜 :=
  let span := denseSimilarityCeiling - denseSimilarityFloor
  max 0 (min 1 ((rawDenseSimilarity - denseSimilarityFloor) / span))

def normalizeRerankScore (rawScore : 𝕜) : 𝕜 :=
  let calibratedLogit := (rawScore + 8) / 2
  if 0 ≤ calibratedLogit then 1 / (1 + exp (-calibratedLogit))
  else
    let expValue := exp calibratedLogit
    expValue / (1 + expValue)

def distinctDocumentCount (chunks : List (Retrieval.ScoredChunk 𝕜)) : Nat :=
  (chunks.map Retrieval.ScoredChunk.documentId).toFinset.card

def distinctSourceCountSignal (chunks : List (Retrieval.ScoredChunk 𝕜)) : 𝕜 :=
  if distinctDocumentCount chunks = 0 then 0
  else 1 - sourceCountDecay ^ distinctDocumentCount chunks

/-- The entries of `_SIGNAL_WEIGHTS` whose key is in `signals`. -/
def applicableWeights (signals : List (String × 𝕜)) : List (String × 𝕜) :=
  signalWeights.filter fun entry => (signals.lookup entry.1).isSome

def weightedScore (signals : List (String × 𝕜)) : 𝕜 :=
  if (applicableWeights signals).isEmpty then 0
  else
    WeightedMean.mean Prod.snd (fun entry => (signals.lookup entry.1).getD 0)
      (applicableWeights signals)

/-- The partial update of the state. -/
structure ConfidenceUpdate (𝕜 : Type) where
  confidenceScore : 𝕜
  confidenceSignals : List (String × 𝕜)
  route : Route

def evaluateConfidence (confidenceThreshold : 𝕜) (state : GraphState 𝕜) : ConfidenceUpdate 𝕜 :=
  let chunks := state.retrievedChunks
  let signals := state.confidenceSignals
  let signals := update "top_similarity" normalizeTopSimilarity signals
  let signals := set "rerank_score"
    (chunks.head?.elim 0 fun chunk => normalizeRerankScore exp chunk.score) signals
  let signals := set "source_count" (distinctSourceCountSignal chunks) signals
  let signals :=
    if state.incidentId = none then pop "historical_similarity" signals
    else update "historical_similarity" normalizeTopSimilarity signals
  let confidenceScore := weightedScore signals
  { confidenceScore
    confidenceSignals := signals
    route := if confidenceThreshold ≤ confidenceScore then .answer else .investigation }

end Evaluate

/-! ## The normalized signals -/

section Lookups

variable {𝕜 : Type} [Field 𝕜] [LinearOrder 𝕜] (exp : 𝕜 → 𝕜) (threshold : 𝕜) (state : GraphState 𝕜)

/-- The raw similarity to past incidents, where it counts. -/
def historicalSignal : Option 𝕜 :=
  if state.incidentId = none then none else state.confidenceSignals.lookup "historical_similarity"

def rerankSignal : 𝕜 :=
  state.retrievedChunks.head?.elim 0 fun chunk => normalizeRerankScore exp chunk.score

/-- The signals of a state, brought to the unit interval. -/
def normalized : String → Option 𝕜
  | "top_similarity" =>
    (state.confidenceSignals.lookup "top_similarity").map normalizeTopSimilarity
  | "rerank_score" => some (rerankSignal exp state)
  | "source_count" => some (distinctSourceCountSignal state.retrievedChunks)
  | "historical_similarity" => (historicalSignal state).map normalizeTopSimilarity
  | _ => none

theorem lookup_evaluated {entry : String × 𝕜} (h : entry ∈ (signalWeights : List (String × 𝕜))) :
    (evaluateConfidence exp threshold state).confidenceSignals.lookup entry.1 =
      normalized exp state entry.1 := by
  have hlast : ∀ (key : String) (signals : List (String × 𝕜)), key ≠ "historical_similarity" →
      (if state.incidentId = none then pop "historical_similarity" signals
        else update "historical_similarity" normalizeTopSimilarity signals).lookup key =
          signals.lookup key := by
    intro key signals hkey
    split
    · exact lookup_pop_other hkey signals
    · exact lookup_update_other hkey _ signals
  unfold evaluateConfidence
  dsimp only
  simp only [signalWeights, List.mem_cons, List.not_mem_nil, or_false] at h
  rcases h with rfl | rfl | rfl | rfl <;> dsimp only
  · rw [hlast _ _ (by decide), lookup_set_other (by decide), lookup_set_other (by decide),
      lookup_update_self]
    rfl
  · rw [hlast _ _ (by decide), lookup_set_other (by decide), lookup_set_self]
    rfl
  · rw [hlast _ _ (by decide), lookup_set_self]
    rfl
  · show _ = (historicalSignal state).map normalizeTopSimilarity
    unfold historicalSignal
    split
    · exact lookup_pop_self _ _
    · rw [lookup_update_self, lookup_set_other (by decide), lookup_set_other (by decide),
        lookup_update_other (by decide)]

/-- The normalized signals that a state has. -/
def presentSignals : Set 𝕜 := {value | ∃ key, normalized exp state key = some value}

omit [LinearOrder 𝕜] in
theorem mem_applicableWeights {signals : List (String × 𝕜)} {entry : String × 𝕜} :
    entry ∈ applicableWeights signals ↔
      entry ∈ signalWeights ∧ (signals.lookup entry.1).isSome = true := List.mem_filter

theorem applicable_ne_nil :
    applicableWeights (evaluateConfidence exp threshold state).confidenceSignals ≠ [] := by
  have hentry : (("rerank_score", 35 / 100) : String × 𝕜) ∈ (signalWeights : List (String × 𝕜)) :=
    List.mem_cons_of_mem _ List.mem_cons_self
  refine List.ne_nil_of_mem (mem_applicableWeights.mpr ⟨hentry, ?_⟩)
  rw [lookup_evaluated exp threshold state hentry]
  rfl

theorem score_eq_mean : (evaluateConfidence exp threshold state).confidenceScore =
    WeightedMean.mean Prod.snd
      (fun entry => ((evaluateConfidence exp threshold state).confidenceSignals.lookup entry.1).getD 0)
      (applicableWeights (evaluateConfidence exp threshold state).confidenceSignals) := by
  have hne := applicable_ne_nil exp threshold state
  refine if_neg ?_
  intro hempty
  exact hne (List.isEmpty_iff.mp hempty)

end Lookups

/-! ## Over the reals -/

section Real

theorem signalWeights_pos : ∀ entry ∈ (signalWeights : List (String × ℝ)), 0 < entry.2 := by
  intro entry hentry
  simp only [signalWeights, List.mem_cons, List.not_mem_nil, or_false] at hentry
  rcases hentry with rfl | rfl | rfl | rfl <;> norm_num

theorem applicable_pos {signals : List (String × ℝ)} :
    ∀ entry ∈ applicableWeights signals, 0 < entry.2 := fun entry hentry =>
  signalWeights_pos entry (mem_applicableWeights.mp hentry).1

theorem normalizeTopSimilarity_mem (raw : ℝ) :
    0 ≤ normalizeTopSimilarity raw ∧ normalizeTopSimilarity raw ≤ 1 := by
  constructor
  · exact le_max_left _ _
  · exact max_le zero_le_one (min_le_left _ _)

theorem normalizeTopSimilarity_mono {raw raw' : ℝ} (h : raw ≤ raw') :
    normalizeTopSimilarity raw ≤ normalizeTopSimilarity raw' := by
  have hspan : (0 : ℝ) ≤ denseSimilarityCeiling - denseSimilarityFloor := by
    norm_num [denseSimilarityCeiling, denseSimilarityFloor]
  refine max_le_max le_rfl (min_le_min le_rfl ?_)
  exact div_le_div_of_nonneg_right (sub_le_sub_right h _) hspan

/-- Both branches are the sigmoid. -/
theorem normalizeRerankScore_eq (raw : ℝ) :
    normalizeRerankScore Real.exp raw = Real.sigmoid ((raw + 8) / 2) := by
  unfold normalizeRerankScore
  dsimp only
  generalize (raw + 8) / 2 = logit
  by_cases hlogit : 0 ≤ logit
  · rw [if_pos hlogit, Real.sigmoid_def, one_div]
  · have hpos : 0 < Real.exp logit := Real.exp_pos logit
    rw [if_neg hlogit, Real.sigmoid_def, Real.exp_neg]
    field_simp
    ring

theorem rerankSignal_mem (state : GraphState ℝ) :
    0 ≤ rerankSignal Real.exp state ∧ rerankSignal Real.exp state ≤ 1 := by
  unfold rerankSignal
  cases state.retrievedChunks.head? with
  | none => exact ⟨le_rfl, zero_le_one⟩
  | some chunk =>
    show 0 ≤ normalizeRerankScore Real.exp chunk.score ∧ _ ≤ 1
    rw [Option.elim_some, normalizeRerankScore_eq]
    exact ⟨Real.sigmoid_nonneg _, Real.sigmoid_le_one _⟩

theorem decay_pow_mem (n : Nat) :
    0 ≤ (sourceCountDecay : ℝ) ^ n ∧ (sourceCountDecay : ℝ) ^ n ≤ 1 := by
  have hnonneg : (0 : ℝ) ≤ sourceCountDecay := by norm_num [sourceCountDecay]
  have hle : (sourceCountDecay : ℝ) ≤ 1 := by norm_num [sourceCountDecay]
  exact ⟨pow_nonneg hnonneg n, pow_le_one₀ hnonneg hle⟩

/-- Without documents the power is one. -/
theorem distinctSourceCountSignal_eq (chunks : List (Retrieval.ScoredChunk ℝ)) :
    distinctSourceCountSignal chunks = 1 - sourceCountDecay ^ distinctDocumentCount chunks := by
  unfold distinctSourceCountSignal
  by_cases hnone : distinctDocumentCount chunks = 0
  · rw [if_pos hnone, hnone, pow_zero, sub_self]
  · rw [if_neg hnone]

theorem distinctSourceCountSignal_mem (chunks : List (Retrieval.ScoredChunk ℝ)) :
    0 ≤ distinctSourceCountSignal chunks ∧ distinctSourceCountSignal chunks ≤ 1 := by
  obtain ⟨hnonneg, hle⟩ := decay_pow_mem (distinctDocumentCount chunks)
  rw [distinctSourceCountSignal_eq]
  constructor
  · linarith
  · linarith

theorem distinctSourceCountSignal_mono {chunks chunks' : List (Retrieval.ScoredChunk ℝ)}
    (h : distinctDocumentCount chunks ≤ distinctDocumentCount chunks') :
    distinctSourceCountSignal chunks ≤ distinctSourceCountSignal chunks' := by
  have hnonneg : (0 : ℝ) ≤ sourceCountDecay := by norm_num [sourceCountDecay]
  have hle : (sourceCountDecay : ℝ) ≤ 1 := by norm_num [sourceCountDecay]
  have hpow := pow_le_pow_of_le_one hnonneg hle h
  rw [distinctSourceCountSignal_eq, distinctSourceCountSignal_eq]
  linarith

theorem normalized_mem {state : GraphState ℝ} {key : String} {value : ℝ}
    (h : normalized Real.exp state key = some value) : 0 ≤ value ∧ value ≤ 1 := by
  unfold normalized at h
  split at h
  · obtain ⟨raw, -, rfl⟩ := Option.map_eq_some_iff.mp h
    exact normalizeTopSimilarity_mem raw
  · rw [← Option.some.inj h]
    exact rerankSignal_mem state
  · rw [← Option.some.inj h]
    exact distinctSourceCountSignal_mem _
  · obtain ⟨raw, -, rfl⟩ := Option.map_eq_some_iff.mp h
    exact normalizeTopSimilarity_mem raw
  · cases h

/-- Both states carry the same signals, and none is higher in the first. -/
structure RawLe (low high : GraphState ℝ) : Prop where
  incident : low.incidentId.isSome = high.incidentId.isSome
  topSimilarity : Option.Rel (· ≤ ·) (low.confidenceSignals.lookup "top_similarity")
    (high.confidenceSignals.lookup "top_similarity")
  /-- Of states that have chunks. -/
  rerankScore : ∀ chunk ∈ low.retrievedChunks.head?, ∀ chunk' ∈ high.retrievedChunks.head?,
    chunk.score ≤ chunk'.score
  documents : distinctDocumentCount low.retrievedChunks ≤
    distinctDocumentCount high.retrievedChunks
  /-- Of incident triage. -/
  historicalSimilarity : low.incidentId.isSome = true →
    Option.Rel (· ≤ ·) (low.confidenceSignals.lookup "historical_similarity")
      (high.confidenceSignals.lookup "historical_similarity")

theorem isSome_eq_of_rel {raw raw' : Option ℝ} (h : Option.Rel (· ≤ ·) raw raw') :
    raw.isSome = raw'.isSome := by
  cases h with
  | none => rfl
  | some _ => rfl

theorem getD_le_of_rel {raw raw' : Option ℝ} (h : Option.Rel (· ≤ ·) raw raw') :
    raw.getD 0 ≤ raw'.getD 0 := by
  cases h with
  | none => exact le_rfl
  | some hle => exact hle

theorem rel_normalizeTopSimilarity {raw raw' : Option ℝ} (h : Option.Rel (· ≤ ·) raw raw') :
    Option.Rel (· ≤ ·) (raw.map normalizeTopSimilarity) (raw'.map normalizeTopSimilarity) := by
  cases h with
  | none => exact .none
  | some hle => exact .some (normalizeTopSimilarity_mono hle)

theorem chunks_of_documents {chunks : List (Retrieval.ScoredChunk ℝ)}
    (h : distinctDocumentCount chunks = 0) : chunks = [] := by
  unfold distinctDocumentCount at h
  cases chunks with
  | nil => rfl
  | cons chunk chunks =>
    have hempty := Finset.card_eq_zero.mp h
    have hmem : chunk.documentId ∈ ((chunk :: chunks).map
        Retrieval.ScoredChunk.documentId).toFinset :=
      List.mem_toFinset.mpr List.mem_cons_self
    rw [hempty] at hmem
    exact absurd hmem (Finset.notMem_empty _)

theorem rerankSignal_mono {low high : GraphState ℝ} (h : RawLe low high) :
    rerankSignal Real.exp low ≤ rerankSignal Real.exp high := by
  cases hlow : low.retrievedChunks.head? with
  | none =>
    have hzero : rerankSignal Real.exp low = 0 := by
      unfold rerankSignal
      rw [hlow]
      rfl
    rw [hzero]
    exact (rerankSignal_mem high).1
  | some chunk =>
    cases hhigh : high.retrievedChunks.head? with
    | none =>
      have hnone : high.retrievedChunks = [] := List.head?_eq_none_iff.mp hhigh
      have hcount := h.documents
      rw [hnone] at hcount
      have hlowNone := chunks_of_documents (Nat.le_zero.mp hcount)
      rw [hlowNone] at hlow
      cases hlow
    | some chunk' =>
      have hscore := h.rerankScore chunk hlow chunk' hhigh
      unfold rerankSignal
      rw [hlow, hhigh, Option.elim_some, Option.elim_some, normalizeRerankScore_eq,
        normalizeRerankScore_eq]
      exact Real.sigmoid_le (by linarith)

theorem historicalSignal_rel {low high : GraphState ℝ} (h : RawLe low high) :
    Option.Rel (· ≤ ·) (historicalSignal low) (historicalSignal high) := by
  unfold historicalSignal
  have hincident := h.incident
  cases hlow : low.incidentId with
  | none =>
    rw [hlow] at hincident
    have hhigh : high.incidentId = none := by simpa using hincident.symm
    rw [if_pos rfl, if_pos hhigh]
    exact .none
  | some id =>
    have hhistorical := h.historicalSimilarity (by rw [hlow]; rfl)
    rw [hlow] at hincident
    have hhigh : high.incidentId ≠ none := by
      intro hnone
      rw [hnone] at hincident
      cases hincident
    rw [if_neg (by simp), if_neg hhigh]
    exact hhistorical

theorem normalized_rel {low high : GraphState ℝ} (h : RawLe low high) (key : String) :
    Option.Rel (· ≤ ·) (normalized Real.exp low key) (normalized Real.exp high key) := by
  unfold normalized
  split
  · exact rel_normalizeTopSimilarity h.topSimilarity
  · exact .some (rerankSignal_mono h)
  · exact .some (distinctSourceCountSignal_mono h.documents)
  · exact rel_normalizeTopSimilarity (historicalSignal_rel h)
  · exact .none

/-! ## The score -/

theorem mem_presentSignals (threshold : ℝ) {state : GraphState ℝ} {value : ℝ} :
    value ∈ presentSignals Real.exp state ↔
      ∃ entry ∈ applicableWeights (evaluateConfidence Real.exp threshold state).confidenceSignals,
        ((evaluateConfidence Real.exp threshold state).confidenceSignals.lookup entry.1).getD 0 = value := by
  constructor
  · rintro ⟨key, hvalue⟩
    -- no other key has a value
    have hweight : ∃ weight, (key, weight) ∈ (signalWeights : List (String × ℝ)) := by
      unfold normalized at hvalue
      split at hvalue <;> simp_all [signalWeights]
    obtain ⟨weight, hweight⟩ := hweight
    have hlookup := lookup_evaluated Real.exp threshold state hweight
    rw [hvalue] at hlookup
    refine ⟨(key, weight), mem_applicableWeights.mpr ⟨hweight, ?_⟩, ?_⟩ <;> rw [hlookup] <;> rfl
  · rintro ⟨entry, hentry, rfl⟩
    obtain ⟨hweight, hsome⟩ := mem_applicableWeights.mp hentry
    rw [lookup_evaluated Real.exp threshold state hweight] at hsome ⊢
    obtain ⟨value, hvalue⟩ := Option.isSome_iff_exists.mp hsome
    exact ⟨entry.1, by rw [hvalue]; rfl⟩

theorem score_between (threshold : ℝ) (state : GraphState ℝ) :
    ∃ least greatest, IsLeast (presentSignals Real.exp state) least ∧
      IsGreatest (presentSignals Real.exp state) greatest ∧
      least ≤ (evaluateConfidence Real.exp threshold state).confidenceScore ∧
      (evaluateConfidence Real.exp threshold state).confidenceScore ≤ greatest := by
  rw [score_eq_mean]
  have hne := applicable_ne_nil Real.exp threshold state
  have hmem : ∀ value, value ∈ presentSignals Real.exp state ↔ _ :=
    fun value => mem_presentSignals threshold
  generalize (evaluateConfidence Real.exp threshold state).confidenceSignals = signals at hne hmem ⊢
  have hfinite : (applicableWeights signals).toFinset.Nonempty := List.toFinset_nonempty_iff _ |>.mpr hne
  obtain ⟨lowest, hlowest, hbelow⟩ :=
    Finset.exists_min_image _ (fun entry => (signals.lookup entry.1).getD 0) hfinite
  obtain ⟨highest, hhighest, habove⟩ :=
    Finset.exists_max_image _ (fun entry => (signals.lookup entry.1).getD 0) hfinite
  simp only [List.mem_toFinset] at hlowest hbelow hhighest habove
  refine ⟨_, _, ⟨(hmem _).mpr ⟨lowest, hlowest, rfl⟩, ?_⟩, ⟨(hmem _).mpr ⟨highest, hhighest, rfl⟩, ?_⟩,
    WeightedMean.le_mean hne applicable_pos hbelow, WeightedMean.mean_le hne applicable_pos habove⟩
  · intro value hvalue
    obtain ⟨entry, hentry, rfl⟩ := (hmem value).mp hvalue
    exact hbelow entry hentry
  · intro value hvalue
    obtain ⟨entry, hentry, rfl⟩ := (hmem value).mp hvalue
    exact habove entry hentry

theorem score_mono (threshold : ℝ) {low high : GraphState ℝ} (h : RawLe low high) :
    (evaluateConfidence Real.exp threshold low).confidenceScore ≤
      (evaluateConfidence Real.exp threshold high).confidenceScore := by
  have hsame : applicableWeights (evaluateConfidence Real.exp threshold low).confidenceSignals =
      applicableWeights (evaluateConfidence Real.exp threshold high).confidenceSignals := by
    unfold applicableWeights
    refine List.filter_congr ?_
    intro entry hentry
    rw [lookup_evaluated Real.exp threshold low hentry,
      lookup_evaluated Real.exp threshold high hentry]
    exact isSome_eq_of_rel (normalized_rel h entry.1)
  rw [score_eq_mean, score_eq_mean, hsame]
  refine WeightedMean.mean_mono applicable_pos ?_
  intro entry hentry
  have hweight := (mem_applicableWeights.mp hentry).1
  rw [lookup_evaluated Real.exp threshold low hweight,
    lookup_evaluated Real.exp threshold high hweight]
  exact getD_le_of_rel (normalized_rel h entry.1)

theorem route_answer_iff (threshold : ℝ) (state : GraphState ℝ) :
    (evaluateConfidence Real.exp threshold state).route = .answer ↔
      threshold ≤ (evaluateConfidence Real.exp threshold state).confidenceScore := by
  have hroute : (evaluateConfidence Real.exp threshold state).route =
      if threshold ≤ (evaluateConfidence Real.exp threshold state).confidenceScore then .answer
      else .investigation := rfl
  rw [hroute]
  constructor
  · intro h
    by_contra hlow
    rw [if_neg hlow] at h
    cases h
  · exact fun h => if_pos h

/-- The score is a convex combination of the state's signals, which are in the unit interval,
and a run with higher raw signals scores and is routed no lower. -/
theorem confidence_monotone_convex (threshold : ℝ) :
    (∀ state : GraphState ℝ,
      0 ≤ (evaluateConfidence Real.exp threshold state).confidenceScore ∧
      (evaluateConfidence Real.exp threshold state).confidenceScore ≤ 1 ∧
      ∃ least greatest, IsLeast (presentSignals Real.exp state) least ∧
        IsGreatest (presentSignals Real.exp state) greatest ∧
        least ≤ (evaluateConfidence Real.exp threshold state).confidenceScore ∧
        (evaluateConfidence Real.exp threshold state).confidenceScore ≤ greatest ∧
        ((evaluateConfidence Real.exp threshold state).route = .answer ↔
          threshold ≤ (evaluateConfidence Real.exp threshold state).confidenceScore)) ∧
    ∀ low high : GraphState ℝ, RawLe low high →
      (evaluateConfidence Real.exp threshold low).confidenceScore ≤
          (evaluateConfidence Real.exp threshold high).confidenceScore ∧
        ((evaluateConfidence Real.exp threshold low).route = .answer →
          (evaluateConfidence Real.exp threshold high).route = .answer) := by
  constructor
  · intro state
    obtain ⟨least, greatest, hleast, hgreatest, hlow, hhigh⟩ := score_between threshold state
    obtain ⟨_, hleastSignal⟩ := hleast.1
    obtain ⟨_, hgreatestSignal⟩ := hgreatest.1
    exact ⟨(normalized_mem hleastSignal).1.trans hlow, hhigh.trans (normalized_mem hgreatestSignal).2,
      least, greatest, hleast, hgreatest, hlow, hhigh, route_answer_iff threshold state⟩
  · intro low high h
    have hscore := score_mono threshold h
    refine ⟨hscore, ?_⟩
    rw [route_answer_iff, route_answer_iff]
    exact fun hanswer => hanswer.trans hscore

/-- Triage of an incident, with chunks of these documents. -/
noncomputable def triage (similarity historical score : ℝ) (documentIds : List Uuid) : GraphState ℝ where
  query := "outage"
  incidentId := some 7
  actor := { kind := .user, subject := "9", organizationId := 1 }
  retrievedChunks := documentIds.map fun documentId =>
    { chunkId := documentId, documentId, collection := .documentation, content := "", score
      sourceOffsetStart := 0, sourceOffsetEnd := 0 }
  confidenceSignals := [("top_similarity", similarity), ("historical_similarity", historical)]

theorem confidence_monotone_convex_triage :
    (evaluateConfidence Real.exp (1 / 2) (triage (2 / 5) (1 / 2) (-9) [1, 1])).confidenceScore ≤
        (evaluateConfidence Real.exp (1 / 2) (triage (1 / 2) (3 / 5) (-3) [1, 2])).confidenceScore ∧
      ((evaluateConfidence Real.exp (1 / 2) (triage (2 / 5) (1 / 2) (-9) [1, 1])).route = .answer →
        (evaluateConfidence Real.exp (1 / 2) (triage (1 / 2) (3 / 5) (-3) [1, 2])).route = .answer) := by
  refine (confidence_monotone_convex (1 / 2)).2 _ _ ?_
  exact {
    incident := rfl
    topSimilarity := .some (by norm_num)
    rerankScore := by
      rintro _ ⟨⟩ _ ⟨⟩
      norm_num
    documents := by decide
    historicalSimilarity := fun _ => .some (by norm_num) }

end Real

end Ekip.Agents.Confidence
