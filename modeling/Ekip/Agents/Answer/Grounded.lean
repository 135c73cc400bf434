import Ekip.Agents.Answer.Node

/-!
# An answer is its grounded sentences

Against a model and an embedding that answer whatever they are asked, an attempt
returns the sentences of the draft that are grounded, without their markers. The
markers are removed in one pass, and what a removal puts together can be a marker.
-/
namespace Ekip.Agents.Answer

open Ekip.Lib Ekip.Shared

variable {ε κ ω : Type}

/-- A language model and an embedding that always answer; one vector for each text, and
all of one dimension. -/
structure Oracles where
  assess : String → String → String
  generate : String → String → String
  supports : Nat → String → String → String
  embedTexts : List Text → List (List Rat)
  dimension : Nat
  length_embedTexts : ∀ texts, (embedTexts texts).length = texts.length
  length_vector : ∀ texts, ∀ vector ∈ embedTexts texts, vector.length = dimension

def Oracles.model (oracles : Oracles) : Model :=
  { assess := fun evidence task => .ok (oracles.assess evidence task)
    generate := fun evidence task => .ok (oracles.generate evidence task)
    supports := fun position evidence task => .ok (oracles.supports position evidence task)
    embedTexts := fun texts => .ok (oracles.embedTexts texts) }

namespace Oracles

variable (oracles : Oracles) (query : String) (chunks : List (Retrieval.ScoredChunk ω))
  (memoryContext : String)

/-! ## What the oracles say -/

def verdict : SufficiencyVerdict :=
  parseVerdict (Text.strip (oracles.assess (buildContextBlock chunks) s!"Question: {query}").toList)

def draft : Text :=
  Text.strip (oracles.generate (answerContext chunks memoryContext) s!"Question: {query}").toList

def chunkTexts (chunks : List (Retrieval.ScoredChunk ω)) : List Text :=
  chunks.map fun chunk => chunk.content.toList

def chunkVectors : List (List Rat) := oracles.embedTexts (chunkTexts chunks)

def confirms (position : Nat) (sentence : Text) : Bool :=
  saysYes (oracles.supports position ("\n\n".intercalate ((chunkTexts chunks).map String.ofList))
    s!"Claim: {String.ofList (stripMarkers sentence)}")

/-- Something is left of the sentence without its markers, and it is similar to a chunk,
or neither similar nor dissimilar and confirmed by the model. -/
def Supported (position : Nat) (sentence : Text) (vector : List Rat) : Prop :=
  stripMarkers sentence ≠ [] ∧
    ((∃ other ∈ oracles.chunkVectors chunks, groundedThreshold ≤ dot vector other) ∨
      ((∃ other ∈ oracles.chunkVectors chunks, ungroundedThreshold < dot vector other) ∧
        (∀ other ∈ oracles.chunkVectors chunks, dot vector other < groundedThreshold) ∧
        oracles.confirms chunks position sentence = true))

instance (position : Nat) (sentence : Text) (vector : List Rat) :
    Decidable (oracles.Supported chunks position sentence vector) :=
  inferInstanceAs (Decidable (_ ∧ _))

/-- The supported ones of sentences that stand from a position on, in order. -/
def supportedFrom (position : Nat) (sentences : List Text) (vectors : List (List Rat)) : List Text :=
  (((sentences.zip vectors).zipIdx position).filter fun entry =>
    oracles.Supported chunks entry.2 entry.1.1 entry.1.2).map fun entry => entry.1.1

def survivors : List Text :=
  let sentences := splitSentences (oracles.draft query chunks memoryContext)
  oracles.supportedFrom chunks 0 sentences (oracles.embedTexts (sentences.map stripMarkers))

/-- The numbers that these digits spell, each once and where it is first mentioned. -/
def mentioned (found : List Text) : List Nat := (found.map Text.natOf).eraseDups

/-- An outcome is its grounded sentences. -/
structure Exact (outcome : AnswerOutcome) : Prop where
  answered_iff : outcome.mode = .answered ↔
    oracles.verdict query chunks = .sufficient ∧
      isNoAnswer (oracles.draft query chunks memoryContext) = false ∧
      oracles.survivors query chunks memoryContext ≠ []
  /-- It says what the survivors say outside their markers, and cites what these mention. -/
  content : outcome.mode = .answered → ∃ readings : List (Text × List Text),
    List.Forall₂ (fun sentence reading => Scanned sentence reading.1 reading.2)
      (oracles.survivors query chunks memoryContext) readings ∧
    outcome.text = Text.spaced (readings.map fun reading => Text.squeeze reading.1) ∧
    outcome.citations =
      ((mentioned (readings.flatMap Prod.snd)).filterMap (cited chunks)).map toCitation
  unmarked : outcome.mode = .answered → ¬ HasMarker outcome.text
  supported : ∀ sentence ∈ oracles.survivors query chunks memoryContext, ∃ position vector,
    sentence ∈ splitSentences (oracles.draft query chunks memoryContext) ∧
      oracles.Supported chunks position sentence vector ∧
      ∃ kept found, Scanned sentence kept found ∧ Text.squeeze kept ≠ []
  declined : outcome.mode ≠ .answered → outcome.mode = .noAnswer ∧ outcome.citations = []

/-- No sentence that would be answered with has a marker among digits in brackets, or one of
more digits than `int` reads. -/
def Clean : Prop :=
  oracles.verdict query chunks = .sufficient →
    isNoAnswer (oracles.draft query chunks memoryContext) = false →
      ∀ sentence ∈ oracles.survivors query chunks memoryContext,
        ¬ NestsMarker sentence ∧ ∀ digits, Mentions sentence digits → digits.length ≤ maxStrDigits

/-! ## Grounding -/

variable {oracles query chunks memoryContext}

theorem foldl_max (a : Rat) (as : List Rat) :
    (as.foldl max a = a ∨ as.foldl max a ∈ as) ∧ a ≤ as.foldl max a ∧ ∀ b ∈ as, b ≤ as.foldl max a := by
  induction as generalizing a with
  | nil => simp
  | cons b as ih =>
    obtain ⟨hmem, hle, hall⟩ := ih (max a b)
    rw [List.foldl_cons]
    refine ⟨?_, le_trans (le_max_left a b) hle, ?_⟩
    · rcases hmem with heq | hmem
      · rw [heq]
        rcases max_choice a b with h | h
        · exact .inl h
        · rw [h]
          exact .inr List.mem_cons_self
      · exact .inr (List.mem_cons_of_mem _ hmem)
    · intro c hc
      rcases List.mem_cons.mp hc with rfl | hc
      · exact le_trans (le_max_right a c) hle
      · exact hall c hc

theorem maximum_of_ne_nil {similarities : List Rat} (h : similarities ≠ []) :
    ∃ largest ∈ similarities, maximum similarities = .ok largest ∧
      ∀ similarity ∈ similarities, similarity ≤ largest := by
  cases similarities with
  | nil => exact absurd rfl h
  | cons a as =>
    obtain ⟨hmem, hle, hall⟩ := foldl_max a as
    refine ⟨as.foldl max a, ?_, rfl, ?_⟩
    · rcases hmem with heq | hmem
      · rw [heq]
        exact List.mem_cons_self
      · exact List.mem_cons_of_mem _ hmem
    · intro similarity hsimilarity
      rcases List.mem_cons.mp hsimilarity with rfl | hsimilarity
      · exact hle
      · exact hall similarity hsimilarity

theorem mapM_cosineSimilarity {vector : List Rat} {others : List (List Rat)}
    (h : ∀ other ∈ others, vector.length = other.length) :
    others.mapM (cosineSimilarity vector) = .ok (others.map (dot vector)) := by
  induction others with
  | nil => rfl
  | cons other others ih =>
    have hfirst : cosineSimilarity vector other = .ok (dot vector other) :=
      if_pos (h other List.mem_cons_self)
    have hrest := ih fun other hother => h other (List.mem_cons_of_mem _ hother)
    rw [List.mapM_cons, hfirst, hrest]
    rfl

theorem chunkVectors_ne_nil (hchunks : chunks ≠ []) : oracles.chunkVectors chunks ≠ [] := by
  intro hnil
  have hlength := oracles.length_embedTexts (chunkTexts chunks)
  unfold chunkVectors at hnil
  rw [hnil, chunkTexts, List.length_map] at hlength
  exact hchunks (List.eq_nil_of_length_eq_zero hlength.symm)

theorem isGrounded_eq (position : Nat) (sentence : Text) {vector : List Rat} (hchunks : chunks ≠ [])
    (hvector : vector.length = oracles.dimension) :
    isGrounded oracles.model (chunkTexts chunks) (oracles.chunkVectors chunks) position
      (stripMarkers sentence) vector =
        .ok (decide (oracles.Supported chunks position sentence vector)) := by
  unfold isGrounded
  by_cases hclean : stripMarkers sentence = []
  · rw [if_pos hclean, decide_eq_false fun h => h.1 hclean]
  · have hlengths : ∀ other ∈ oracles.chunkVectors chunks, vector.length = other.length :=
      fun other hother => hvector.trans (oracles.length_vector _ other hother).symm
    have hne : (oracles.chunkVectors chunks).map (dot vector) ≠ [] :=
      fun hnil => chunkVectors_ne_nil hchunks (List.map_eq_nil_iff.mp hnil)
    obtain ⟨largest, hmem, hmaximum, hall⟩ := maximum_of_ne_nil hne
    obtain ⟨best, hbest, rfl⟩ := List.mem_map.mp hmem
    have hle : ∀ other ∈ oracles.chunkVectors chunks, dot vector other ≤ dot vector best :=
      fun other hother => hall _ (List.mem_map_of_mem hother)
    rw [if_neg hclean, mapM_cosineSimilarity hlengths]
    show (maximum ((oracles.chunkVectors chunks).map (dot vector)) >>= _) = _
    rw [hmaximum]
    show (if groundedThreshold ≤ dot vector best then _ else _) = _
    by_cases hgrounded : groundedThreshold ≤ dot vector best
    · have hsupported : oracles.Supported chunks position sentence vector :=
        ⟨hclean, .inl ⟨best, hbest, hgrounded⟩⟩
      rw [if_pos hgrounded, decide_eq_true hsupported]
      rfl
    · have hbelow : ∀ other ∈ oracles.chunkVectors chunks, dot vector other < groundedThreshold :=
        fun other hother => lt_of_le_of_lt (hle other hother) (not_le.mp hgrounded)
      rw [if_neg hgrounded]
      by_cases hungrounded : dot vector best ≤ ungroundedThreshold
      · have hunsupported : ¬ oracles.Supported chunks position sentence vector := by
          intro h
          rcases h.2 with ⟨other, hother, habove⟩ | ⟨⟨other, hother, habove⟩, -, -⟩
          · exact absurd (hbelow other hother) (not_lt.mpr habove)
          · exact absurd (le_trans (hle other hother) hungrounded) (not_le.mpr habove)
        rw [if_pos hungrounded, decide_eq_false hunsupported]
        rfl
      · have hconfirmed : oracles.Supported chunks position sentence vector ↔
            oracles.confirms chunks position sentence = true := by
          constructor
          · intro h
            rcases h.2 with ⟨other, hother, habove⟩ | ⟨-, -, hconfirms⟩
            · exact absurd (hbelow other hother) (not_lt.mpr habove)
            · exact hconfirms
          · intro hconfirms
            exact ⟨hclean, .inr ⟨⟨best, hbest, not_le.mp hungrounded⟩, hbelow, hconfirms⟩⟩
        have hdecide : decide (oracles.Supported chunks position sentence vector) =
            oracles.confirms chunks position sentence := by
          cases hc : oracles.confirms chunks position sentence with
          | true => exact decide_eq_true (hconfirmed.mpr hc)
          | false =>
            apply decide_eq_false
            intro h
            rw [hconfirmed.mp h] at hc
            cases hc
        rw [if_neg hungrounded, hdecide]
        rfl

theorem keepGrounded_eq (hchunks : chunks ≠ []) {position : Nat} {sentences : List Text}
    {vectors : List (List Rat)} (hlength : vectors.length = sentences.length)
    (hvectors : ∀ vector ∈ vectors, vector.length = oracles.dimension) :
    keepGrounded oracles.model (chunkTexts chunks) (oracles.chunkVectors chunks) position sentences
      vectors = .ok (oracles.supportedFrom chunks position sentences vectors) := by
  induction sentences generalizing position vectors with
  | nil =>
    obtain rfl := List.eq_nil_of_length_eq_zero hlength
    rfl
  | cons sentence sentences ih =>
    cases vectors with
    | nil => cases hlength
    | cons vector vectors =>
      have hgrounded := isGrounded_eq position sentence hchunks
        (hvectors vector List.mem_cons_self)
      have hrest : keepGrounded oracles.model (chunkTexts chunks) (oracles.chunkVectors chunks)
          (position + 1) sentences vectors =
            .ok (oracles.supportedFrom chunks (position + 1) sentences vectors) :=
        ih (Nat.succ.inj hlength) fun other hother =>
          hvectors other (List.mem_cons_of_mem _ hother)
      rw [keepGrounded, hgrounded, hrest]
      unfold supportedFrom
      rw [List.zip_cons_cons, List.zipIdx_cons]
      by_cases hsupported : oracles.Supported chunks position sentence vector
      · rw [List.filter_cons_of_pos (by simpa using hsupported), decide_eq_true hsupported]
        rfl
      · rw [List.filter_cons_of_neg (by simpa using hsupported), decide_eq_false hsupported]
        rfl

theorem verifyGrounding_eq (query : String) (memoryContext : String) (hchunks : chunks ≠ []) :
    verifyGrounding oracles.model (splitSentences (oracles.draft query chunks memoryContext)) chunks =
      .ok (oracles.survivors query chunks memoryContext) := by
  unfold verifyGrounding survivors
  by_cases hnone : splitSentences (oracles.draft query chunks memoryContext) = []
  · rw [if_pos (.inl hnone), hnone]
    rfl
  · have hnotEmpty : ¬ (splitSentences (oracles.draft query chunks memoryContext) = [] ∨
        chunks.isEmpty = true) := by
      intro h
      rcases h with h | h
      · exact hnone h
      · exact hchunks (List.isEmpty_iff.mp h)
    rw [if_neg hnotEmpty]
    apply keepGrounded_eq hchunks
    · rw [oracles.length_embedTexts, List.length_map]
    · exact oracles.length_vector _

/-! ## The outcome of an attempt -/

theorem supported_of_survivor {sentence : Text}
    (h : sentence ∈ oracles.survivors query chunks memoryContext) :
    ∃ position vector, sentence ∈ splitSentences (oracles.draft query chunks memoryContext) ∧
      oracles.Supported chunks position sentence vector ∧
      ∃ kept found, Scanned sentence kept found ∧ Text.squeeze kept ≠ [] := by
  unfold survivors supportedFrom at h
  obtain ⟨entry, hentry, rfl⟩ := List.mem_map.mp h
  obtain ⟨hzip, hsupported⟩ := List.mem_filter.mp hentry
  have hpair := List.fst_mem_of_mem_zipIdx hzip
  have hsupported := of_decide_eq_true hsupported
  exact ⟨entry.2, entry.1.2, (List.of_mem_zip hpair).1, hsupported, _, _, scanned _, hsupported.1⟩

theorem exact_declined (reason : AnswerOutcomeReason)
    (h : ¬ (oracles.verdict query chunks = .sufficient ∧
      isNoAnswer (oracles.draft query chunks memoryContext) = false ∧
      oracles.survivors query chunks memoryContext ≠ [])) :
    oracles.Exact query chunks memoryContext (declined reason) where
  answered_iff := by
    constructor
    · intro hmode
      cases hmode
    · intro hanswered
      exact absurd hanswered h
  content hmode := by cases hmode
  unmarked hmode := by cases hmode
  supported _ hsentence := supported_of_survivor hsentence
  declined _ := ⟨rfl, rfl⟩

theorem buildCitations_ok {sentences : List Text}
    (h : ∀ sentence ∈ sentences, ∀ digits ∈ markers sentence, digits.length ≤ maxStrDigits) :
    buildCitations (Text.spaced sentences) chunks =
      .ok (((mentioned (sentences.flatMap markers)).filterMap (cited chunks)).map toCitation) := by
  have hshort : ∀ digits ∈ sentences.flatMap markers, digits.length ≤ maxStrDigits := by
    intro digits hdigits
    obtain ⟨sentence, hsentence, hmem⟩ := List.mem_flatMap.mp hdigits
    exact h sentence hsentence digits hmem
  unfold buildCitations extractCitationMarkers
  rw [markers_spaced, collectMarkers_ok [] hshort]
  simp [mentioned, bind, Except.bind, pure, Except.pure]

theorem buildCitations_error (chunks : List (Retrieval.ScoredChunk ω)) {sentences : List Text}
    (h : ∃ sentence ∈ sentences, ∃ digits ∈ markers sentence, maxStrDigits < digits.length) :
    ∃ e, buildCitations (Text.spaced sentences) chunks = .error e := by
  obtain ⟨sentence, hsentence, digits, hdigits, hlong⟩ := h
  have hmem : digits ∈ sentences.flatMap markers :=
    List.mem_flatMap.mpr ⟨sentence, hsentence, hdigits⟩
  obtain ⟨e, he⟩ := collectMarkers_error [] ⟨digits, hmem, hlong⟩
  unfold buildCitations extractCitationMarkers
  rw [markers_spaced, he]
  exact ⟨e, rfl⟩

/-- What the sentences are made into. -/
def answeredWith (chunks : List (Retrieval.ScoredChunk ω)) (sentences : List Text) : AnswerOutcome :=
  { mode := .answered
    text := stripMarkers (Text.spaced sentences)
    citations := ((mentioned (sentences.flatMap markers)).filterMap (cited chunks)).map toCitation
    reason := none }

@[simp] theorem answeredWith_mode (sentences : List Text) :
    (answeredWith chunks sentences).mode = .answered := rfl

@[simp] theorem answeredWith_text (sentences : List Text) :
    (answeredWith chunks sentences).text = stripMarkers (Text.spaced sentences) := rfl

@[simp] theorem answeredWith_citations (sentences : List Text) :
    (answeredWith chunks sentences).citations =
      ((mentioned (sentences.flatMap markers)).filterMap (cited chunks)).map toCitation := rfl

theorem groundedOutcome_ok {sentences : List Text} (hne : sentences ≠ [])
    (h : ∀ sentence ∈ sentences, ∀ digits ∈ markers sentence, digits.length ≤ maxStrDigits) :
    groundedOutcome sentences chunks = .ok (answeredWith chunks sentences) := by
  unfold groundedOutcome
  rw [if_neg hne]
  dsimp only
  rw [buildCitations_ok h]
  rfl

theorem groundedOutcome_error (chunks : List (Retrieval.ScoredChunk ω)) {sentences : List Text}
    (h : ∃ sentence ∈ sentences, ∃ digits ∈ markers sentence, maxStrDigits < digits.length) :
    ∃ e, groundedOutcome sentences chunks = .error e := by
  obtain ⟨sentence, hsentence, hlong⟩ := h
  obtain ⟨e, he⟩ := buildCitations_error chunks ⟨sentence, hsentence, hlong⟩
  unfold groundedOutcome
  rw [if_neg (List.ne_nil_of_mem hsentence)]
  dsimp only
  rw [he]
  exact ⟨e, rfl⟩

theorem exact_answered (hverdict : oracles.verdict query chunks = .sufficient)
    (hanswer : isNoAnswer (oracles.draft query chunks memoryContext) = false)
    (hne : oracles.survivors query chunks memoryContext ≠ []) :
    oracles.Exact query chunks memoryContext
        (answeredWith chunks (oracles.survivors query chunks memoryContext)) ↔
      ∀ sentence ∈ oracles.survivors query chunks memoryContext, ¬ NestsMarker sentence := by
  have hnonempty : ∀ sentence ∈ oracles.survivors query chunks memoryContext,
      stripMarkers sentence ≠ [] := by
    intro sentence hsentence
    obtain ⟨_, _, -, hsupported, -⟩ := supported_of_survivor hsentence
    exact hsupported.1
  have htext := stripMarkers_spaced hnonempty
  have hunmarked : (¬ HasMarker (stripMarkers (Text.spaced
        (oracles.survivors query chunks memoryContext)))) ↔
      ∀ sentence ∈ oracles.survivors query chunks memoryContext, ¬ NestsMarker sentence := by
    rw [htext, hasMarker_spaced]
    simp [hasMarker_stripMarkers]
  rw [← hunmarked]
  constructor
  · intro hexact
    have hclean := hexact.unmarked (answeredWith_mode _)
    rw [answeredWith_text] at hclean
    exact hclean
  · intro hclean
    constructor
    · exact ⟨fun _ => ⟨hverdict, hanswer, hne⟩, fun _ => answeredWith_mode _⟩
    · intro _
      refine ⟨(oracles.survivors query chunks memoryContext).map fun sentence =>
        (withoutMarkers sentence, markers sentence), ?_, ?_, ?_⟩
      · exact List.forall₂_map_right_iff.mpr (List.forall₂_same.mpr fun sentence _ => scanned sentence)
      · rw [answeredWith_text, htext, List.map_map]
        rfl
      · rw [answeredWith_citations, List.flatMap_map]
    · intro _
      rw [answeredWith_text]
      exact hclean
    · intro sentence hsentence
      exact supported_of_survivor hsentence
    · intro hmode
      exact absurd (answeredWith_mode _) hmode

/-- The attempt declines, or answers with the survivors. -/
theorem attempt_cases (query : String) (memoryContext : String) (hchunks : chunks ≠ []) :
    (∃ reason, generateAnswerWithOutcome oracles.model query chunks memoryContext =
        .ok (declined reason) ∧
      ¬ (oracles.verdict query chunks = .sufficient ∧
        isNoAnswer (oracles.draft query chunks memoryContext) = false ∧
        oracles.survivors query chunks memoryContext ≠ [])) ∨
    (generateAnswerWithOutcome oracles.model query chunks memoryContext =
        groundedOutcome (oracles.survivors query chunks memoryContext) chunks ∧
      oracles.verdict query chunks = .sufficient ∧
      isNoAnswer (oracles.draft query chunks memoryContext) = false ∧
      oracles.survivors query chunks memoryContext ≠ []) := by
  have hverify : verifyGrounding oracles.model
      (splitSentences (oracles.draft query chunks memoryContext)) chunks =
        .ok (oracles.survivors query chunks memoryContext) :=
    verifyGrounding_eq query memoryContext hchunks
  have hassess : assessSufficiency oracles.model query chunks = .ok (oracles.verdict query chunks) := rfl
  have hgenerate : generateAnswer oracles.model query chunks memoryContext =
      .ok (oracles.draft query chunks memoryContext) := rfl
  have hwhole : generateAnswerWithOutcome oracles.model query chunks memoryContext =
      if oracles.verdict query chunks ≠ .sufficient then
        .ok (declined (if oracles.verdict query chunks = .partially then .sufficiencyPartial
          else .sufficiencyInsufficient))
      else if isNoAnswer (oracles.draft query chunks memoryContext) then .ok (declined .modelDeclined)
      else groundedOutcome (oracles.survivors query chunks memoryContext) chunks := by
    unfold generateAnswerWithOutcome
    rw [hassess]
    simp only [bind, Except.bind, pure, Except.pure, hgenerate, hverify]
  rw [hwhole]
  by_cases hverdict : oracles.verdict query chunks = .sufficient
  · rw [if_neg (not_not.mpr hverdict)]
    cases hanswer : isNoAnswer (oracles.draft query chunks memoryContext) with
    | true => exact .inl ⟨_, if_pos rfl, fun h => absurd h.2.1 (by decide)⟩
    | false =>
      rw [if_neg (by decide)]
      by_cases hne : oracles.survivors query chunks memoryContext = []
      · refine .inl ⟨.groundingFailed, ?_, fun h => h.2.2 hne⟩
        unfold groundedOutcome
        exact if_pos hne
      · exact .inr ⟨rfl, hverdict, rfl, hne⟩
  · exact .inl ⟨_, if_pos hverdict, fun h => hverdict h.1⟩

/-- An attempt returns exactly the grounded sentences, unless one of them nests a marker. -/
theorem exact_iff_clean (query : String) (memoryContext : String) (hchunks : chunks ≠ []) :
    (∃ outcome, generateAnswerWithOutcome oracles.model query chunks memoryContext = .ok outcome ∧
      oracles.Exact query chunks memoryContext outcome) ↔ oracles.Clean query chunks memoryContext := by
  rcases attempt_cases query memoryContext hchunks with
    ⟨reason, hdeclined, hnot⟩ | ⟨hgrounded, hverdict, hanswer, hne⟩
  · constructor
    · intro _ hverdict hanswer sentence hsentence
      exact absurd ⟨hverdict, hanswer, List.ne_nil_of_mem hsentence⟩ hnot
    · intro _
      exact ⟨_, hdeclined, exact_declined reason hnot⟩
  · rw [hgrounded]
    constructor
    · intro h _ _ sentence hsentence
      obtain ⟨outcome, houtcome, hexact⟩ := h
      have hshort : ∀ other ∈ oracles.survivors query chunks memoryContext,
          ∀ digits ∈ markers other, digits.length ≤ maxStrDigits := by
        intro other hother digits hdigits
        by_contra hlong
        obtain ⟨e, he⟩ := groundedOutcome_error chunks
          ⟨other, hother, digits, hdigits, Nat.not_le.mp hlong⟩
        rw [he] at houtcome
        cases houtcome
      rw [groundedOutcome_ok hne hshort] at houtcome
      obtain rfl := Except.ok.inj houtcome
      exact ⟨(exact_answered hverdict hanswer hne).mp hexact sentence hsentence,
        fun digits hdigits => hshort sentence hsentence digits (mem_markers_iff.mpr hdigits)⟩
    · intro hclean
      have hall := hclean hverdict hanswer
      refine ⟨_, groundedOutcome_ok hne fun sentence hsentence digits hdigits =>
        (hall sentence hsentence).2 digits (mem_markers_iff.mp hdigits), ?_⟩
      exact (exact_answered hverdict hanswer hne).mpr fun sentence hsentence =>
        (hall sentence hsentence).1

end Oracles

/-! ## The node -/

section Node

variable (model : Model) (query : String) (chunks : List (Retrieval.ScoredChunk ω))
  (memoryContext : String)

/-- One attempt ended with an answer. -/
def Answered : Prop :=
  ∃ outcome, generateAnswerWithOutcome model query chunks memoryContext = .ok outcome ∧
    outcome.mode = .answered

/-- Whatever an attempt raises is caught. -/
theorem generateAndVerify_cases :
    (∃ answer, generateAndVerify model query chunks memoryContext = .ok answer ∧
      Answered model query chunks memoryContext) ∨
    ∃ e, generateAndVerify model query chunks memoryContext = .error e ∧ e.isException = true ∧
      ¬ Answered model query chunks memoryContext := by
  unfold generateAndVerify
  cases houtcome : generateAnswerWithOutcome model query chunks memoryContext with
  | error e =>
    refine .inr ⟨.core e, rfl, rfl, ?_⟩
    intro h
    obtain ⟨outcome, hok, -⟩ := h
    rw [houtcome] at hok
    cases hok
  | ok outcome =>
    show (∃ answer, (if outcome.mode = .noAnswer then _ else _) = _ ∧ _) ∨
      ∃ e, (if outcome.mode = .noAnswer then _ else _) = _ ∧ _
    cases hmode : outcome.mode with
    | answered =>
      rw [if_neg (by decide)]
      exact .inl ⟨_, rfl, outcome, houtcome, hmode⟩
    | noAnswer =>
      rw [if_pos rfl]
      refine .inr ⟨_, rfl, rfl, ?_⟩
      intro h
      obtain ⟨other, hok, hanswered⟩ := h
      rw [houtcome] at hok
      obtain rfl := Except.ok.inj hok
      rw [hmode] at hanswered
      cases hanswered

/-- The attempts from one on: an answer if one of them ends with an answer. -/
theorem callWithRetry_attempts (attempts : Nat → Except AgentExn (Text × List Citation))
    (answered : Nat → Prop)
    (hattempts : ∀ attempt, (∃ answer, attempts attempt = .ok answer ∧ answered attempt) ∨
      ∃ e, attempts attempt = .error e ∧ e.isException = true ∧ ¬ answered attempt)
    (remaining : Nat) (hremaining : remaining ≤ maxRetries) (run : Run (PlatformDb ε κ)) :
    (∃ answer, callWithRetry (fun attempt => Service.ofExcept (attempts attempt)) remaining run =
        (.ok answer, run) ∧ ∃ attempt ≤ maxRetries, maxRetries - remaining ≤ attempt ∧ answered attempt) ∨
    ∃ e, callWithRetry (fun attempt => Service.ofExcept (attempts attempt)) remaining run =
        (.error e, run) ∧ e.isException = true ∧
      ∀ attempt ≤ maxRetries, maxRetries - remaining ≤ attempt → ¬ answered attempt := by
  induction remaining with
  | zero =>
    rcases hattempts maxRetries with ⟨answer, hok, hanswered⟩ | ⟨e, herror, hexception, hnot⟩
    · refine .inl ⟨answer, ?_, maxRetries, Nat.le_refl _, Nat.le_refl _, hanswered⟩
      unfold callWithRetry Service.ofExcept
      rw [hok]
    · refine .inr ⟨e, ?_, hexception, ?_⟩
      · unfold callWithRetry Service.ofExcept
        rw [herror]
      · intro attempt hle hge
        obtain rfl := Nat.le_antisymm hle hge
        exact hnot
  | succ remaining ih =>
    have hattempt : ∀ {r}, attempts (maxRetries - (remaining + 1)) = r →
        Service.attempt (Service.ofExcept (attempts (maxRetries - (remaining + 1)))) run =
          (.ok r, run) := by
      intro r hr
      rw [hr]
      rfl
    rw [callWithRetry]
    rcases hattempts (maxRetries - (remaining + 1)) with
      ⟨answer, hok, hanswered⟩ | ⟨e, herror, hexception, hnot⟩
    · rw [Service.bind_of_ok (hattempt hok)]
      exact .inl ⟨answer, rfl, _, Nat.sub_le _ _, Nat.le_refl _, hanswered⟩
    · rw [Service.bind_of_ok (hattempt herror)]
      dsimp only
      rw [if_pos hexception]
      -- the attempts that are left are numbered from the next one on
      have hnext : ∀ attempt, maxRetries - (remaining + 1) ≤ attempt →
          attempt = maxRetries - (remaining + 1) ∨ maxRetries - remaining ≤ attempt := by
        intro attempt hge
        omega
      rcases ih (Nat.le_of_succ_le hremaining) with
        ⟨answer, hreturns, attempt, hle, hge, hanswered⟩ | ⟨e', hraises, hexception', hnone⟩
      · exact .inl ⟨answer, hreturns, attempt, hle, by omega, hanswered⟩
      · refine .inr ⟨e', hraises, hexception', ?_⟩
        intro attempt hle hge
        rcases hnext attempt hge with rfl | hlater
        · exact hnot
        · exact hnone attempt hle hlater

theorem generateGrounded_returns (env : Env ω) (state : GraphState ω) (run : Run (PlatformDb ε κ)) :
    ∃ answer, generateGrounded env state run = (.ok answer, run) ∧
      (answer.isSome = true ↔ state.retrievedChunks ≠ [] ∧ ∃ attempt ≤ maxRetries,
        Answered (env.attempts attempt) (answeredQuery state) state.retrievedChunks
          (env.formatMemoryContext state.recalledMemories)) := by
  unfold generateGrounded
  by_cases hchunks : state.retrievedChunks = []
  · rw [if_pos (List.isEmpty_iff.mpr hchunks)]
    exact ⟨none, rfl, by simp [hchunks]⟩
  · rw [if_neg (by simpa using hchunks)]
    rcases callWithRetry_attempts _ _ (fun attempt => generateAndVerify_cases (env.attempts attempt)
        (answeredQuery state) state.retrievedChunks
        (env.formatMemoryContext state.recalledMemories)) maxRetries (Nat.le_refl _) run with
      ⟨answer, hreturns, attempt, hle, -, hanswered⟩ | ⟨e, hraises, hexception, hnone⟩
    · refine ⟨some answer, orFallback_of_ok ?_, fun _ => ⟨hchunks, attempt, hle, hanswered⟩, fun _ => rfl⟩
      rw [Service.bind_of_ok hreturns]
      rfl
    · refine ⟨none, orFallback_of_error (Service.bind_of_error hraises) hexception, ?_, ?_⟩
      · intro hsome
        cases hsome
      · intro h
        obtain ⟨-, attempt, hle, hanswered⟩ := h
        exact absurd hanswered (hnone attempt hle (by rw [Nat.sub_self]; exact Nat.zero_le _))

theorem answerAgentNode_returns (env : Env ω) (state : GraphState ω) (run : Run (PlatformDb ε κ)) :
    ∃ response, answerAgentNode env state run = (.ok { state with result := some response }, run) ∧
      (response.answerMode = some .answered ↔ state.retrievedChunks ≠ [] ∧ ∃ attempt ≤ maxRetries,
        Answered (env.attempts attempt) (answeredQuery state) state.retrievedChunks
          (env.formatMemoryContext state.recalledMemories)) := by
  obtain ⟨answer, hgenerated, hanswered⟩ := generateGrounded_returns env state run
  refine ⟨toResponse state answer, ?_, ?_⟩
  · unfold answerAgentNode
    rw [Service.bind_of_ok hgenerated]
    rfl
  · rw [← hanswered]
    cases answer with
    | none | some answer => simp [toResponse]

end Node

/-- An attempt is exact unless a grounded sentence nests a marker, and the node answers
whenever an attempt does. -/
theorem answer_exact_iff (oracles : Oracles) (query : String)
    (chunks : List (Retrieval.ScoredChunk ω)) (memoryContext : String) (env : Env ω)
    (state : GraphState ω) (run : Run (PlatformDb ε κ)) (hchunks : chunks ≠ []) :
    ((∃ outcome, generateAnswerWithOutcome oracles.model query chunks memoryContext = .ok outcome ∧
      oracles.Exact query chunks memoryContext outcome) ↔
        oracles.Clean query chunks memoryContext) ∧
    ∃ response, answerAgentNode env state run = (.ok { state with result := some response }, run) ∧
      (response.answerMode = some .answered ↔ state.retrievedChunks ≠ [] ∧ ∃ attempt ≤ maxRetries,
        Answered (env.attempts attempt) (answeredQuery state) state.retrievedChunks
          (env.formatMemoryContext state.recalledMemories)) :=
  ⟨Oracles.exact_iff_clean query memoryContext hchunks, answerAgentNode_returns env state run⟩

/-! ## A marker inside a marker -/

/-- A model that finds the evidence sufficient and drafts one answer; all texts are alike. -/
def drafting (answer : String) : Oracles :=
  { assess := fun _ _ => "VERDICT: SUFFICIENT"
    generate := fun _ _ => answer
    supports := fun _ _ _ => "no"
    embedTexts := fun texts => texts.map fun _ => [1]
    dimension := 1
    length_embedTexts := fun texts => List.length_map _
    length_vector := by
      intro texts vector hvector
      obtain ⟨_, -, rfl⟩ := List.mem_map.mp hvector
      rfl }

def runbookChunk : Retrieval.ScoredChunk Nat :=
  { chunkId := 1, documentId := 2, collection := .documentation, content := "Restart the service.",
    score := 0, sourceOffsetStart := 0, sourceOffsetEnd := 20 }

/-- Without the inner marker the outer one is whole. -/
theorem marker_left : ¬ ∃ outcome, generateAnswerWithOutcome (drafting "Restart it [[1]2].").model
      "How?" [runbookChunk] "" = .ok outcome ∧
    (drafting "Restart it [[1]2].").Exact "How?" [runbookChunk] "" outcome := by
  rw [Oracles.exact_iff_clean "How?" "" (List.cons_ne_nil _ _)]
  intro hclean
  have hsurvivors : (drafting "Restart it [[1]2].").survivors "How?" [runbookChunk] "" =
      ["Restart it [[1]2].".toList] := by
    decide +kernel
  have hhidden := hclean (by decide +kernel) (by decide +kernel) "Restart it [[1]2].".toList
    (by rw [hsurvivors]; exact List.mem_singleton_self _)
  exact hhidden.1 ((hasMarker_stripMarkers _).mp ((hasMarker_iff _).mpr (by decide +kernel)))

theorem answer_exact_restart :
    (∃ outcome, generateAnswerWithOutcome (drafting "Restart it [1].").model "How?" [runbookChunk] "" =
        .ok outcome ∧ (drafting "Restart it [1].").Exact "How?" [runbookChunk] "" outcome) ∧
    ∃ response, answerAgentNode (ε := Unit) (κ := Unit)
        { attempts := fun _ => (drafting "Restart it [1].").model, formatMemoryContext := fun _ => "" }
        { query := "How?", actor := { kind := .user, subject := "7", organizationId := 1 },
          retrievedChunks := [runbookChunk] }
        { tables := { rest := () } } =
      (.ok { query := "How?", actor := { kind := .user, subject := "7", organizationId := 1 },
             retrievedChunks := [runbookChunk], result := some response }, { tables := { rest := () } }) := by
  obtain ⟨hexact, response, hnode, -⟩ := answer_exact_iff (ε := Unit) (κ := Unit)
    (drafting "Restart it [1].") "How?" [runbookChunk] ""
    { attempts := fun _ => (drafting "Restart it [1].").model, formatMemoryContext := fun _ => "" }
    { query := "How?", actor := { kind := .user, subject := "7", organizationId := 1 },
      retrievedChunks := [runbookChunk] }
    { tables := { rest := () } } (List.cons_ne_nil _ _)
  refine ⟨hexact.mpr ?_, response, hnode⟩
  have hsurvivors : (drafting "Restart it [1].").survivors "How?" [runbookChunk] "" =
      ["Restart it [1].".toList] := by
    decide +kernel
  intro _ _ sentence hsentence
  rw [hsurvivors] at hsentence
  obtain rfl := List.mem_singleton.mp hsentence
  rw [← hasMarker_stripMarkers, hasMarker_iff]
  simp only [← mem_markers_iff]
  exact ⟨by decide +kernel, by decide +kernel⟩

end Ekip.Agents.Answer
