import Ekip.Agents.Investigation.Evidence
import Ekip.Retrieval.Filtering

/-!
# What an investigation gathers, it gathers once

The sources come one after the other, each with its own kind of item. What tells code from
runbooks is the metadata of the document, which both searches read alike. A source that fails
is a source that found nothing; only a timestamp without a zone gets out of the gathering.
-/
namespace Ekip.Agents.Investigation.Evidence

open Ekip.Lib Ekip.Database Ekip.Shared Ekip.Core Ekip.Retrieval

variable {ε τ ω α : Type}

/-! ## What a source answers -/

/-- What is answered in the end was answered to some attempt. -/
theorem callWithRetry_ok {operation : Nat → Asked α} {a : α} {remaining : Nat}
    (h : (callWithRetry operation remaining).2 = .ok a) :
    ∃ attempt, (operation attempt).2 = .ok a := by
  induction remaining with
  | zero => exact ⟨maxRetries, h⟩
  | succ remaining ih =>
    unfold callWithRetry at h
    split at h
    case h_1 hfirst => exact ⟨_, (congrArg Prod.snd hfirst).trans h⟩
    case h_2 => exact ih h

theorem attempted_ok {env : Env ε τ ω} {source : Source} {attempt : Nat} {answer : Except Exn α}
    {a : α} (h : attempted env source attempt answer = .ok a) : answer = .ok a := by
  unfold attempted at h
  split at h
  case h_1 => cases h
  case h_2 => exact h

theorem retried_ok {answer : Except Exn α} {env : Env ε τ ω} {source : Source} {a : α}
    (h : retried env source answer = .ok a) : answer = .ok a := by
  obtain ⟨attempt, hattempt⟩ := callWithRetry_ok h
  exact attempted_ok hattempt

/-- The chunks of a search with metadata: their collection, and the metadata of their documents. -/
theorem searchEvidence_shows {engine : Engine ε τ ω} {query : String} {filters : SearchFilters}
    {collection : CollectionName} {db : ContentDb ε} {chunks : List (ScoredChunk ω)}
    (h : searchEvidence engine query filters collection true db = .ok chunks) :
    ∀ c ∈ chunks, c.collection = collection ∧ Described db c := by
  intro c hc
  have hshows := (service_search_shows h c hc).1
  exact ⟨List.mem_singleton.mp hshows, service_search_described h c hc⟩

section Sources

variable {env : Env ε τ ω} {query : String} {actor : Identity} {db : EvidenceDb ε}

/-- What is code comes from the code, or from a document of a repository. -/
theorem code_answer {codeChunks docChunks : List (ScoredChunk ω)}
    (h : (answersOf env query actor db).code = .ok (codeChunks, docChunks)) :
    (∀ c ∈ codeChunks, c.collection = .code) ∧
      ∀ c ∈ docChunks, c.collection = .documentation ∧ Described db.toContentDb c := by
  have hsearch := retried_ok h
  obtain ⟨codeChunks', hcode, hsearch⟩ := Query.bind_ok.mp hsearch
  obtain ⟨docChunks', hdocs, hsearch⟩ := Query.bind_ok.mp hsearch
  cases hsearch
  exact ⟨fun c hc => (searchEvidence_shows hcode c hc).1, searchEvidence_shows hdocs⟩

theorem knowledge_answer {chunks : List (ScoredChunk ω)}
    (h : (answersOf env query actor db).knowledge = .ok chunks) :
    ∀ c ∈ chunks, Described db.toContentDb c :=
  fun c hc => (searchEvidence_shows (retried_ok h) c hc).2

end Sources

/-! ## Items and what they are made of -/

/-- What the sites are asked for. -/
def IsLive (source : EvidenceSource) : Prop :=
  source = .issue ∨ source = .pullRequest ∨ source = .commit ∨ source = .slack

/-- The item is what the code makes of its origin. -/
def Origin.Made (now : Datetime) (item : GatheredItem) : Origin ω → Prop
  | .code chunk => item = chunkToEvidence now none chunk
  | .runbook chunk => item = chunkToEvidence now (some .runbook) chunk
  | .slack chunk => item = chunkToEvidence now (some .slack) chunk
  | .postmortem row => item = postmortemItem now row
  | .live _ => IsLive item.source

/-- All items have this place in the order. -/
def AtPriority (priority : Nat) (evidence : Gathered ω) : Prop :=
  ∀ entry ∈ evidence, entry.1.priority = priority

variable {now : Datetime} {le : ω → ω → Bool} {evidence more : Gathered ω}

theorem gatherCode_mem {answer : Except Exn (List (ScoredChunk ω) × List (ScoredChunk ω))}
    {entry : Origin ω × GatheredItem} (h : entry ∈ gatherCodeEvidence now le answer) :
    ∃ codeChunks docChunks chunk, answer = .ok (codeChunks, docChunks) ∧
      entry = (.code chunk, chunkToEvidence now none chunk) ∧
      (chunk ∈ codeChunks ∨ chunk ∈ docChunks ∧ hasRepo chunk = true) := by
  unfold gatherCodeEvidence at h
  split at h
  case h_1 => cases h
  case h_2 found =>
    obtain ⟨chunk, hchunk, rfl⟩ := List.mem_map.mp h
    exact ⟨found.1, found.2, chunk, rfl, rfl, mem_combined hchunk⟩

theorem gatherKnowledge_mem {answer : Except Exn (List (ScoredChunk ω))}
    {entry : Origin ω × GatheredItem} (h : entry ∈ gatherKnowledgeEvidence now answer) :
    ∃ chunks chunk, answer = .ok chunks ∧ chunk ∈ chunks ∧ hasRepo chunk = false ∧
      entry = (.runbook chunk, chunkToEvidence now (some .runbook) chunk) := by
  unfold gatherKnowledgeEvidence at h
  split at h
  case h_1 => cases h
  case h_2 chunks =>
    obtain ⟨chunk, hchunk, rfl⟩ := List.mem_map.mp h
    obtain ⟨hmem, hrepo⟩ := List.mem_filter.mp hchunk
    exact ⟨chunks, chunk, rfl, hmem, by simpa using hrepo, rfl⟩

theorem gatherSlack_mem {answer : Except Exn (List (ScoredChunk ω))}
    {entry : Origin ω × GatheredItem} (h : entry ∈ gatherSlackEvidence now answer) :
    ∃ chunk, entry = (.slack chunk, chunkToEvidence now (some .slack) chunk) := by
  unfold gatherSlackEvidence at h
  split at h
  case h_1 => cases h
  case h_2 =>
    obtain ⟨chunk, -, rfl⟩ := List.mem_map.mp h
    exact ⟨chunk, rfl⟩

theorem gatherPostmortem_mem {answer : Except Exn (List Incidents.PostmortemRow)}
    {entry : Origin ω × GatheredItem} (h : entry ∈ gatherPostmortemEvidence now answer evidence) :
    ∃ row, entry = (.postmortem row, postmortemItem now row) ∧
      isDuplicateOfRunbookEvidence
        ((evidence.map Prod.snd).filter fun item => item.source = .runbook) row = false := by
  unfold gatherPostmortemEvidence at h
  split at h
  case h_1 => cases h
  case h_2 =>
    obtain ⟨row, hrow, rfl⟩ := List.mem_map.mp h
    exact ⟨row, rfl, by simpa using (List.mem_filter.mp hrow).2⟩

/-! ## Live items -/

theorem newestFirst_mem {since : Datetime} {items sorted : List GatheredItem}
    (h : newestFirst since items = .ok sorted) : ∀ item ∈ sorted, item ∈ items := by
  unfold newestFirst at h
  dsimp only at h
  split at h
  case isTrue => cases h
  case isFalse =>
    cases h
    exact fun item hitem => Query.mem_orderBy.mp hitem

theorem fetchGithub_isLive {sites : Sites} {clock : Clock} {authorization query : String}
    {settings : LiveSettings} {limit : Nat} {items : List GatheredItem}
    (h : (fetchGithub sites clock authorization query settings limit).2 = .ok items) :
    ∀ item ∈ items, IsLive item.source := by
  intro item hitem
  obtain ⟨sorted, hsorted, rfl⟩ := Query.map_ok.mp h
  have hmem := newestFirst_mem hsorted item (List.mem_of_mem_take hitem)
  obtain ⟨repo, -, hrepo⟩ := List.mem_flatMap.mp hmem
  rcases List.mem_append.mp hrepo with hissue | hcommit
  · unfold searchIssuesAndPulls at hissue
    split at hissue
    case h_1 => cases hissue
    case h_2 =>
      obtain ⟨hit, -, rfl⟩ := List.mem_map.mp hissue
      unfold issueItem IsLive
      by_cases hpull : hit.isPullRequest = true
      · exact .inr (.inl (if_pos hpull))
      · exact .inl (if_neg hpull)
  · unfold searchCommits at hcommit
    split at hcommit
    case h_1 => cases hcommit
    case h_2 =>
      obtain ⟨hit, -, rfl⟩ := List.mem_map.mp hcommit
      exact .inr (.inr (.inl rfl))

theorem fetchSlack_isLive {sites : Sites} {clock : Clock} {authorization query : String}
    {settings : LiveSettings} {limit : Nat} {items : List GatheredItem}
    (h : (fetchSlack sites clock authorization query settings limit).2 = .ok items) :
    ∀ item ∈ items, IsLive item.source := by
  intro item hitem
  obtain ⟨sorted, hsorted, rfl⟩ := Query.map_ok.mp h
  have hmem := newestFirst_mem hsorted item (List.mem_of_mem_take hitem)
  obtain ⟨channelId, -, hchannel⟩ := List.mem_flatMap.mp hmem
  unfold fetchChannelMatches at hchannel
  split at hchannel
  case h_1 => cases hchannel
  case h_2 history _ =>
    by_cases hok : history.ok = true
    · rw [if_pos hok] at hchannel
      obtain ⟨message, -, rfl⟩ := List.mem_map.mp hchannel
      exact .inr (.inr (.inr rfl))
    · rw [if_neg hok] at hchannel
      cases hchannel

theorem askLive_isLive {env : Env ε τ ω} {query : String} {position : Nat} {connector : Connector}
    {asked : Asked (List GatheredItem)} {items : List GatheredItem}
    (h : askLive env query position connector = some asked) (hok : asked.2 = .ok items) :
    ∀ item ∈ items, IsLive item.source := by
  obtain ⟨fetchLiveEvidence, hfetch, rfl⟩ := Option.map_eq_some_iff.mp h
  obtain ⟨attempt, hattempt⟩ := callWithRetry_ok hok
  have hanswer := attempted_ok hattempt
  unfold liveSources at hfetch
  split at hfetch
  case h_1 =>
    cases hfetch
    exact fetchGithub_isLive hanswer
  case h_2 =>
    cases hfetch
    exact fetchSlack_isLive hanswer
  case h_3 =>
    cases hfetch
    cases hanswer
    intro item hitem
    cases hitem
  case h_4 => cases hfetch

/-- An item comes of the answer of one active connector. -/
theorem gatherLive_mem {answers : Answers ω} {entry : Origin ω × GatheredItem}
    (h : entry ∈ (gatherLiveEvidence answers).2) :
    ∃ connectorConfigs position connector asked items,
      answers.connectors = .ok connectorConfigs ∧
      connectorConfigs[position]? = some connector ∧ connector.status = .active ∧
      answers.live position connector = some asked ∧ asked.2 = .ok items ∧
      entry.1 = .live position ∧ entry.2 ∈ items := by
  unfold gatherLiveEvidence at h
  split at h
  case h_1 => cases h
  case h_2 connectorConfigs _ =>
    obtain ⟨⟨connector, position⟩, hconnector, hentry⟩ := List.mem_flatMap.mp h
    have hposition := List.mem_zipIdx_iff_getElem?.mp hconnector
    unfold askConnector at hentry
    split at hentry
    case isFalse => cases hentry
    case isTrue hactive =>
      split at hentry
      case h_1 => cases hentry
      case h_2 requests outcome hasked =>
        dsimp only at hentry
        split at hentry
        case h_1 => cases hentry
        case h_2 items =>
          obtain ⟨item, hitem, rfl⟩ := List.mem_map.mp hentry
          exact ⟨connectorConfigs, position, connector, _, items, by assumption, hposition,
            hactive, hasked, rfl, rfl, hitem⟩

/-! ## One source after the other -/

/-- The code comes first, and of each later source all or nothing. -/
theorem indexedEvidence_eq (answers : Answers ω) : ∃ knowledge slack postmortems,
    indexedEvidence now le answers =
        gatherCodeEvidence now le answers.code ++ knowledge ++ slack ++ postmortems ∧
      (knowledge = gatherKnowledgeEvidence now answers.knowledge ∨ knowledge = []) ∧
      (slack = gatherSlackEvidence now answers.slack ∨ slack = []) ∧
      (postmortems = gatherPostmortemEvidence now answers.postmortems
          (gatherCodeEvidence now le answers.code ++ knowledge ++ slack) ∨ postmortems = []) := by
  have hshort (evidence more : Gathered ω) :
      ∃ added, whileShort evidence more = evidence ++ added ∧ (added = more ∨ added = []) := by
    unfold whileShort
    by_cases h : evidence.length < evidenceCap
    · exact ⟨more, if_pos h, .inl rfl⟩
    · exact ⟨[], (if_neg h).trans (List.append_nil _).symm, .inr rfl⟩
  have hnothing (evidence : Gathered ω) : whileShort evidence [] = evidence := by
    unfold whileShort
    by_cases h : evidence.length < evidenceCap
    · rw [if_pos h, List.append_nil]
    · rw [if_neg h]
  unfold indexedEvidence
  dsimp only
  obtain ⟨knowledge, hknowledge, hall⟩ := hshort (gatherCodeEvidence now le answers.code)
    (gatherKnowledgeEvidence now answers.knowledge)
  rw [hknowledge]
  obtain ⟨slack, hslack, hall'⟩ := hshort (gatherCodeEvidence now le answers.code ++ knowledge)
    (gatherSlackEvidence now answers.slack)
  rw [hslack, hnothing, hnothing]
  obtain ⟨postmortems, hpostmortems, hall''⟩ :=
    hshort (gatherCodeEvidence now le answers.code ++ knowledge ++ slack)
      (gatherPostmortemEvidence now answers.postmortems
        (gatherCodeEvidence now le answers.code ++ knowledge ++ slack))
  rw [hpostmortems]
  exact ⟨knowledge, slack, postmortems, rfl, hall, hall', hall''⟩

theorem AtPriority.nil (priority : Nat) : AtPriority priority ([] : Gathered ω) :=
  fun _ h => absurd h List.not_mem_nil

/-- In the order of the sources, and no later source than this one. -/
structure Upto (priority : Nat) (evidence : Gathered ω) : Prop where
  ordered : evidence.Pairwise fun a b => a.1.priority ≤ b.1.priority
  bounded : ∀ entry ∈ evidence, entry.1.priority ≤ priority

theorem Upto.nil : Upto 0 ([] : Gathered ω) := ⟨List.Pairwise.nil, by simp⟩

theorem Upto.append {earlier priority : Nat} (h : Upto earlier evidence)
    (hmore : AtPriority priority more) (hle : earlier ≤ priority) :
    Upto priority (evidence ++ more) where
  ordered := by
    refine List.pairwise_append.mpr ⟨h.ordered, ?_, fun a ha b hb => ?_⟩
    · refine List.pairwise_of_forall_mem_list fun a ha b hb => ?_
      have hpa := hmore a ha
      have hpb := hmore b hb
      omega
    · have hpa := h.bounded a ha
      have hpb := hmore b hb
      omega
  bounded entry hentry := by
    rcases List.mem_append.mp hentry with hin | hin
    · have hbound := h.bounded entry hin
      omega
    · have hequal := hmore entry hin
      omega

theorem indexed_upto (answers : Answers ω) : Upto 5 (indexedEvidence now le answers) := by
  obtain ⟨knowledge, slack, postmortems, heq, hknowledge, hslack, hpostmortems⟩ :=
    @indexedEvidence_eq ω now le answers
  have hcode : AtPriority 1 (gatherCodeEvidence now le answers.code) := by
    intro entry hentry
    obtain ⟨-, -, chunk, -, rfl, -⟩ := gatherCode_mem hentry
    rfl
  have hrunbook : AtPriority 2 knowledge := by
    rcases hknowledge with rfl | rfl
    · intro entry hentry
      obtain ⟨-, chunk, -, -, -, rfl⟩ := gatherKnowledge_mem hentry
      rfl
    · exact .nil 2
  have hmessages : AtPriority 3 slack := by
    rcases hslack with rfl | rfl
    · intro entry hentry
      obtain ⟨chunk, rfl⟩ := gatherSlack_mem hentry
      rfl
    · exact .nil 3
  have hreports : AtPriority 5 postmortems := by
    rcases hpostmortems with rfl | rfl
    · intro entry hentry
      obtain ⟨row, rfl, -⟩ := gatherPostmortem_mem hentry
      rfl
    · exact .nil 5
  rw [heq]
  have hfirst := Upto.nil.append hcode (by omega)
  rw [List.nil_append] at hfirst
  exact ((hfirst.append hrunbook (by omega)).append hmessages (by omega)).append hreports (by omega)

/-! ## Gathered once -/

/-- What a gathering holds. -/
structure GatheredOnce (now : Datetime) (evidence : Gathered ω) : Prop where
  capped : evidence.length ≤ evidenceCap
  ordered : evidence.Pairwise fun a b => a.1.priority ≤ b.1.priority
  made : ∀ entry ∈ evidence, entry.1.Made now entry.2
  /-- A chunk of the documentation is code or a runbook. -/
  apart : ∀ code item runbook item', (.code code, item) ∈ evidence →
    (.runbook runbook, item') ∈ evidence → code.collection = .documentation →
    ¬ (code.chunkId = runbook.chunkId ∧ code.documentId = runbook.documentId)
  deduplicated : ∀ row item entry, (.postmortem row, item) ∈ evidence → entry ∈ evidence →
    entry.2.source = .runbook → incidentIdOf entry.2 ≠ some (toString row.incidentId)

section Once

variable {env : Env ε τ ω} {query : String} {actor : Identity} {db : EvidenceDb ε}

/-- Where an item of the index comes from. -/
theorem indexed_mem {answers : Answers ω} {entry : Origin ω × GatheredItem}
    (h : entry ∈ indexedEvidence now le answers) :
    entry ∈ gatherCodeEvidence now le answers.code ∨
      entry ∈ gatherKnowledgeEvidence now answers.knowledge ∨
      entry ∈ gatherSlackEvidence now answers.slack ∨
      ∃ evidence, entry ∈ gatherPostmortemEvidence now answers.postmortems evidence ∧
        ∀ other ∈ indexedEvidence now le answers, other.2.source = .runbook → other ∈ evidence := by
  obtain ⟨knowledge, slack, postmortems, heq, hknowledge, hslack, hpostmortems⟩ :=
    @indexedEvidence_eq ω now le answers
  rw [heq, List.mem_append, List.mem_append, List.mem_append] at h
  rcases h with ((hcode | hrunbook) | hmessage) | hreport
  · exact .inl hcode
  · rcases hknowledge with rfl | rfl
    · exact .inr (.inl hrunbook)
    · cases hrunbook
  · rcases hslack with rfl | rfl
    · exact .inr (.inr (.inl hmessage))
    · cases hmessage
  · rcases hpostmortems with rfl | rfl
    · refine .inr (.inr (.inr ⟨_, hreport, fun other hother hsource => ?_⟩))
      rw [heq, List.mem_append] at hother
      rcases hother with hearlier | hreport'
      · exact hearlier
      · obtain ⟨row, rfl, -⟩ := gatherPostmortem_mem hreport'
        cases hsource
    · cases hreport

theorem indexed_made {answers : Answers ω} :
    ∀ entry ∈ indexedEvidence now le answers, entry.1.Made now entry.2 := by
  intro entry hentry
  rcases indexed_mem hentry with hcode | hrunbook | hmessage | ⟨evidence, hreport, -⟩
  · obtain ⟨-, -, chunk, -, rfl, -⟩ := gatherCode_mem hcode
    rfl
  · obtain ⟨-, chunk, -, -, -, rfl⟩ := gatherKnowledge_mem hrunbook
    rfl
  · obtain ⟨chunk, rfl⟩ := gatherSlack_mem hmessage
    rfl
  · obtain ⟨row, rfl, -⟩ := gatherPostmortem_mem hreport
    rfl

/-- Items of the sites have their own origin and sources. -/
theorem live_made {entry : Origin ω × GatheredItem}
    (h : entry ∈ (gatherLiveEvidence (answersOf env query actor db)).2) :
    (∃ position, entry.1 = .live position) ∧ IsLive entry.2.source := by
  obtain ⟨-, position, connector, asked, items, -, -, -, hasked, hok, horigin, hitem⟩ :=
    gatherLive_mem h
  exact ⟨⟨position, horigin⟩, askLive_isLive hasked hok entry.2 hitem⟩

theorem live_atPriority : AtPriority 7 (gatherLiveEvidence (answersOf env query actor db)).2 := by
  intro entry hentry
  obtain ⟨⟨position, horigin⟩, -⟩ := live_made hentry
  rw [horigin]
  rfl

theorem not_runbook_of_isLive {source : EvidenceSource} (h : IsLive source) : source ≠ .runbook := by
  rintro rfl
  unfold IsLive at h
  simp at h

variable {live : Gathered ω}

theorem gathered_mem
    (hlive : live = [] ∨ live = (gatherLiveEvidence (answersOf env query actor db)).2)
    {entry : Origin ω × GatheredItem} {n : Nat}
    (h : entry ∈ (indexedEvidence now le (answersOf env query actor db) ++ live).take n) :
    entry ∈ indexedEvidence now le (answersOf env query actor db) ∨
      entry ∈ (gatherLiveEvidence (answersOf env query actor db)).2 := by
  rcases List.mem_append.mp (List.mem_of_mem_take h) with hindexed | hin
  · exact .inl hindexed
  · rcases hlive with rfl | rfl
    · cases hin
    · exact .inr hin

/-- Code that is a document is of a repository, and no runbook is. -/
theorem indexed_apart {code runbook : ScoredChunk ω} {item item' : GatheredItem}
    (hcode : (.code code, item) ∈ indexedEvidence now le (answersOf env query actor db))
    (hrunbook : (.runbook runbook, item') ∈ indexedEvidence now le (answersOf env query actor db))
    (hcollection : code.collection = .documentation) : code.documentId ≠ runbook.documentId := by
  intro hdocument
  have hmade : hasRepo code = true ∧ Described db.toContentDb code := by
    rcases indexed_mem hcode with hin | hin | hin | ⟨evidence, hin, -⟩
    · obtain ⟨codeChunks, docChunks, chunk, hanswer, heq, hchunk⟩ := gatherCode_mem hin
      obtain ⟨hall, hdocs⟩ := code_answer hanswer
      cases heq
      rcases hchunk with hfile | ⟨hdoc, hrepo⟩
      · rw [hall code hfile] at hcollection
        cases hcollection
      · exact ⟨hrepo, (hdocs code hdoc).2⟩
    · obtain ⟨-, chunk, -, -, -, heq⟩ := gatherKnowledge_mem hin
      cases heq
    · obtain ⟨chunk, heq⟩ := gatherSlack_mem hin
      cases heq
    · obtain ⟨row, heq, -⟩ := gatherPostmortem_mem hin
      cases heq
  have hmade' : hasRepo runbook = false ∧ Described db.toContentDb runbook := by
    rcases indexed_mem hrunbook with hin | hin | hin | ⟨evidence, hin, -⟩
    · obtain ⟨-, -, chunk, -, heq, -⟩ := gatherCode_mem hin
      cases heq
    · obtain ⟨chunks, chunk, hanswer, hchunk, hrepo, heq⟩ := gatherKnowledge_mem hin
      cases heq
      exact ⟨hrepo, knowledge_answer hanswer runbook hchunk⟩
    · obtain ⟨chunk, heq⟩ := gatherSlack_mem hin
      cases heq
    · obtain ⟨row, heq, -⟩ := gatherPostmortem_mem hin
      cases heq
  have hmetadata : code.metadata = runbook.metadata := by
    rw [hmade.2, hmade'.2, hdocument]
  have hsame : hasRepo code = hasRepo runbook := by
    unfold hasRepo
    rw [hmetadata]
  rw [hmade.1, hmade'.1] at hsame
  cases hsame

/-- A postmortem that a runbook names by its incident is left out. -/
theorem indexed_deduplicated {answers : Answers ω} {row : Incidents.PostmortemRow}
    {item : GatheredItem} {entry : Origin ω × GatheredItem}
    (hrow : (.postmortem row, item) ∈ indexedEvidence now le answers)
    (hentry : entry ∈ indexedEvidence now le answers) (hsource : entry.2.source = .runbook) :
    incidentIdOf entry.2 ≠ some (toString row.incidentId) := by
  intro hincident
  rcases indexed_mem hrow with hin | hin | hin | ⟨evidence, hin, hall⟩
  · obtain ⟨-, -, chunk, -, heq, -⟩ := gatherCode_mem hin
    cases heq
  · obtain ⟨-, chunk, -, -, -, heq⟩ := gatherKnowledge_mem hin
    cases heq
  · obtain ⟨chunk, heq⟩ := gatherSlack_mem hin
    cases heq
  · obtain ⟨row', heq, hnot⟩ := gatherPostmortem_mem hin
    cases heq
    have hrunbook : entry.2 ∈ (evidence.map Prod.snd).filter fun item => item.source = .runbook :=
      List.mem_filter.mpr ⟨List.mem_map_of_mem (hall entry hentry hsource), by simpa using hsource⟩
    have hcorrelated : (((evidence.map Prod.snd).filter fun item =>
        item.source = .runbook).filterMap incidentIdOf).contains (toString row.incidentId) = true := by
      rw [List.contains_iff_mem]
      exact List.mem_filterMap.mpr ⟨entry.2, hrunbook, hincident⟩
    unfold isDuplicateOfRunbookEvidence at hnot
    dsimp only at hnot
    rw [if_pos hcorrelated] at hnot
    cases hnot

theorem gathered_once
    (hlive : live = [] ∨ live = (gatherLiveEvidence (answersOf env query actor db)).2) :
    GatheredOnce now ((indexedEvidence now le (answersOf env query actor db) ++ live).take
      evidenceCap) where
  capped := List.length_take_le _ _
  ordered := by
    have hpriority : AtPriority 7 live := by
      rcases hlive with rfl | rfl
      · exact .nil 7
      · exact live_atPriority
    exact ((indexed_upto _).append hpriority (by omega)).ordered.sublist (List.take_sublist _ _)
  made := by
    intro entry hentry
    rcases gathered_mem hlive hentry with hin | hin
    · exact indexed_made entry hin
    · obtain ⟨⟨position, horigin⟩, hsource⟩ := live_made hin
      rw [horigin]
      exact hsource
  apart := by
    rintro code item runbook item' hcode hrunbook hcollection ⟨-, hdocument⟩
    rcases gathered_mem hlive hcode with hcode | hcode
    · rcases gathered_mem hlive hrunbook with hrunbook | hrunbook
      · exact indexed_apart hcode hrunbook hcollection hdocument
      · obtain ⟨⟨position, horigin⟩, -⟩ := live_made hrunbook
        cases horigin
    · obtain ⟨⟨position, horigin⟩, -⟩ := live_made hcode
      cases horigin
  deduplicated := by
    intro row item entry hrow hentry hsource
    rcases gathered_mem hlive hrow with hrow | hrow
    · rcases gathered_mem hlive hentry with hentry | hentry
      · exact indexed_deduplicated hrow hentry hsource
      · exact absurd hsource (not_runbook_of_isLive (live_made hentry).2)
    · obtain ⟨⟨position, horigin⟩, -⟩ := live_made hrow
      cases horigin

end Once

/-! ## Times without a zone -/

def IsNaive (d : Datetime) : Prop := d.utcoffset = none

theorem subtract_eq_none {a b : Datetime} : a.subtract b = none ↔ ¬ (IsNaive a ↔ IsNaive b) := by
  unfold Datetime.subtract IsNaive
  cases a.utcoffset <;> cases b.utcoffset <;> simp

/-- The newest of the times is found exactly when all of them or none has a zone. -/
theorem newest_ok (best : Datetime) (rest : List Datetime) :
    ((∃ freshest, newest best rest = .ok freshest) ↔
        ∀ timestamp ∈ rest, IsNaive timestamp ↔ IsNaive best) ∧
      ∀ freshest, newest best rest = .ok freshest → (IsNaive freshest ↔ IsNaive best) := by
  induction rest generalizing best with
  | nil =>
    refine ⟨⟨fun _ timestamp h => ?_, fun _ => ⟨best, rfl⟩⟩, fun freshest h => ?_⟩
    · cases h
    · cases h
      exact Iff.rfl
  | cons timestamp rest ih =>
    unfold newest
    cases hahead : timestamp.subtract best with
    | none =>
      have hdiffer := subtract_eq_none.mp hahead
      refine ⟨⟨?_, fun hall => absurd (hall timestamp List.mem_cons_self) hdiffer⟩, ?_⟩
      · rintro ⟨freshest, h⟩
        cases h
      · intro freshest h
        cases h
    | some ahead =>
      have hsame : IsNaive timestamp ↔ IsNaive best := by
        by_contra hdiffer
        rw [subtract_eq_none.mpr hdiffer] at hahead
        cases hahead
      have hnext : IsNaive (if 0 < ahead then timestamp else best) ↔ IsNaive best := by
        by_cases h : 0 < ahead
        · rw [if_pos h]
          exact hsame
        · rw [if_neg h]
      obtain ⟨hfound, hkind⟩ := ih (if 0 < ahead then timestamp else best)
      refine ⟨hfound.trans ?_, fun freshest h => (hkind freshest h).trans hnext⟩
      constructor
      · intro hall other hother
        rcases List.mem_cons.mp hother with rfl | hother
        · exact hsame
        · exact (hall other hother).trans hnext
      · intro hall other hother
        exact (hall other (List.mem_cons_of_mem _ hother)).trans hnext.symm

/-- Every item with a time has it with its zone. -/
def Zoned (items : List GatheredItem) : Prop :=
  ∀ item ∈ items, ∀ timestamp, item.sourceTimestamp = some timestamp → ¬ IsNaive timestamp

theorem zoned_iff {items : List GatheredItem} : Zoned items ↔
    ∀ timestamp ∈ items.filterMap GatheredItem.sourceTimestamp, ¬ IsNaive timestamp := by
  unfold Zoned
  constructor
  · intro h timestamp htimestamp
    obtain ⟨item, hitem, hsome⟩ := List.mem_filterMap.mp htimestamp
    exact h item hitem timestamp hsome
  · intro h item hitem timestamp hsome
    exact h timestamp (List.mem_filterMap.mpr ⟨item, hitem, hsome⟩)

theorem shouldAugment_ok (items : List GatheredItem) (incidentId : Option Uuid)
    (hnow : ¬ IsNaive now) : (∃ asked, shouldAugmentWithLiveEvidence now items incidentId = .ok asked) ↔
      (incidentId = none → liveEvidenceMinCount ≤ items.length → Zoned items) := by
  unfold shouldAugmentWithLiveEvidence
  by_cases hincident : incidentId.isSome = true
  · rw [if_pos hincident]
    refine ⟨fun _ hnone => ?_, fun _ => ⟨true, rfl⟩⟩
    rw [hnone] at hincident
    cases hincident
  · rw [if_neg hincident]
    have hnone : incidentId = none := by simpa using hincident
    by_cases hfew : items.length < liveEvidenceMinCount
    · rw [if_pos hfew]
      exact ⟨fun _ _ hmany => absurd hmany (not_le.mpr hfew), fun _ => ⟨true, rfl⟩⟩
    · rw [if_neg hfew, zoned_iff]
      cases htimes : items.filterMap GatheredItem.sourceTimestamp with
      | nil =>
        refine ⟨fun _ _ _ timestamp h => ?_, fun _ => ⟨true, rfl⟩⟩
        cases h
      | cons timestamp rest =>
        dsimp only
        obtain ⟨hfound, hkind⟩ := newest_ok timestamp rest
        constructor
        · rintro ⟨asked, hasked⟩ - -
          obtain ⟨freshest, hfreshest, hage⟩ := Query.bind_ok.mp hasked
          have hfreshest' : ¬ IsNaive freshest := by
            intro hnaive
            have hage' : now.subtract freshest = none :=
              subtract_eq_none.mpr fun hsame => hnow (hsame.mpr hnaive)
            rw [hage'] at hage
            cases hage
          have hfirst : ¬ IsNaive timestamp :=
            fun hnaive => hfreshest' ((hkind freshest hfreshest).mpr hnaive)
          intro other hother
          rcases List.mem_cons.mp hother with rfl | hother
          · exact hfirst
          · exact fun hnaive =>
              hfirst ((hfound.mp ⟨freshest, hfreshest⟩ other hother).mp hnaive)
        · intro hzoned
          have hzoned' := hzoned hnone (not_lt.mp hfew)
          have hfirst := hzoned' timestamp List.mem_cons_self
          obtain ⟨freshest, hfreshest⟩ := hfound.mpr fun other hother =>
            iff_of_false (hzoned' other (List.mem_cons_of_mem _ hother)) hfirst
          have hfreshest' : ¬ IsNaive freshest := fun hnaive =>
            hfirst ((hkind freshest hfreshest).mp hnaive)
          obtain ⟨age, hage⟩ : ∃ age, now.subtract freshest = some age := by
            refine Option.ne_none_iff_exists'.mp fun hnone' => ?_
            exact subtract_eq_none.mp hnone' (iff_of_false hnow hfreshest')
          refine ⟨decide (freshnessWindow < age), Query.bind_ok.mpr ⟨freshest, hfreshest, ?_⟩⟩
          rw [hage]

/-! ## Failing sources -/

/-- A failure is nothing found. -/
def spare (nothing : α) : Except Exn α → Except Exn α
  | .ok a => .ok a
  | .error _ => .ok nothing

/-- The answers, but that this source answers with nothing where it failed. -/
def Answers.spared (answers : Answers ω) : Source → Answers ω
  | .code => { answers with code := spare ([], []) answers.code }
  | .knowledge => { answers with knowledge := spare [] answers.knowledge }
  | .slack => { answers with slack := spare [] answers.slack }
  | .postmortems => { answers with postmortems := spare [] answers.postmortems }
  | .connectors => { answers with connectors := spare [] answers.connectors }
  | .live position =>
    { answers with
      live := fun other connector =>
        if other = position then
          (answers.live other connector).map fun asked => (asked.1, spare [] asked.2)
        else answers.live other connector }

theorem askConnector_spared (answers : Answers ω) (position : Nat) (entry : Connector × Nat) :
    askConnector (answers.spared (.live position)) entry = askConnector answers entry := by
  unfold askConnector Answers.spared
  dsimp only
  by_cases hactive : entry.1.status = .active
  · rw [if_pos hactive, if_pos hactive]
    by_cases hposition : entry.2 = position
    · rw [if_pos hposition]
      cases hlive : answers.live entry.2 entry.1 with
      | none => rfl
      | some asked =>
        obtain ⟨requests, outcome⟩ := asked
        cases outcome <;> rfl
    · rw [if_neg hposition]
  · rw [if_neg hactive, if_neg hactive]

/-- A failing source changes nothing but its own items. -/
theorem gatherFrom_spared (enabled : Bool) (incidentId : Option Uuid) (answers : Answers ω)
    (source : Source) :
    gatherFrom now le enabled incidentId (answers.spared source) =
      gatherFrom now le enabled incidentId answers := by
  have hindexed : indexedEvidence now le (answers.spared source) = indexedEvidence now le answers := by
    have hcode : gatherCodeEvidence now le (spare ([], []) answers.code) =
        gatherCodeEvidence now le answers.code := by
      cases answers.code with
      | ok found => rfl
      | error e => simp [gatherCodeEvidence, spare, combined, Query.orderBy, Query.sliceTo]
    have hknowledge : gatherKnowledgeEvidence now (spare [] answers.knowledge) =
        gatherKnowledgeEvidence now answers.knowledge := by
      cases answers.knowledge <;> rfl
    have hslack : gatherSlackEvidence now (spare [] answers.slack) =
        gatherSlackEvidence now answers.slack := by
      cases answers.slack <;> rfl
    have hpostmortems (evidence : Gathered ω) :
        gatherPostmortemEvidence now (spare [] answers.postmortems) evidence =
          gatherPostmortemEvidence now answers.postmortems evidence := by
      cases answers.postmortems <;> rfl
    unfold indexedEvidence
    cases source <;>
      simp only [Answers.spared, hcode, hknowledge, hslack, hpostmortems]
  have hlive : gatherLiveEvidence (answers.spared source) = gatherLiveEvidence answers := by
    cases source with
    | connectors =>
      unfold gatherLiveEvidence Answers.spared
      cases answers.connectors <;> rfl
    | live position =>
      unfold gatherLiveEvidence
      simp only [askConnector_spared]
      rfl
    | code | knowledge | slack | postmortems => rfl
  unfold gatherFrom
  rw [hindexed, hlive]

/-! ## `gather_evidence` -/

theorem clock_zoned (clock : Clock) : ¬ IsNaive clock.now := by
  unfold IsNaive
  rw [clock.isUtc.1]
  simp

/-- When the live decision reads a time, the time has its zone. -/
def Timely (env : Env ε τ ω) (query : String) (actor : Identity) (incidentId : Option Uuid)
    (db : EvidenceDb ε) : Prop :=
  let indexed := indexedEvidence env.clock.now env.engine.le (answersOf env query actor db)
  indexed.length < evidenceCap → env.investigationLiveEvidenceEnabled = true →
    incidentId = none → liveEvidenceMinCount ≤ indexed.length → Zoned (indexed.map Prod.snd)

variable {env : Env ε τ ω} {query : String} {actor : Identity} {incidentId : Option Uuid}
  {db : EvidenceDb ε}

theorem gatherEvidence_once :
    (∃ evidence, (gatherEvidence env query actor incidentId db).2 = .ok evidence ∧
        GatheredOnce env.clock.now evidence) ↔ Timely env query actor incidentId db := by
  unfold gatherEvidence gatherFrom Timely
  dsimp only
  generalize hindexed : indexedEvidence env.clock.now env.engine.le
    (answersOf env query actor db) = indexed
  have honce : GatheredOnce env.clock.now (indexed.take evidenceCap) := by
    rw [← hindexed, ← List.append_nil (indexedEvidence _ _ _)]
    exact gathered_once (.inl rfl)
  by_cases hask : indexed.length < evidenceCap ∧ env.investigationLiveEvidenceEnabled = true
  · rw [if_pos hask]
    have hdecided := shouldAugment_ok (indexed.map Prod.snd) incidentId (clock_zoned env.clock)
    rw [List.length_map] at hdecided
    constructor
    · rintro ⟨evidence, hok, -⟩ - - hincident hmany
      refine hdecided.mp ?_ hincident hmany
      cases hshould : shouldAugmentWithLiveEvidence env.clock.now (indexed.map Prod.snd)
          incidentId with
      | ok asked => exact ⟨asked, rfl⟩
      | error e =>
        rw [hshould] at hok
        cases hok
    · intro htimely
      obtain ⟨asked, hasked⟩ := hdecided.mpr fun hincident hmany =>
        htimely hask.1 hask.2 hincident hmany
      rw [hasked]
      cases asked with
      | false => exact ⟨_, rfl, honce⟩
      | true =>
        refine ⟨_, rfl, ?_⟩
        rw [← hindexed]
        exact gathered_once (.inr rfl)
  · rw [if_neg hask]
    refine ⟨fun _ hshort henabled => absurd ⟨hshort, henabled⟩ hask, fun _ => ⟨_, rfl, honce⟩⟩

/-- Evidence is gathered once, whatever fails, as long as the times that are read have zones. -/
theorem gathers_once_iff (env : Env ε τ ω) (query : String) (actor : Identity)
    (incidentId : Option Uuid) (db : EvidenceDb ε) :
    ((∃ evidence, (gatherEvidence env query actor incidentId db).2 = .ok evidence ∧
          GatheredOnce env.clock.now evidence) ∧
        ∀ source, gatherFrom env.clock.now env.engine.le env.investigationLiveEvidenceEnabled
            incidentId ((answersOf env query actor db).spared source) =
          gatherEvidence env query actor incidentId db) ↔
      Timely env query actor incidentId db := by
  rw [gatherEvidence_once]
  exact and_iff_left fun source => gatherFrom_spared _ incidentId _ source

/-! ## A document dated without a zone -/

def noonUtc : Datetime := (Datetime.make (2026, 1, 5) (12, 0, 0, 0) (some 0)).get (by decide)

def planeEnv : Env (Rat × Rat) String Rat where
  engine := planeEngine
  fault _ _ := none
  sites _ _ :=
    { searchIssues := fun _ => .ok []
      searchCommits := fun _ => .ok []
      conversationsHistory := fun _ => .ok { ok := true } }
  clock :=
    { now := noonUtc, since := noonUtc, timestampText := fun _ => "", parseTs := fun _ => none
      isUtc := by decide }

def investigator : Identity where
  kind := .user
  subject := "ada"
  organizationId := 1

/-- One document, a chunk of which each collection has. -/
def datedIndex (timestamp : String) : EvidenceDb (Rat × Rat) where
  documents := (indexOf []).documents
  documentMetadata := [{ documentId := 1, key := "timestamp", value := timestamp }]
  chunks name := if name ∈ collectionModels then [runbook 1 1 (1, 0)] else []

theorem gathering_raises :
    (gatherEvidence planeEnv "restart" investigator none
      (datedIndex "2026-01-05T10:00:00")).2.toOption.isNone = true := by
  decide +kernel

/-- A date without a zone is no reason to gather nothing. -/
theorem naive_timestamp_raises : ¬ (
    (∃ evidence, (gatherEvidence planeEnv "restart" investigator none
        (datedIndex "2026-01-05T10:00:00")).2 = .ok evidence ∧ GatheredOnce noonUtc evidence) ∧
      ∀ source, gatherFrom noonUtc planeEngine.le true none
          ((answersOf planeEnv "restart" investigator (datedIndex "2026-01-05T10:00:00")).spared
            source) =
        gatherEvidence planeEnv "restart" investigator none (datedIndex "2026-01-05T10:00:00")) := by
  rintro ⟨⟨evidence, hok, -⟩, -⟩
  have hraises := gathering_raises
  rw [hok] at hraises
  cases hraises

example : (gatherEvidence planeEnv "restart" investigator none
    (datedIndex "2026-01-05T10:00:00Z")).2.toOption.map List.length = some 3 := by
  decide +kernel

end Ekip.Agents.Investigation.Evidence
