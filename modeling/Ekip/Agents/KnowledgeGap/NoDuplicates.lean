import Ekip.Agents.KnowledgeGap.Centroids
import Ekip.Agents.KnowledgeGap.Scans

/-!
# One report for each gap

A scan compares its topics with the reports that were open when it began, not with those
that it creates itself. So no report doubles another one unless two topics of one scan are
close to each other.
-/
namespace Ekip.Agents.KnowledgeGap

open Ekip.Lib Ekip.Database Ekip.Shared Ekip.Core

/-! ## Scans and dismissals -/

inductive Action
  | detect (model : Model) (draw : Draw)
  | dismiss (actor : Identity) (gapReportId : Uuid)
  /-- The other agents write their executions. -/
  | executed (rows : List AgentExecutionRow)

section Runs

variable (settings : GapSettings) (organizationId : Uuid)

def step (db : GapDb) : Action → Option GapDb
  | .detect model draw =>
    some (Service.transaction (detectKnowledgeGaps model organizationId draw settings) db).2
  | .dismiss actor gapReportId => some (Service.transaction (dismissGapReport actor gapReportId) db).2
  | .executed rows => some { db with agentExecutions := rows }

/-- The centroids of the clusters that are large enough. -/
def survivingCentroids (model : Model) (draw : Draw) (db : GapDb) :
    Except Exn (List Embedding) :=
  let queryable := queryableExecutions organizationId draw settings db
  if queryable.length < settings.minClusterSize then .ok []
  else do
    let embeddings ← model.embedTexts (queryable.map Prod.snd)
    let clusters ← clusterBySimilarity settings.similarityThreshold embeddings
    let topics ← (clusters.filter fun memberIndices =>
      settings.minClusterSize ≤ memberIndices.length).mapM (gatherTopic queryable embeddings)
    pure (topics.map Topic.centroid)

/-- Those that no open report is close to. -/
def newCentroids (model : Model) (draw : Draw) (db : GapDb) : Except Exn (List Embedding) :=
  (survivingCentroids settings organizationId model draw db).map fun centroids =>
    centroids.filter (Unmatched (Repository.listOpenGapReports organizationId db))

/-- No new topic of the scan is close to an earlier one of it. Where vectors of any
direction are clustered together, none is the zero vector. -/
def Admissible (db : GapDb) : Action → Prop
  | .detect model draw => ∀ centroids,
      newCentroids settings organizationId model draw db = .ok centroids →
        centroids.Pairwise (fun earlier later => ¬ Similar later earlier) ∧
          (settings.similarityThreshold = 0 → ∀ centroid ∈ centroids, dot centroid centroid ≠ 0)
  | .dismiss _ _ => True
  | .executed _ => True

/-- No report of an organization was inserted while a report of a close topic was open. Rows
are appended, and a scan closes none: those before a new row were there when it came. -/
def NoDuplicate (db db' : GapDb) : Prop :=
  ∀ before row after, db'.gapReports = before ++ row :: after →
    db.gapReports.length ≤ before.length →
      ∀ earlier ∈ before, earlier.organizationId = row.organizationId → earlier.status = .open →
        ¬ Similar row.topicEmbedding earlier.topicEmbedding

/-- A scan that is repeated at once, on the same executions, inserts nothing. -/
def Quiet (db : GapDb) : Action → Prop
  | .detect model draw => ∀ rows db',
      (detectKnowledgeGaps model organizationId draw settings).Returns db rows db' →
      ∀ (model' : Model) (draw' : Draw),
        queryableExecutions organizationId draw' settings db' =
          queryableExecutions organizationId draw settings db →
        model'.embedTexts = model.embedTexts →
        ∃ db'', step settings organizationId db' (.detect model' draw') = some db'' ∧
          db''.gapReports.map KnowledgeGapReport.id = db'.gapReports.map KnowledgeGapReport.id
  | .dismiss _ _ => True
  | .executed _ => True

end Runs

variable {settings : GapSettings} {organizationId : Uuid} {model : Model} {draw : Draw}
  {db db' db'' : GapDb} {rows : List KnowledgeGapReport}

theorem detect_recorded
    (h : (detectKnowledgeGaps model organizationId draw settings).Returns db rows db') :
    ∃ centroids, survivingCentroids settings organizationId model draw db = .ok centroids ∧
      db'.agentExecutions = db.agentExecutions ∧
      Recorded organizationId (Repository.listOpenGapReports organizationId db) db.gapReports
        centroids db'.gapReports := by
  unfold detectKnowledgeGaps at h
  obtain ⟨queryable, db₁, hread, hscan⟩ := Service.bind_returns.mp h
  obtain ⟨rfl, rfl⟩ := Service.read_returns.mp hread
  unfold survivingCentroids
  by_cases hfew : (queryableExecutions organizationId draw settings db).length <
      settings.minClusterSize
  · rw [if_pos hfew] at hscan
    obtain ⟨_, rfl⟩ := Service.pure_returns.mp hscan
    exact ⟨[], by simp [hfew], rfl, .done _⟩
  · rw [if_neg hfew] at hscan
    obtain ⟨embeddings, db₂, hembed, hcluster⟩ := Service.bind_returns.mp hscan
    obtain ⟨hembeddings, rfl⟩ := Service.ofExcept_returns.mp hembed
    obtain ⟨clusters, db₃, hfound, hopen⟩ := Service.bind_returns.mp hcluster
    obtain ⟨hclusters, rfl⟩ := Service.ofExcept_returns.mp hfound
    obtain ⟨existing, db₄, hlisted, hloop⟩ := Service.bind_returns.mp hopen
    obtain ⟨rfl, rfl⟩ := Service.read_returns.mp hlisted
    obtain ⟨topics, htopics, hexecutions, hrecorded⟩ := reportClusters_returns hloop
    refine ⟨_, ?_, hexecutions, hrecorded⟩
    simp only [if_neg hfew, hembeddings, bind, Except.bind, hclusters, htopics, pure, Except.pure]

/-- Under a positive threshold no centroid is the zero vector. -/
theorem survivingCentroids_nonzero (hpos : 0 < settings.similarityThreshold)
    {centroids : List Embedding}
    (h : survivingCentroids settings organizationId model draw db = .ok centroids) :
    ∀ centroid ∈ centroids, dot centroid centroid ≠ 0 := by
  unfold survivingCentroids at h
  dsimp only at h
  by_cases hfew : (queryableExecutions organizationId draw settings db).length <
      settings.minClusterSize
  · rw [if_pos hfew] at h
    obtain rfl := Except.ok.inj h
    simp
  · rw [if_neg hfew] at h
    obtain ⟨embeddings, _, hclustering⟩ := Query.bind_ok.mp h
    obtain ⟨clusters, hclusters, hgather⟩ := Query.bind_ok.mp hclustering
    obtain ⟨topics, htopics, hmade⟩ := Query.bind_ok.mp hgather
    obtain rfl := Except.ok.inj hmade
    intro centroid hcentroid
    obtain ⟨topic, htopic, rfl⟩ := List.mem_map.mp hcentroid
    obtain ⟨memberIndices, hmem, hgathered⟩ := Query.mem_of_mapM_ok htopics htopic
    obtain ⟨hcluster, hlarge⟩ := List.mem_filter.mp hmem
    have htwo : 2 ≤ memberIndices.length :=
      settings.two_le_minClusterSize.trans (by simpa using hlarge)
    exact topic_nonzero hpos hclusters hcluster htwo hgathered

theorem mem_listOpenGapReports {report : KnowledgeGapReport} :
    report ∈ Repository.listOpenGapReports organizationId db ↔
      report ∈ db.gapReports ∧ report.organizationId = organizationId ∧ report.status = .open := by
  unfold Repository.listOpenGapReports
  simp

/-- What a list of faces shows of a report. -/
theorem exists_of_face {reports : List KnowledgeGapReport} {report : KnowledgeGapReport}
    (h : face report ∈ reports.map face) :
    ∃ other ∈ reports, other.topicEmbedding = report.topicEmbedding ∧
      other.organizationId = report.organizationId ∧ other.status = report.status := by
  obtain ⟨other, hother, hface⟩ := List.mem_map.mp h
  simp only [face, KnowledgeGapReport.mk.injEq] at hface
  obtain ⟨_, horganization, _, hembedding, _, _, _, hstatus, _⟩ := hface
  exact ⟨other, hother, hembedding, horganization, hstatus⟩

/-- What is created is not close to what was open, nor to what the scan created before. -/
theorem Recorded.noDuplicate {centroids : List Embedding}
    (h : Recorded organizationId (Repository.listOpenGapReports organizationId db) db.gapReports
      centroids db'.gapReports)
    (hapart : (centroids.filter
      (Unmatched (Repository.listOpenGapReports organizationId db))).Pairwise
        fun earlier later => ¬ Similar later earlier) : NoDuplicate db db' := by
  obtain ⟨added, hfaces, hcentroids, hopen⟩ := h.faces
  intro before row after htable hlength earlier hearlier horganization hstatus
  rw [htable, List.map_append, List.map_cons] at hfaces
  obtain ⟨created, hbefore, hadded⟩ : ∃ created, before.map face = db.gapReports.map face ++ created ∧
      added = created ++ face row :: after.map face := by
    refine ⟨(before.map face).drop db.gapReports.length, ?_, ?_⟩
    · have htake := congrArg (List.take db.gapReports.length) hfaces
      rw [List.take_append_of_le_length (by simpa using hlength),
        List.take_left' (by simp)] at htake
      rw [← htake, List.take_append_drop]
    · have hdrop := congrArg (List.drop db.gapReports.length) hfaces
      rw [List.drop_append_of_le_length (by simpa using hlength),
        List.drop_left' (by simp)] at hdrop
      exact hdrop.symm
  have hnew : row.topicEmbedding ∈
      centroids.filter (Unmatched (Repository.listOpenGapReports organizationId db)) := by
    rw [← hcentroids, hadded]
    exact List.mem_map.mpr ⟨face row, by simp, rfl⟩
  have hface : face earlier ∈ db.gapReports.map face ++ created := by
    rw [← hbefore]
    exact List.mem_map_of_mem hearlier
  rcases List.mem_append.mp hface with hthere | hcreated
  · obtain ⟨other, hother, hembedding, hotherOrganization, hotherStatus⟩ := exists_of_face hthere
    have hrow : row.organizationId = organizationId :=
      (hopen (face row) (by rw [hadded]; simp)).1
    have hlisted : other ∈ Repository.listOpenGapReports organizationId db := by
      refine mem_listOpenGapReports.mpr ⟨hother, ?_, hotherStatus.trans hstatus⟩
      rw [hotherOrganization, horganization, hrow]
    have hunmatched : Unmatched (Repository.listOpenGapReports organizationId db)
        row.topicEmbedding := by simpa using (List.mem_filter.mp hnew).2
    rw [← hembedding]
    exact findMergeableReport_none hunmatched other hlisted
  · rw [← hcentroids, hadded, List.map_append, List.map_cons] at hapart
    exact (List.pairwise_append.mp hapart).2.2 earlier.topicEmbedding
      (List.mem_map.mpr ⟨face earlier, hcreated, rfl⟩) row.topicEmbedding List.mem_cons_self

/-- Conversely, what the scan created shows how far apart the new topics are. -/
theorem Recorded.apart {centroids : List Embedding}
    (h : Recorded organizationId (Repository.listOpenGapReports organizationId db) db.gapReports
      centroids db'.gapReports) (hnone : NoDuplicate db db') :
    (centroids.filter (Unmatched (Repository.listOpenGapReports organizationId db))).Pairwise
      fun earlier later => ¬ Similar later earlier := by
  obtain ⟨added, hfaces, hcentroids, hopen⟩ := h.faces
  rw [← hcentroids, List.pairwise_map, List.pairwise_iff_getElem]
  intro i j hi hj hij
  have hlength : db'.gapReports.length = db.gapReports.length + added.length := by
    have hboth := congrArg List.length hfaces
    simpa using hboth
  have hplace : ∀ k (hk : k < added.length)
      (hrow : db.gapReports.length + k < db'.gapReports.length),
      face db'.gapReports[db.gapReports.length + k] = added[k] := by
    intro k hk hrow
    have hsame : (db'.gapReports.map face)[db.gapReports.length + k]? = some added[k] := by
      rw [hfaces, List.getElem?_append_right (by simp)]
      simp [hk]
    rw [List.getElem?_map, List.getElem?_eq_getElem hrow] at hsame
    exact Option.some.inj hsame
  have hrow : db.gapReports.length + j < db'.gapReports.length := by omega
  have hbefore : db.gapReports.length + i < db'.gapReports.length := by omega
  have hearlier : db'.gapReports[db.gapReports.length + i] ∈
      db'.gapReports.take (db.gapReports.length + j) :=
    List.mem_take_iff_getElem.mpr ⟨db.gapReports.length + i, by omega, rfl⟩
  have htable := (List.take_append_drop (db.gapReports.length + j) db'.gapReports).symm
  rw [List.drop_eq_getElem_cons hrow] at htable
  have hopeni := hopen added[i] (List.getElem_mem hi)
  have hopenj := hopen added[j] (List.getElem_mem hj)
  have hapart := hnone _ _ _ htable (by rw [List.length_take]; omega) _ hearlier
  rw [← hplace i hi hbefore] at hopeni ⊢
  rw [← hplace j hj hrow] at hopenj ⊢
  exact hapart (hopeni.1.trans hopenj.1.symm) hopeni.2

/-- After a scan, each of its topics has an open report that is close to it. -/
theorem Recorded.matched {centroids : List Embedding}
    (h : Recorded organizationId (Repository.listOpenGapReports organizationId db) db.gapReports
      centroids db'.gapReports)
    (hnonzero : ∀ centroid ∈ centroids.filter
      (Unmatched (Repository.listOpenGapReports organizationId db)), dot centroid centroid ≠ 0)
    {centroid : Embedding} (hcentroid : centroid ∈ centroids) :
    ¬ Unmatched (Repository.listOpenGapReports organizationId db') centroid := by
  obtain ⟨added, hfaces, hcentroids, hopen⟩ := h.faces
  -- An open report of that topic, as the table shows it.
  have hreport : ∃ report, face report ∈ db'.gapReports.map face ∧
      report.organizationId = organizationId ∧ report.status = .open ∧
        Similar centroid report.topicEmbedding := by
    obtain ⟨found, hfind⟩ := h.found centroid hcentroid
    cases found with
    | some report =>
      obtain ⟨hlisted, hsimilar⟩ := findMergeableReport_some hfind
      obtain ⟨hreport, horganization, hstatus⟩ := mem_listOpenGapReports.mp hlisted
      refine ⟨report, ?_, horganization, hstatus, hsimilar⟩
      rw [hfaces]
      exact List.mem_append_left _ (List.mem_map_of_mem hreport)
    | none =>
      have hnew : centroid ∈ centroids.filter
          (Unmatched (Repository.listOpenGapReports organizationId db)) :=
        List.mem_filter.mpr ⟨hcentroid, decide_eq_true hfind⟩
      have hself := similar_self (hnonzero centroid hnew)
      rw [← hcentroids] at hnew
      obtain ⟨created, hcreated, rfl⟩ := List.mem_map.mp hnew
      have hthere : created ∈ db'.gapReports.map face := by
        rw [hfaces]
        exact List.mem_append_right _ hcreated
      obtain ⟨report, hreport, rfl⟩ := List.mem_map.mp hthere
      obtain ⟨horganization, hstatus⟩ := hopen _ hcreated
      exact ⟨report, hthere, horganization, hstatus, hself⟩
  obtain ⟨report, hface, horganization, hstatus, hsimilar⟩ := hreport
  obtain ⟨other, hother, hembedding, hotherOrganization, hotherStatus⟩ := exists_of_face hface
  have hlisted : other ∈ Repository.listOpenGapReports organizationId db' :=
    mem_listOpenGapReports.mpr
      ⟨hother, hotherOrganization.trans horganization, hotherStatus.trans hstatus⟩
  intro hunmatched
  rw [← hembedding] at hsimilar
  exact findMergeableReport_none hunmatched other hlisted hsimilar

theorem Recorded.ids {centroids : List Embedding}
    (h : Recorded organizationId (Repository.listOpenGapReports organizationId db) db.gapReports
      centroids db'.gapReports)
    (hnone : ∀ centroid ∈ centroids,
      ¬ Unmatched (Repository.listOpenGapReports organizationId db) centroid) :
    db'.gapReports.map KnowledgeGapReport.id = db.gapReports.map KnowledgeGapReport.id := by
  obtain ⟨added, hfaces, hcentroids, _⟩ := h.faces
  have hnothing : centroids.filter
      (Unmatched (Repository.listOpenGapReports organizationId db)) = [] := by
    refine List.filter_eq_nil_iff.mpr fun centroid hcentroid => ?_
    simpa using hnone centroid hcentroid
  rw [hnothing, List.map_eq_nil_iff] at hcentroids
  rw [hcentroids, List.append_nil] at hfaces
  have hids := congrArg (List.map KnowledgeGapReport.id) hfaces
  rw [List.map_map, List.map_map] at hids
  exact hids

/-! ## Step by step -/

/-- What a scan that returns has written. -/
theorem newCentroids_of_recorded {centroids : List Embedding}
    (h : survivingCentroids settings organizationId model draw db = .ok centroids) :
    newCentroids settings organizationId model draw db = .ok (centroids.filter
      (Unmatched (Repository.listOpenGapReports organizationId db))) := by
  unfold newCentroids
  rw [h]
  rfl

/-- A scan that returns creates no duplicate exactly when its new topics are apart. -/
theorem noDuplicate_iff
    (h : (detectKnowledgeGaps model organizationId draw settings).Returns db rows db')
    {centroids : List Embedding}
    (hnew : newCentroids settings organizationId model draw db = .ok centroids) :
    NoDuplicate db db' ↔ centroids.Pairwise fun earlier later => ¬ Similar later earlier := by
  obtain ⟨surviving, hsurviving, _, hrecorded⟩ := detect_recorded h
  obtain rfl := Except.ok.inj (hnew.symm.trans (newCentroids_of_recorded hsurviving))
  exact ⟨hrecorded.apart, hrecorded.noDuplicate⟩

theorem noDuplicate_of_length (h : db'.gapReports.length = db.gapReports.length) :
    NoDuplicate db db' := by
  intro before row after htable hlength
  rw [htable] at h
  simp only [List.length_append, List.length_cons] at h
  omega

/-- Such a scan, repeated at once, opens no report. -/
theorem quiet_of_nonzero {centroids : List Embedding}
    (hnew : newCentroids settings organizationId model draw db = .ok centroids)
    (hnonzero : settings.similarityThreshold = 0 →
      ∀ centroid ∈ centroids, dot centroid centroid ≠ 0) :
    Quiet settings organizationId db (.detect model draw) := by
  intro rows db' hreturns model' draw' hqueryable hembed
  obtain ⟨surviving, hsurviving, _, hrecorded⟩ := detect_recorded hreturns
  obtain rfl := Except.ok.inj (hnew.symm.trans (newCentroids_of_recorded hsurviving))
  have hpointing : ∀ centroid ∈ surviving.filter
      (Unmatched (Repository.listOpenGapReports organizationId db)), dot centroid centroid ≠ 0 := by
    rcases settings.similarity_nonneg.lt_or_eq with hpos | hzero
    · intro centroid hcentroid
      exact survivingCentroids_nonzero hpos hsurviving centroid (List.mem_filter.mp hcentroid).1
    · exact hnonzero hzero.symm
  refine ⟨_, rfl, ?_⟩
  unfold Service.transaction
  cases hrepeat : detectKnowledgeGaps model' organizationId draw' settings db' with
  | mk result db'' =>
    cases result with
    | error raised => rfl
    | ok rows' =>
      obtain ⟨again, hagain, _, hwritten⟩ := detect_recorded hrepeat
      have hsame : survivingCentroids settings organizationId model' draw' db' =
          survivingCentroids settings organizationId model draw db := by
        unfold survivingCentroids
        rw [hqueryable, hembed]
      obtain rfl : again = surviving :=
        Except.ok.inj (hagain.symm.trans (hsame.trans hsurviving))
      exact hwritten.ids fun centroid hcentroid => hrecorded.matched hpointing hcentroid

theorem dismissGapReport_returns {actor : Identity} {gapReportId : Uuid}
    {report : KnowledgeGapReport} (h : (dismissGapReport actor gapReportId).Returns db report db') :
    ∃ p, db' = { db with
      gapReports := Table.updateWhere db.gapReports p fun row => { row with status := .dismissed } } := by
  simp only [dismissGapReport, Repository.updateGapReportStatus, Repository.updateReport,
    Service.bind_returns, Service.raiseIf_returns, Service.read_returns, Service.write_returns,
    Service.pure_returns, Service.orRaise_returns] at h
  obtain ⟨_, _, ⟨_, rfl⟩, _, _, ⟨_, _, ⟨_, rfl⟩, _, _, rfl, _, rfl⟩, _, rfl⟩ := h
  exact ⟨_, rfl⟩

theorem supported_updateStatus {reports : List KnowledgeGapReport} {p : KnowledgeGapReport → Bool}
    {status : GapReportStatus} :
    Supported reports (Table.updateWhere reports p fun row => { row with status }) := by
  intro report hreport
  refine ⟨_, Table.mem_updateWhere.mpr ⟨report, hreport, rfl⟩, ?_⟩
  by_cases hp : p report = true
  · simp [hp]
  · simp [hp]

/-- What every step does to the reports: a scan that returns records its topics, a dismissal
changes a status, and anything else leaves them alone. -/
theorem step_cases {action : Action} (h : step settings organizationId db action = some db') :
    (∃ model draw rows, action = .detect model draw ∧
      (detectKnowledgeGaps model organizationId draw settings).Returns db rows db') ∨
    (∃ p, db'.gapReports =
      Table.updateWhere db.gapReports p fun row => { row with status := .dismissed }) ∨
    db'.gapReports = db.gapReports := by
  cases action with
  | detect model draw =>
    obtain rfl := Option.some.inj h
    unfold Service.transaction
    cases hscan : detectKnowledgeGaps model organizationId draw settings db with
    | mk result after =>
      cases result with
      | ok rows => exact .inl ⟨model, draw, rows, rfl, hscan⟩
      | error raised => exact .inr (.inr rfl)
  | dismiss actor gapReportId =>
    obtain rfl := Option.some.inj h
    unfold Service.transaction
    cases hdismiss : dismissGapReport actor gapReportId db with
    | mk result after =>
      cases result with
      | ok report =>
        obtain ⟨p, rfl⟩ := dismissGapReport_returns hdismiss
        exact .inr (.inl ⟨p, rfl⟩)
      | error raised => exact .inr (.inr rfl)
  | executed rows =>
    obtain rfl := Option.some.inj h
    exact .inr (.inr rfl)

theorem step_detect (h : (detectKnowledgeGaps model organizationId draw settings).Returns db rows db') :
    step settings organizationId db (.detect model draw) = some db' := by
  have hcommit := Service.transaction_returns.mpr h
  exact congrArg (fun result => some result.2) hcommit

theorem step_keyUnique {action : Action} (hkeys : Table.KeyUnique KnowledgeGapReport.id db.gapReports)
    (h : step settings organizationId db action = some db') :
    Table.KeyUnique KnowledgeGapReport.id db'.gapReports := by
  rcases step_cases h with ⟨model, draw, rows, _, hreturns⟩ | ⟨p, hdismissed⟩ | hkept
  · obtain ⟨_, _, _, hrecorded⟩ := detect_recorded hreturns
    exact hrecorded.keyUnique hkeys
  · rw [hdismissed]
    exact Table.keyUnique_updateWhere hkeys fun _ _ => rfl
  · rw [hkept]
    exact hkeys

theorem step_supported {action : Action} (hkeys : Table.KeyUnique KnowledgeGapReport.id db.gapReports)
    (h : step settings organizationId db action = some db') :
    Supported db.gapReports db'.gapReports := by
  rcases step_cases h with ⟨model, draw, rows, _, hreturns⟩ | ⟨p, hdismissed⟩ | hkept
  · obtain ⟨_, _, _, hrecorded⟩ := detect_recorded hreturns
    exact hrecorded.supported hkeys
  · rw [hdismissed]
    exact supported_updateStatus
  · rw [hkept]
    exact .refl _

theorem step_noDuplicate {action : Action} (hok : Admissible settings organizationId db action)
    (h : step settings organizationId db action = some db') : NoDuplicate db db' := by
  rcases step_cases h with ⟨model, draw, rows, rfl, hreturns⟩ | ⟨p, hdismissed⟩ | hkept
  · obtain ⟨centroids, hcentroids, _, _⟩ := detect_recorded hreturns
    have hnew := newCentroids_of_recorded hcentroids
    exact (noDuplicate_iff hreturns hnew).mpr (hok _ hnew).1
  · refine noDuplicate_of_length ?_
    rw [hdismissed]
    simp [Table.updateWhere]
  · exact noDuplicate_of_length (congrArg List.length hkept)

theorem step_quiet {action : Action} (hok : Admissible settings organizationId db action) :
    Quiet settings organizationId db action := by
  cases action with
  | detect model draw =>
    intro rows db' hreturns
    obtain ⟨centroids, hcentroids, _, _⟩ := detect_recorded hreturns
    have hnew := newCentroids_of_recorded hcentroids
    exact quiet_of_nonzero hnew (hok _ hnew).2 rows db' hreturns
  | dismiss actor gapReportId | executed rows => trivial

/-! ## Two scans -/

/-- A question that was answered with little confidence. -/
def askedAt (id : Uuid) : AgentExecutionRow :=
  { id
    organizationId := 1
    userId := none
    agentName := answerAgentName
    triggerSource := .mcp
    inputSummary := some (.question "How are refunds retried?" none 0)
    confidenceScore := some (1 / 5)
    status := .succeeded
    startedAt := id }

def asked (count : Nat) : GapDb := { agentExecutions := (List.range count).map askedAt }

/-- The embeddings of the questions in the order in which they were asked. -/
def embedInOrder (embeddings : List Embedding) : Model where
  embedTexts texts := .ok (embeddings.take texts.length)
  ainvoke _ := .ok "Retries of refunds"
  searchDocumentation _ _ := .ok none

def firstDraw : Draw := { beganAt := 100, now := 100, reportId := fun position => position + 1 }

theorem queryable_asked :
    queryableExecutions 1 firstDraw {} (asked 6) =
      (List.range 6).map fun id => (askedAt id, "How are refunds retried?") := by
  unfold queryableExecutions Repository.listLowConfidenceExecutions Query.orderBy
  rw [List.mergeSort_of_pairwise (by decide +kernel)]
  decide +kernel

def openedReport (position : Nat) (topicEmbedding : Embedding) (supportingExecutionIds : List Uuid) :
    KnowledgeGapReport :=
  { id := position + 1
    organizationId := 1
    suggestedTopic := "Retries of refunds"
    topicEmbedding
    supportingExecutionIds
    suggestedAction := .newRunbook
    relatedDocumentId := none
    createdAt := 100 }

/-- Two directions, at right angles. -/
def unlike : Model := embedInOrder [[1, 0], [1, 0], [1, 0], [0, 1], [0, 1], [0, 1]]

def openedApart : List KnowledgeGapReport :=
  [openedReport 0 [1, 0] [0, 1, 2], openedReport 1 [0, 1] [3, 4, 5]]

theorem detect_unlike : (detectKnowledgeGaps unlike 1 firstDraw {}).Returns (asked 6) openedApart
    { asked 6 with gapReports := openedApart } := by
  unfold detectKnowledgeGaps Service.Returns
  rw [Service.bind_read, queryable_asked]
  decide +kernel

theorem newCentroids_unlike :
    newCentroids {} 1 unlike firstDraw (asked 6) = .ok [[1, 0], [0, 1]] := by
  unfold newCentroids survivingCentroids
  rw [queryable_asked]
  decide +kernel

/-! ## Run after run -/

/-- Two directions are farther from each other than the threshold of the clustering, but the
questions that join them lie between. -/
def between : Model :=
  embedInOrder [[1, 0], [4 / 5, 3 / 5], [24 / 25, 7 / 25], [24 / 25, 7 / 25], [15 / 17, 8 / 17],
    [15 / 17, 8 / 17]]

def opened : List KnowledgeGapReport :=
  [openedReport 0 [73 / 75, 14 / 75] [0, 2, 3], openedReport 1 [218 / 255, 131 / 255] [1, 4, 5]]

theorem detect_between : (detectKnowledgeGaps between 1 firstDraw {}).Returns (asked 6) opened
    { asked 6 with gapReports := opened } := by
  unfold detectKnowledgeGaps Service.Returns
  rw [Service.bind_read, queryable_asked]
  decide +kernel

end Ekip.Agents.KnowledgeGap
