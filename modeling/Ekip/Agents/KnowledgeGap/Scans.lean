import Ekip.Lib.Run
import Ekip.Agents.KnowledgeGap.Pipeline

/-!
# What a scan writes

`Recorded` says it once: cluster by cluster, a report is merged into or created. What is
known of the reports before and after a scan is read off it.
-/
namespace Ekip.Agents.KnowledgeGap

open Ekip.Lib Ekip.Database

/-! ## The merge check -/

/-- Close enough to be merged. -/
def Similar (a b : Embedding) : Prop :=
  ∃ found, cosineSimilarity a b = .ok found ∧ .ofRat mergeSimilarityThreshold ≤ found

instance instDecidableSimilar (a b : Embedding) : Decidable (Similar a b) :=
  match h : cosineSimilarity a b with
  | .ok found =>
    decidable_of_iff (.ofRat mergeSimilarityThreshold ≤ found) (by simp [Similar, h])
  | .error _ => isFalse (by simp [Similar, h])

theorem similar_self {a : Embedding} (h : dot a a ≠ 0) : Similar a a := by
  obtain ⟨found, hfound, hone⟩ := cosineSimilarity_self h
  have hbar : RootQuotient.ofRat mergeSimilarityThreshold ≤ .ofRat 1 := by decide +kernel
  exact ⟨found, hfound, hbar.trans hone⟩

section MergeCheck

variable {centroid : Embedding} {existing : List KnowledgeGapReport} {report : KnowledgeGapReport}

theorem findMergeableReport_some (h : findMergeableReport centroid existing = .ok (some report)) :
    report ∈ existing ∧ Similar centroid report.topicEmbedding := by
  obtain ⟨best, hclosest, hfilter⟩ := Query.map_ok.mp h
  obtain ⟨hsome, hbar⟩ := Option.filter_eq_some_iff.mp hfilter
  obtain ⟨_, _, rfl | ⟨found, hmem, hfound, hsimilar⟩⟩ := closest_spec hclosest
  · cases hsome
  · obtain rfl : found = report := Option.some.inj (hfound.symm.trans hsome)
    exact ⟨hmem, best.2, hsimilar, by simpa using hbar⟩

theorem findMergeableReport_none (h : findMergeableReport centroid existing = .ok none) :
    ∀ report ∈ existing, ¬ Similar centroid report.topicEmbedding := by
  obtain ⟨best, hclosest, hfilter⟩ := Query.map_ok.mp h
  obtain ⟨hall, _, hbest⟩ := closest_spec hclosest
  have hlow : ¬ .ofRat mergeSimilarityThreshold ≤ best.2 := by
    rcases hbest with rfl | ⟨found, _, hfound, _⟩
    · decide +kernel
    · rw [hfound, Option.filter_eq_none_iff] at hfilter
      simpa using hfilter found rfl
  intro report hreport
  rintro ⟨found, hfound, hbar⟩
  obtain ⟨found', hfound', hle⟩ := hall report hreport
  obtain rfl : found = found' := Except.ok.inj (hfound.symm.trans hfound')
  exact hlow (hbar.trans hle)

/-- A report is created for it. -/
def Unmatched (existing : List KnowledgeGapReport) (centroid : Embedding) : Prop :=
  findMergeableReport centroid existing = .ok none

instance instDecidableUnmatched (existing : List KnowledgeGapReport) (centroid : Embedding) :
    Decidable (Unmatched existing centroid) :=
  match h : findMergeableReport centroid existing with
  | .ok none => isTrue h
  | .ok (some _) => isFalse (by simp [Unmatched, h])
  | .error _ => isFalse (by simp [Unmatched, h])

end MergeCheck

/-! ## The loop over the clusters -/

/-- From `reports`, one scan that read `existing` and found `centroids` left `reports'`. -/
inductive Recorded (organizationId : Uuid) (existing : List KnowledgeGapReport) :
    List KnowledgeGapReport → List Embedding → List KnowledgeGapReport → Prop
  | done (reports : List KnowledgeGapReport) : Recorded organizationId existing reports [] reports
  | merged {reports reports' : List KnowledgeGapReport} {centroid : Embedding}
      {centroids : List Embedding} {report : KnowledgeGapReport} {mergedIds : List Uuid}
      (hfound : findMergeableReport centroid existing = .ok (some report))
      (hkept : ∀ current, Table.get? KnowledgeGapReport.id reports report.id = some current →
        current.supportingExecutionIds ⊆ mergedIds)
      (hrest : Recorded organizationId existing
        (Table.updateWhere reports (fun row => row.id = report.id)
          fun row => { row with supportingExecutionIds := mergedIds }) centroids reports') :
      Recorded organizationId existing reports (centroid :: centroids) reports'
  | created {reports reports' : List KnowledgeGapReport} {centroid : Embedding}
      {centroids : List Embedding} {row : KnowledgeGapReport}
      (hnone : Unmatched existing centroid)
      (hcentroid : row.topicEmbedding = centroid)
      (hopen : row.organizationId = organizationId ∧ row.status = .open)
      (hfresh : ∀ other ∈ reports, other.id ≠ row.id)
      (hrest : Recorded organizationId existing (reports ++ [row]) centroids reports') :
      Recorded organizationId existing reports (centroid :: centroids) reports'

section Loop

variable {model : Model} {organizationId : Uuid} {draw : Draw} {settings : GapSettings}
  {existing : List KnowledgeGapReport} {db db' : GapDb}

theorem mergeInto_returns {report : KnowledgeGapReport} {executionIds : List Uuid}
    {reported : Option KnowledgeGapReport}
    (h : (mergeInto report executionIds).Returns db reported db') :
    ∃ mergedIds, (∀ current, Table.get? KnowledgeGapReport.id db.gapReports report.id =
        some current → current.supportingExecutionIds ⊆ mergedIds) ∧
      db' = { db with
        gapReports := Table.updateWhere db.gapReports (fun row => row.id = report.id)
          fun row => { row with supportingExecutionIds := mergedIds } } := by
  simp only [mergeInto, Repository.updateGapReportSupportingIds, Repository.updateReport,
    Service.bind_returns, Service.read_returns, Service.write_returns, Service.pure_returns] at h
  obtain ⟨_, _, ⟨rfl, rfl⟩, _, _, ⟨_, rfl⟩, _, _, rfl, _, rfl⟩ := h
  refine ⟨_, ?_, rfl⟩
  intro current hcurrent executionId hmem
  rw [hcurrent]
  simp [hmem]

theorem createReport_returns {position : Nat} {topic : Topic} {reported : Option KnowledgeGapReport}
    (h : (createReport model organizationId draw position topic).Returns db reported db') :
    ∃ row, row.topicEmbedding = topic.centroid ∧
      (row.organizationId = organizationId ∧ row.status = .open) ∧
      (∀ other ∈ db.gapReports, other.id ≠ row.id) ∧
      db' = { db with gapReports := db.gapReports ++ [row] } := by
  simp only [createReport, Repository.insertGapReport, Service.bind_returns,
    Service.ofExcept_returns, Service.read_returns, Service.raiseIf_returns,
    Service.write_returns, Service.pure_returns] at h
  obtain ⟨_, _, ⟨_, rfl⟩, _, _, ⟨_, rfl⟩, _, _, ⟨_, _, ⟨rfl, rfl⟩, _, _, ⟨hfresh, rfl⟩, _, _, rfl,
    rfl, rfl⟩, _, rfl⟩ := h
  refine ⟨_, rfl, ⟨rfl, rfl⟩, ?_, rfl⟩
  simpa using hfresh

theorem reportClusters_returns {queryable : List (AgentExecutionRow × String)}
    {embeddings : List Embedding} {minClusterSize position : Nat} {clusters : List (List Nat)}
    {rows : List KnowledgeGapReport}
    (h : (reportClusters model organizationId draw minClusterSize queryable embeddings existing
      position clusters).Returns db rows db') :
    ∃ topics, (clusters.filter fun memberIndices => minClusterSize ≤ memberIndices.length).mapM
        (gatherTopic queryable embeddings) = .ok topics ∧
      db'.agentExecutions = db.agentExecutions ∧
      Recorded organizationId existing db.gapReports (topics.map Topic.centroid)
        db'.gapReports := by
  induction clusters generalizing db position rows with
  | nil =>
    obtain ⟨_, rfl⟩ := Service.pure_returns.mp h
    exact ⟨[], rfl, rfl, .done _⟩
  | cons memberIndices rest ih =>
    unfold reportClusters at h
    by_cases hsmall : memberIndices.length < minClusterSize
    · rw [if_pos hsmall] at h
      rw [List.filter_cons_of_neg (by simpa using hsmall)]
      exact ih h
    · rw [if_neg hsmall] at h
      rw [List.filter_cons_of_pos (by simpa using hsmall)]
      obtain ⟨topic, db₁, hgather, hreport⟩ := Service.bind_returns.mp h
      obtain ⟨htopic, rfl⟩ := Service.ofExcept_returns.mp hgather
      obtain ⟨reported, db₂, hreported, hloop⟩ := Service.bind_returns.mp hreport
      obtain ⟨others, db₃, hothers, hdone⟩ := Service.bind_returns.mp hloop
      obtain ⟨_, rfl⟩ := Service.pure_returns.mp hdone
      obtain ⟨topics, htopics, hexecutions, hrecorded⟩ := ih hothers
      have hall : (memberIndices :: rest.filter fun memberIndices =>
          minClusterSize ≤ memberIndices.length).mapM (gatherTopic queryable embeddings) =
          .ok (topic :: topics) := by
        rw [List.mapM_cons, htopic, htopics]
        rfl
      obtain ⟨mergeable, db₄, hfind, hwritten⟩ := Service.bind_returns.mp hreported
      obtain ⟨hmergeable, rfl⟩ := Service.ofExcept_returns.mp hfind
      cases mergeable with
      | some report =>
        obtain ⟨mergedIds, hkept, rfl⟩ := mergeInto_returns hwritten
        exact ⟨_, hall, hexecutions, .merged hmergeable hkept hrecorded⟩
      | none =>
        obtain ⟨row, hcentroid, hopen, hfresh, rfl⟩ := createReport_returns hwritten
        exact ⟨_, hall, hexecutions, .created hmergeable hcentroid hopen hfresh hrecorded⟩

end Loop

/-! ## What is known before and after -/

/-- A report without its supporting executions, which alone are changed once it is there. -/
def face (report : KnowledgeGapReport) : KnowledgeGapReport :=
  { report with supportingExecutionIds := [] }

/-- No report has lost a supporting execution. -/
def Supported (reports reports' : List KnowledgeGapReport) : Prop :=
  ∀ report ∈ reports, ∃ report' ∈ reports', report'.id = report.id ∧
    report.supportingExecutionIds ⊆ report'.supportingExecutionIds

namespace Supported

variable {reports reports' reports'' : List KnowledgeGapReport}

theorem refl (reports : List KnowledgeGapReport) : Supported reports reports :=
  fun report hreport => ⟨report, hreport, rfl, List.Subset.refl _⟩

theorem trans (h : Supported reports reports') (h' : Supported reports' reports'') :
    Supported reports reports'' := by
  intro report hreport
  obtain ⟨report', hreport', hid, hkept⟩ := h report hreport
  obtain ⟨report'', hreport'', hid', hkept'⟩ := h' report' hreport'
  exact ⟨report'', hreport'', hid'.trans hid, List.Subset.trans hkept hkept'⟩

end Supported

namespace Recorded

variable {organizationId : Uuid} {existing reports reports' : List KnowledgeGapReport}
  {centroids : List Embedding}

theorem keyUnique (h : Recorded organizationId existing reports centroids reports')
    (hkeys : Table.KeyUnique KnowledgeGapReport.id reports) :
    Table.KeyUnique KnowledgeGapReport.id reports' := by
  induction h with
  | done => exact hkeys
  | merged _ _ _ ih => exact ih (Table.keyUnique_updateWhere hkeys fun _ _ => rfl)
  | created _ _ _ hfresh _ ih => exact ih (Table.keyUnique_append hkeys hfresh)

theorem supported (h : Recorded organizationId existing reports centroids reports')
    (hkeys : Table.KeyUnique KnowledgeGapReport.id reports) : Supported reports reports' := by
  induction h with
  | done => exact .refl _
  | @merged reports reports' _ _ report mergedIds _ hkept _ ih =>
    refine Supported.trans ?_ (ih (Table.keyUnique_updateWhere hkeys fun _ _ => rfl))
    intro row hrow
    refine ⟨_, Table.mem_updateWhere.mpr ⟨row, hrow, rfl⟩, ?_⟩
    by_cases hid : row.id = report.id
    · have hget := Table.get?_of_mem hkeys hrow
      rw [hid] at hget
      have hsubset := hkept row hget
      simp [hid, hsubset]
    · simp [hid]
  | created _ _ _ hfresh _ ih =>
    refine Supported.trans ?_ (ih (Table.keyUnique_append hkeys hfresh))
    intro row hrow
    exact ⟨row, List.mem_append_left _ hrow, rfl, List.Subset.refl _⟩

/-- The merge check came to an end for every topic. -/
theorem found (h : Recorded organizationId existing reports centroids reports') :
    ∀ centroid ∈ centroids, ∃ report, findMergeableReport centroid existing = .ok report := by
  induction h with
  | done => simp
  | merged hfound _ _ ih =>
    intro centroid hcentroid
    rcases List.mem_cons.mp hcentroid with rfl | hcentroid
    · exact ⟨_, hfound⟩
    · exact ih centroid hcentroid
  | created hnone _ _ _ _ ih =>
    intro centroid hcentroid
    rcases List.mem_cons.mp hcentroid with rfl | hcentroid
    · exact ⟨none, hnone⟩
    · exact ih centroid hcentroid

/-- The reports that were there keep their faces and their places. Behind them stand those
that the scan created, one for each centroid that the merge check left. -/
theorem faces (h : Recorded organizationId existing reports centroids reports') :
    ∃ added, reports'.map face = reports.map face ++ added ∧
      added.map KnowledgeGapReport.topicEmbedding = centroids.filter (Unmatched existing) ∧
      ∀ row ∈ added, row.organizationId = organizationId ∧ row.status = .open := by
  induction h with
  | done => exact ⟨[], by simp, rfl, by simp⟩
  | @merged reports reports' centroid centroids report mergedIds hfound _ _ ih =>
    obtain ⟨added, hfaces, hcentroids, hopen⟩ := ih
    have hsame : (Table.updateWhere reports (fun row => row.id = report.id)
        fun row => { row with supportingExecutionIds := mergedIds }).map face =
        reports.map face := by
      unfold Table.updateWhere
      rw [List.map_map]
      refine List.map_congr_left fun row _ => ?_
      show face (if _ then _ else _) = face row
      split
      · rfl
      · rfl
    have hmatched : ¬ Unmatched existing centroid := by
      unfold Unmatched
      rw [hfound]
      simp
    refine ⟨added, by rw [hfaces, hsame], ?_, hopen⟩
    rw [hcentroids, List.filter_cons_of_neg (by simpa using hmatched)]
  | @created reports reports' centroid centroids row hnone hcentroid hopen _ _ ih =>
    obtain ⟨added, hfaces, hcentroids, hadded⟩ := ih
    refine ⟨face row :: added, ?_, ?_, ?_⟩
    · rw [hfaces, List.map_append, List.append_assoc]
      rfl
    · rw [List.filter_cons_of_pos (by simpa using hnone), List.map_cons, hcentroids]
      exact congrArg (· :: _) hcentroid
    · intro other hother
      rcases List.mem_cons.mp hother with rfl | hother
      · exact hopen
      · exact hadded other hother

end Recorded

end Ekip.Agents.KnowledgeGap
