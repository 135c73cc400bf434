import Ekip.Lib.Visits
import Ekip.Ingestion.Connectors.GitHub

/-!
# A full walk of the GitHub connector

Each phase of each repository is a list of rows that is walked page by page. The phases end
their lists differently: the tree where the slice does, the others with a short page.
-/
namespace Ekip.Ingestion.GitHub

open Ekip.Lib Ekip.Lib.Paging

/-! ## Rows -/

inductive Row
  | path (path : String)
  | commit (commit : Commit)
  | pull (pull : Pull)
  | issue (issue : Issue)

def phases : List Phase := [.files, .commits, .pulls, .issues]

def Phase.index : Phase → Nat
  | .files => 0
  | .commits => 1
  | .pulls => 2
  | .issues => 3

def Phase.pageSize : Phase → Nat
  | .files => treePageSize
  | .commits => commitsPageSize
  | .pulls => pullsPageSize
  | .issues => issuesPageSize

def containers (client : GitHubClient) : List (RepoConfig × Phase) :=
  client.repos.flatMap fun repoConfig => phases.map fun phase => (repoConfig, phase)

def rows (source : GitHubSource) (container : RepoConfig × Phase) : List Row :=
  let repository := source.repository container.1
  match container.2 with
  | .files => (allPaths repository).map .path
  | .commits => repository.commits.map .commit
  | .pulls => repository.pulls.map .pull
  | .issues => repository.issues.map .issue

/-- A path without content and a pull request among the issues become nothing. -/
def shown (source : GitHubSource) (container : RepoConfig × Phase) : Row → List RawItem
  | .path path => (fileItem source container.1 path).toList
  | .commit commit => [commitItem container.1 commit]
  | .pull pull => [.pullRequest (buildPullRequestItem source container.1 pull)]
  | .issue issue => if issue.isPullRequest then [] else [.issue (buildIssueItem source container.1 issue)]

def place (cursor : Option Cursor) : Nat × Nat :=
  (phases.length * (cursor.getD {}).repoIndex + (cursor.getD {}).phase.index,
    (cursor.getD {}).page * (cursor.getD {}).phase.pageSize)

def fetch (client : GitHubClient) (source : GitHubSource) (cursor : Option Cursor) :
    List RawItem × Option (Option Cursor) :=
  ((fetchBatch client none source cursor).items, (fetchBatch client none source cursor).next.map some)

/-! ## Where a cursor stands -/

theorem index_lt (phase : Phase) : phase.index < phases.length := by cases phase <;> decide

theorem phases_index (phase : Phase) : phases[phase.index]? = some phase := by cases phase <;> rfl

theorem getElem?_phases (repos : List RepoConfig) (i : Nat) (phase : Phase) :
    (repos.flatMap fun repoConfig => phases.map fun phase => (repoConfig, phase))[phases.length * i +
      phase.index]? = repos[i]?.map fun repoConfig => (repoConfig, phase) := by
  have hphase := index_lt phase
  induction repos generalizing i with
  | nil => rfl
  | cons repoConfig repos ih =>
    rw [List.flatMap_cons]
    cases i with
    | zero =>
      rw [List.getElem?_append_left (by rw [List.length_map]; omega), Nat.mul_zero, Nat.zero_add,
        List.getElem?_map, phases_index]
      rfl
    | succ i =>
      have hskip : phases.length * (i + 1) + phase.index =
          (phases.map fun phase => (repoConfig, phase)).length + (phases.length * i + phase.index) := by
        rw [List.length_map, Nat.mul_succ]
        omega
      rw [hskip, List.getElem?_append_right (Nat.le_add_right _ _), Nat.add_sub_cancel_left, ih]
      rfl

theorem containers_place (client : GitHubClient) (cursor : Option Cursor) :
    (containers client)[(place cursor).1]? = client.repos[(cursor.getD {}).repoIndex]?.map
      fun repoConfig => (repoConfig, (cursor.getD {}).phase) :=
  getElem?_phases client.repos _ _

theorem length_containers (client : GitHubClient) :
    (containers client).length = phases.length * client.repos.length := by
  unfold containers
  induction client.repos with
  | nil => rfl
  | cons repoConfig repos ih =>
    rw [List.flatMap_cons, List.length_append, List.length_map, ih, List.length_cons, Nat.mul_succ,
      Nat.add_comm]

/-! ## Pages -/

/-- Whether a page is the last of its phase. -/
def exhausted (source : GitHubSource) (container : RepoConfig × Phase) (page : Nat) : Bool :=
  let start := page * container.2.pageSize
  match container.2 with
  | .files => decide ((rows source container).length ≤ start + container.2.pageSize)
  | _ => decide ((slice start container.2.pageSize (rows source container)).length < container.2.pageSize)

theorem flatMap_unless {α β : Type} (p : α → Bool) (f : α → β) (l : List α) :
    (l.flatMap fun a => if p a then [] else [f a]) = (l.filter fun a => !p a).map f := by
  induction l with
  | nil => rfl
  | cons a l ih =>
    rw [List.flatMap_cons, ih]
    cases hp : p a <;> simp [hp]

/-- In a full sync every phase shows a slice of its rows. -/
theorem listPage_eq (source : GitHubSource) (repoConfig : RepoConfig) (phase : Phase) (page : Nat) :
    listPage source repoConfig none phase page =
      ((slice (page * phase.pageSize) phase.pageSize (rows source (repoConfig, phase))).flatMap
        (shown source (repoConfig, phase)), exhausted source (repoConfig, phase) page) := by
  have hcommits : commitsSince (source.repository repoConfig) none =
      (source.repository repoConfig).commits := List.filter_eq_self.mpr fun _ _ => rfl
  cases phase with
  | files =>
    unfold exhausted rows
    dsimp only
    rw [← map_slice, List.flatMap_map, List.length_map]
    refine Prod.ext ?_ rfl
    exact List.filterMap_eq_flatMap_toList _ _
  | commits =>
    unfold exhausted rows listPage listCommitsPage
    dsimp only
    rw [hcommits, ← map_slice, List.flatMap_map, List.length_map]
    refine Prod.ext ?_ rfl
    exact (List.flatMap_pure_eq_map _ _).symm
  | pulls =>
    have hrecent : ∀ pulls : List Pull,
        (pulls.takeWhile fun pull => admitsTime none pull.updatedAt) = pulls := fun pulls =>
      List.takeWhile_eq_self_iff.mpr fun _ _ => rfl
    unfold exhausted rows listPage listPullRequestsPage
    dsimp only
    rw [hrecent, ← map_slice, List.flatMap_map, List.length_map, decide_eq_false (Nat.lt_irrefl _)]
    refine Prod.ext ?_ rfl
    exact (List.flatMap_pure_eq_map _ _).symm
  | issues =>
    have hissues : ((source.repository repoConfig).issues.filter fun issue =>
        admitsTime none issue.updatedAt) = (source.repository repoConfig).issues :=
      List.filter_eq_self.mpr fun _ _ => rfl
    unfold exhausted rows listPage listIssuesPage
    dsimp only
    rw [hissues, ← map_slice, List.flatMap_map, List.length_map]
    refine Prod.ext ?_ rfl
    exact (flatMap_unless _ _ _).symm

theorem pageSize_pos (phase : Phase) : 0 < phase.pageSize := by cases phase <;> decide

section Exhausted

variable {source : GitHubSource} {container : RepoConfig × Phase} {page : Nat}

theorem drop_of_exhausted (h : exhausted source container page = true) :
    (rows source container).drop (page * container.2.pageSize + container.2.pageSize) = [] := by
  obtain ⟨repoConfig, phase⟩ := container
  cases phase with
  | files => exact List.drop_eq_nil_of_le (of_decide_eq_true h)
  | commits | pulls | issues => exact drop_of_short (Nat.ne_of_lt (of_decide_eq_true h))

theorem slice_of_not_exhausted (h : exhausted source container page = false) :
    slice (page * container.2.pageSize) container.2.pageSize (rows source container) ≠ [] := by
  obtain ⟨repoConfig, phase⟩ := container
  have hfull : ∀ {offset size : Nat} {l : List Row}, 0 < size →
      decide ((slice offset size l).length < size) = false → slice offset size l ≠ [] := by
    intro offset size l hsize hfull hnone
    have hlong := of_decide_eq_false hfull
    rw [hnone, List.length_nil] at hlong
    omega
  cases phase with
  | files =>
    have hlong := of_decide_eq_false h
    apply slice_ne_nil (pageSize_pos _)
    omega
  | commits | pulls | issues => exact hfull (pageSize_pos _) h

end Exhausted

section Pages

variable {client : GitHubClient} {source : GitHubSource} {cursor : Option Cursor} {repoConfig : RepoConfig}

theorem fetch_of_repo (h : client.repos[(cursor.getD {}).repoIndex]? = some repoConfig) :
    let state := cursor.getD {}
    let next := nextState client state (exhausted source (repoConfig, state.phase) state.page)
    fetch client source cursor =
      ((slice (place cursor).2 state.phase.pageSize (rows source (repoConfig, state.phase))).flatMap
        (shown source (repoConfig, state.phase)), if next.2 then some (some next.1) else none) := by
  intro state next
  have hpage : fetchBatch client none source cursor =
      { items := (slice (place cursor).2 state.phase.pageSize
            (rows source (repoConfig, state.phase))).flatMap (shown source (repoConfig, state.phase))
        nextCursor := if next.2 then some next.1 else none
        hasMore := next.2 } := by
    unfold fetchBatch
    dsimp only
    rw [h]
    dsimp only
    rw [listPage_eq]
    rfl
  unfold fetch
  rw [hpage]
  unfold FetchResult.next
  dsimp only
  cases next.2 <;> rfl

theorem fetch_of_none (h : client.repos[(cursor.getD {}).repoIndex]? = none) :
    fetch client source cursor = ([], none) := by
  have hpage : fetchBatch client none source cursor = {} := by
    unfold fetchBatch
    dsimp only
    rw [h]
  unfold fetch
  rw [hpage]
  rfl

/-- After its last page a container is followed by the next one, if there is one. -/
theorem nextState_exhausted {state : Cursor}
    (h : client.repos[state.repoIndex]? = some repoConfig) :
    ((nextState client state true).2 = true ∧ (place (some state)).1 + 1 < (containers client).length ∧
        place (some (nextState client state true).1) = ((place (some state)).1 + 1, 0)) ∨
      (nextState client state true).2 = false ∧
        (containers client).length ≤ (place (some state)).1 + 1 := by
  have hrepo : state.repoIndex < client.repos.length := (List.getElem?_eq_some_iff.mp h).1
  have hlength := length_containers client
  have hcount : phases.length = 4 := rfl
  obtain ⟨repoIndex, phase, page⟩ := state
  dsimp only at hrepo
  cases phase with
  | files | commits | pulls =>
    refine .inl ⟨rfl, ?_, ?_⟩
    · show phases.length * repoIndex + _ + 1 < _
      rw [hlength, hcount]
      simp only [Option.getD_some, Phase.index]
      omega
    · exact Prod.ext rfl (Nat.zero_mul _)
  | issues =>
    by_cases hlater : repoIndex + 1 < client.repos.length
    · refine .inl ⟨decide_eq_true hlater, ?_, ?_⟩
      · show phases.length * repoIndex + 3 + 1 < _
        rw [hlength, hcount]
        omega
      · refine Prod.ext ?_ (Nat.zero_mul _)
        show phases.length * (repoIndex + 1) + 0 = phases.length * repoIndex + 3 + 1
        rw [hcount]
        omega
    · refine .inr ⟨decide_eq_false hlater, ?_⟩
      show _ ≤ phases.length * repoIndex + 3 + 1
      rw [hlength, hcount]
      omega

theorem visits (client : GitHubClient) (source : GitHubSource) :
    Visits (containers client) (rows source) (shown source) place (fetch client source) where
  ended := by
    intro cursor h
    rw [containers_place, Option.map_eq_none_iff] at h
    exact fetch_of_none h
  turn := by
    intro cursor container h
    rw [containers_place] at h
    obtain ⟨repoConfig, hrepo, rfl⟩ := Option.map_eq_some_iff.mp h
    have hfetch := @fetch_of_repo client source cursor repoConfig hrepo
    dsimp only at hfetch
    refine ⟨slice (place cursor).2 (cursor.getD {}).phase.pageSize
      (rows source (repoConfig, (cursor.getD {}).phase)),
      (rows source (repoConfig, (cursor.getD {}).phase)).drop
        ((place cursor).2 + (cursor.getD {}).phase.pageSize), ?_, ?_, ?_⟩
    · rw [← List.drop_drop]
      exact (List.take_append_drop _ _).symm
    · rw [hfetch]
    · cases hlast : exhausted source (repoConfig, (cursor.getD {}).phase) (cursor.getD {}).page with
      | false =>
        rw [hlast] at hfetch
        refine .inl ⟨slice_of_not_exhausted hlast,
          some { cursor.getD {} with page := (cursor.getD {}).page + 1 }, ?_, rfl, ?_⟩
        · rw [hfetch]
          rfl
        · show (rows source _).drop (((cursor.getD {}).page + 1) * _) = _
          rw [Nat.succ_mul]
          rfl
      | true =>
        rw [hlast] at hfetch
        have hrest := drop_of_exhausted hlast
        refine .inr ?_
        rcases nextState_exhausted hrepo with ⟨hmore, hlater, hplace⟩ | ⟨hdone, hend⟩
        · refine .inl ⟨hrest, hlater, _, ?_, hplace⟩
          rw [hfetch]
          exact if_pos hmore
        · refine .inr ⟨hrest, hend, ?_⟩
          rw [hfetch, hdone]
          rfl

end Pages

/-!
## What a full walk of GitHub returns

The tree is listed and cut into pages anew for every page. A file that is deleted from the
pages before the offset pulls all later files forward, and one of them past the offset.
-/

/-! ## What there is to return -/

/-- The tree lists each path once, and the other lists each commit and each number. -/
structure Keyed (repository : Repository) : Prop where
  paths : (repository.tree.map TreeEntry.path).Nodup
  shas : (repository.commits.map Commit.sha).Nodup
  pulls : (repository.pulls.map Pull.number).Nodup
  issues : (repository.issues.map Issue.number).Nodup

/-- A blob that is not skipped, of at most 1,000,000 bytes, and its text. -/
structure Eligible (entry : TreeEntry) (content : String) : Prop where
  listed : entry.listed = true
  text : entry.text = some content

def rawFile (repoConfig : RepoConfig) (entry : TreeEntry) (content : String) : RawItem :=
  .file { repo := repoConfig.repo, ref := repoConfig.ref, path := entry.path, content }

/-- The items of one repository. -/
inductive Holds (source : GitHubSource) (repoConfig : RepoConfig) : RawItem → Prop
  | file {entry : TreeEntry} {content : String} :
      entry ∈ (source.repository repoConfig).tree → Eligible entry content →
        Holds source repoConfig (rawFile repoConfig entry content)
  | commit {commit : Commit} : commit ∈ (source.repository repoConfig).commits →
      Holds source repoConfig (commitItem repoConfig commit)
  | pullRequest {pull : Pull} : pull ∈ (source.repository repoConfig).pulls →
      Holds source repoConfig (.pullRequest (buildPullRequestItem source repoConfig pull))
  | issue {issue : Issue} : issue ∈ (source.repository repoConfig).issues →
      issue.isPullRequest = false →
        Holds source repoConfig (.issue (buildIssueItem source repoConfig issue))

/-- The `n`-th page of the walk sees the `n`-th state. -/
def walkAfter (client : GitHubClient) (states : Nat → GitHubSource) :
    Nat → Option (Option Cursor) × List RawItem :=
  visitAfter (fetch client) states none

structure CompleteWalk (client : GitHubClient) (states : Nat → GitHubSource) : Prop where
  ends : ∃ n items, walkAfter client states n = (none, items)
  files : ∀ n items, walkAfter client states n = (none, items) → ∀ repoConfig ∈ client.repos,
    ∀ entry content, Eligible entry content →
      (∀ k, entry ∈ ((states k).repository repoConfig).tree) → rawFile repoConfig entry content ∈ items
  once : (∀ k, states k = states 0) → ∀ n items, walkAfter client states n = (none, items) →
    ∀ repoConfig ∈ client.repos, ∀ raw, Holds (states 0) repoConfig raw → items.count raw = 1

/-- The walk is not outrun, and between two pages no file that is ahead slips before the offset
in the repository whose files are walked. -/
structure Steady (client : GitHubClient) (states : Nat → GitHubSource) : Prop where
  bounded : ∃ bound, ∀ n, ∀ container ∈ containers client, (rows (states n) container).length ≤ bound
  ahead : ∀ i repoConfig, client.repos[i]? = some repoConfig →
    NoSlip (containers client) rows place (fetch client) states none (phases.length * i)
  filled : ∀ n, ∀ repoConfig ∈ client.repos, ∀ entry ∈ ((states n).repository repoConfig).tree,
    ∀ content, Eligible entry content → content ≠ ""
  distinct : client.repos.Nodup

/-! ## Files -/

section Files

variable {source : GitHubSource} {repoConfig : RepoConfig} {entry : TreeEntry} {content : String}

theorem fileItem_eq (hkeyed : Keyed (source.repository repoConfig))
    (hentry : entry ∈ (source.repository repoConfig).tree) (heligible : Eligible entry content)
    (hfilled : content ≠ "") :
    fileItem source repoConfig entry.path = some (rawFile repoConfig entry content) := by
  have hblob : entry.type = .blob := by
    have hlisted := heligible.listed
    unfold TreeEntry.listed at hlisted
    rw [Bool.and_eq_true, Bool.and_eq_true] at hlisted
    exact of_decide_eq_true hlisted.1.1
  have hsome : ((source.repository repoConfig).tree.find? fun other =>
      decide (other.type = .blob ∧ other.path = entry.path)).isSome := by
    rw [List.find?_isSome]
    exact ⟨entry, hentry, decide_eq_true ⟨hblob, rfl⟩⟩
  obtain ⟨found, hfound⟩ := Option.isSome_iff_exists.mp hsome
  have hpath : found.type = .blob ∧ found.path = entry.path := by
    simpa using List.find?_some hfound
  obtain rfl : found = entry :=
    List.inj_on_of_nodup_map hkeyed.paths (List.mem_of_find?_eq_some hfound) hentry hpath.2
  unfold fileItem fetchFileContent
  rw [hfound, Option.bind_some, heligible.text, Option.filter_some, if_pos (decide_eq_true hfilled)]
  rfl

theorem path_mem_rows (hentry : entry ∈ (source.repository repoConfig).tree)
    (heligible : Eligible entry content) : Row.path entry.path ∈ rows source (repoConfig, .files) :=
  List.mem_map_of_mem (List.mem_map_of_mem (List.mem_filter.mpr ⟨hentry, heligible.listed⟩))

end Files

/-! ## Every item once -/

/-- Items that are told apart by the keys of what they come from. -/
theorem nodup_flatMap_of_keys {α β ζ : Type} {f : α → List β} (keyOf : β → ζ) {key : α → ζ} {l : List α}
    (hkeys : (l.map key).Nodup) (hkey : ∀ a ∈ l, ∀ b ∈ f a, keyOf b = key a)
    (heach : ∀ a ∈ l, (f a).Nodup) : (l.flatMap f).Nodup := by
  refine List.nodup_flatMap.mpr ⟨heach, ?_⟩
  refine (List.pairwise_map.mp hkeys).imp_of_mem ?_
  intro a a' ha ha' hne b hb hb'
  exact hne ((hkey a ha b hb).symm.trans (hkey a' ha' b hb'))

/-- The container that an item comes from. -/
def RawItem.container : RawItem → RepoConfig × Phase
  | .file raw => ({ repo := raw.repo, ref := raw.ref }, .files)
  | .commit raw => ({ repo := raw.repo, ref := raw.ref }, .commits)
  | .pullRequest raw => ({ repo := raw.repo, ref := raw.ref }, .pulls)
  | .issue raw => ({ repo := raw.repo, ref := raw.ref }, .issues)

/-- The kind of the item that a row becomes, and its id within the repository. -/
def rowPart : Row → String × String
  | .path path => ("file", path)
  | .commit commit => ("commit", commit.sha)
  | .pull pull => ("pull_request", toString pull.number)
  | .issue issue => ("issue", toString issue.number)

section Once

variable {source : GitHubSource} {client : GitHubClient} {container : RepoConfig × Phase} {raw : RawItem}

theorem mem_shown_issue {issue : Issue} : raw ∈ shown source container (.issue issue) ↔
    issue.isPullRequest = false ∧ raw = .issue (buildIssueItem source container.1 issue) := by
  unfold shown
  by_cases h : issue.isPullRequest <;> simp [h]

theorem part_of_shown {row : Row} (h : raw ∈ shown source container row) : raw.part = rowPart row := by
  cases row with
  | path path =>
    obtain ⟨content, -, rfl⟩ := Option.map_eq_some_iff.mp (Option.mem_toList.mp h)
    rfl
  | commit commit | pull pull =>
    obtain rfl := List.mem_singleton.mp h
    rfl
  | issue issue =>
    obtain ⟨-, rfl⟩ := mem_shown_issue.mp h
    rfl

theorem nodup_shown (row : Row) : (shown source container row).Nodup := by
  cases row with
  | path path =>
    show ((fileItem source container.1 path).toList).Nodup
    cases fileItem source container.1 path with
    | none => exact List.nodup_nil
    | some raw => exact List.nodup_singleton raw
  | commit commit | pull pull => exact List.nodup_singleton _
  | issue issue =>
    show (if issue.isPullRequest then _ else _ : List RawItem).Nodup
    by_cases h : issue.isPullRequest
    · rw [if_pos h]
      exact List.nodup_nil
    · rw [if_neg h]
      exact List.nodup_singleton _

theorem container_of_shown {row : Row} (h : raw ∈ shown source container row) (hrow : row ∈ rows source container) :
    raw.container = container := by
  obtain ⟨repoConfig, phase⟩ := container
  cases phase with
  | files =>
    obtain ⟨path, -, rfl⟩ := List.mem_map.mp hrow
    obtain ⟨content, -, rfl⟩ := Option.map_eq_some_iff.mp (Option.mem_toList.mp h)
    rfl
  | commits =>
    obtain ⟨commit, -, rfl⟩ := List.mem_map.mp hrow
    obtain rfl := List.mem_singleton.mp h
    rfl
  | pulls =>
    obtain ⟨pull, -, rfl⟩ := List.mem_map.mp hrow
    obtain rfl := List.mem_singleton.mp h
    rfl
  | issues =>
    obtain ⟨issue, -, rfl⟩ := List.mem_map.mp hrow
    obtain ⟨-, rfl⟩ := mem_shown_issue.mp h
    rfl

theorem nodup_parts (hkeyed : Keyed (source.repository container.1)) :
    ((rows source container).map rowPart).Nodup := by
  have htagged : ∀ (tag : String) {keys : List String}, keys.Nodup → (keys.map (Prod.mk tag)).Nodup :=
    fun _ _ hkeys => hkeys.map fun _ _ h => (Prod.mk.inj h).2
  have hnumbers : ∀ {keys : List Nat}, keys.Nodup → (keys.map fun n => (toString n : String)).Nodup :=
    fun hkeys => hkeys.map fun _ _ h => Joined.toString_inj.mp h
  obtain ⟨repoConfig, phase⟩ := container
  unfold rows
  cases phase with
  | files =>
    have hpaths : (allPaths (source.repository repoConfig)).Nodup :=
      hkeyed.paths.sublist (List.filter_sublist.map TreeEntry.path)
    have hkeys := htagged "file" hpaths
    rw [List.map_map]
    exact hkeys
  | commits =>
    have hkeys := htagged "commit" hkeyed.shas
    rw [List.map_map] at hkeys ⊢
    exact hkeys
  | pulls =>
    have hkeys := htagged "pull_request" (hnumbers hkeyed.pulls)
    rw [List.map_map, List.map_map] at hkeys
    rw [List.map_map]
    exact hkeys
  | issues =>
    have hkeys := htagged "issue" (hnumbers hkeyed.issues)
    rw [List.map_map, List.map_map] at hkeys
    rw [List.map_map]
    exact hkeys

theorem nodup_itemsOf (hkeyed : Keyed (source.repository container.1)) :
    (itemsOf (rows source) (shown source) container).Nodup :=
  nodup_flatMap_of_keys RawItem.part (nodup_parts hkeyed) (fun _ _ _ h => part_of_shown h) fun row _ => nodup_shown row

theorem nodup_containers (h : client.repos.Nodup) : (containers client).Nodup := by
  have hkeys : (client.repos.map id).Nodup := by
    rw [List.map_id]
    exact h
  refine nodup_flatMap_of_keys Prod.fst hkeys ?_ ?_
  · intro repoConfig _ container hcontainer
    obtain ⟨phase, -, rfl⟩ := List.mem_map.mp hcontainer
    rfl
  · intro repoConfig _
    have hphases : phases.Nodup := by decide
    exact hphases.map fun _ _ h => (Prod.mk.inj h).2

/-- The items of a walk over one state. -/
def allItems (client : GitHubClient) (source : GitHubSource) : List RawItem :=
  (containers client).flatMap (itemsOf (rows source) (shown source))

theorem nodup_allItems (hkeyed : ∀ repoConfig, Keyed (source.repository repoConfig))
    (hdistinct : client.repos.Nodup) : (allItems client source).Nodup := by
  have hkeys : ((containers client).map id).Nodup := by
    rw [List.map_id]
    exact nodup_containers hdistinct
  refine nodup_flatMap_of_keys RawItem.container hkeys ?_ ?_
  · intro container _ raw hraw
    obtain ⟨row, hrow, hshown⟩ := List.mem_flatMap.mp hraw
    exact container_of_shown hshown hrow
  · intro container _
    exact nodup_itemsOf (hkeyed container.1)

theorem mem_containers {repoConfig : RepoConfig} (h : repoConfig ∈ client.repos) (phase : Phase) :
    (repoConfig, phase) ∈ containers client :=
  List.mem_flatMap.mpr ⟨repoConfig, h, List.mem_map_of_mem (by cases phase <;> decide)⟩

theorem mem_allItems {repoConfig : RepoConfig} (hkeyed : Keyed (source.repository repoConfig))
    (hfilled : ∀ entry ∈ (source.repository repoConfig).tree, ∀ content, Eligible entry content →
      content ≠ "")
    (hrepo : repoConfig ∈ client.repos) (h : Holds source repoConfig raw) :
    raw ∈ allItems client source := by
  have hmem : ∀ (phase : Phase) {row}, row ∈ rows source (repoConfig, phase) →
      raw ∈ shown source (repoConfig, phase) row → raw ∈ allItems client source := fun _ _ hrow hshown =>
    List.mem_flatMap.mpr ⟨_, mem_containers hrepo _, List.mem_flatMap.mpr ⟨_, hrow, hshown⟩⟩
  cases h with
  | file hentry heligible =>
    refine hmem .files (path_mem_rows hentry heligible) ?_
    exact Option.mem_toList.mpr (fileItem_eq hkeyed hentry heligible (hfilled _ hentry _ heligible))
  | commit hcommit => exact hmem .commits (List.mem_map_of_mem hcommit) List.mem_cons_self
  | pullRequest hpull => exact hmem .pulls (List.mem_map_of_mem hpull) List.mem_cons_self
  | issue hissue htrue =>
    exact hmem .issues (List.mem_map_of_mem hissue) (mem_shown_issue.mpr ⟨htrue, rfl⟩)

end Once

/-! ## The walk -/

theorem items_of_constant {client : GitHubClient} {states : Nat → GitHubSource}
    (h : ∀ k, states k = states 0) {n : Nat} {items : List RawItem}
    (hended : walkAfter client states n = (none, items)) : items = allItems client (states 0) := by
  have hstates : states = fun _ => states 0 := funext h
  rw [hstates] at hended
  exact (collects_of_ended hended).unique ((visits client (states 0)).collects_all rfl)

def single : GitHubClient where
  repos := [{ repo := "org/app" }]

def sourceOf (paths : List String) : GitHubSource where
  repository _ := { tree := paths.map fun path => { path, size := 4, text := some "text" } }

theorem keyed_sourceOf {paths : List String} (h : paths.Nodup) (repoConfig : RepoConfig) :
    Keyed ((sourceOf paths).repository repoConfig) where
  paths := by
    show ((paths.map fun path => _).map TreeEntry.path).Nodup
    rw [List.map_map]
    exact (List.map_id paths).symm ▸ h
  shas := List.nodup_nil
  pulls := List.nodup_nil
  issues := List.nodup_nil

theorem length_rows_sourceOf (paths : List String) (container : RepoConfig × Phase) :
    (rows (sourceOf paths) container).length ≤ paths.length := by
  obtain ⟨repoConfig, phase⟩ := container
  cases phase with
  | files =>
    show ((allPaths ((sourceOf paths).repository repoConfig)).map Row.path).length ≤ _
    unfold allPaths
    rw [List.length_map, List.length_map]
    exact (List.length_filter_le _ _).trans (List.length_map _).le
  | commits | pulls | issues => exact Nat.zero_le _

/-- A file is added behind the others. -/
def grown : Nat → GitHubSource
  | 0 => sourceOf ["README.md"]
  | _ + 1 => sourceOf ["README.md", "src/main.py"]

def manyPaths : List String := (List.range 51).map fun n => "doc-" ++ toString n

/-- After the first page its first file is deleted. -/
def shrunk : Nat → GitHubSource
  | 0 => sourceOf manyPaths
  | _ + 1 => sourceOf manyPaths.tail

end Ekip.Ingestion.GitHub
