import Ekip.Lib.Text
import Ekip.Lib.Joined
import Ekip.Ingestion.Connectors.Base
import Ekip.Lib.Paging

/-!
# The GitHub connector: `ingestion/connectors/github.py`

Its four kinds of raw items and what `normalize` makes of them.
-/
namespace Ekip.Ingestion.GitHub

open Ekip.Lib Ekip.Database Ekip.Shared

/-! ## Raw items -/

/-- A file at a branch, a tag or a commit. -/
structure RawFile where
  repo : String
  ref : String
  path : String
  content : String
deriving DecidableEq

structure RawCommit where
  repo : String
  ref : String
  sha : String
  message : String
  author : String
  timestamp : String
  /-- Joined by commas, as is every list below. -/
  changedFiles : String
deriving DecidableEq

/-- What pull requests and issues have in common. -/
structure RawDiscussion where
  repo : String
  ref : String
  number : Nat
  title : String
  body : String
  author : String
  htmlUrl : String
  createdAt : String
deriving DecidableEq

structure RawPullRequest extends RawDiscussion where
  mergedAt : String
  changedFiles : String
  reviews : String
deriving DecidableEq

structure RawIssue extends RawDiscussion where
  labels : String
  closedAt : String
  commentsCount : String
  commentsText : String
deriving DecidableEq

/-- The `_kind` of an item says which of the four it is. -/
inductive RawItem
  | file (raw : RawFile)
  | commit (raw : RawCommit)
  | pullRequest (raw : RawPullRequest)
  | issue (raw : RawIssue)
deriving DecidableEq

/-! ## `normalize` -/

def normalizeFile (raw : RawFile) : RawDocument where
  source := "github"
  externalId := raw.repo ++ ":" ++ raw.path
  content := raw.content
  title := some raw.path
  sourceUrl := some ("https://github.com/" ++ raw.repo ++ "/blob/" ++ raw.ref ++ "/" ++ raw.path)
  metadata := ((AList.insert "repo" raw.repo ∅).insert "path" raw.path).insert "ref" raw.ref

/-- `message.splitlines()[0][:200]`. -/
def firstLine (message : String) : Option String :=
  if message = "" then none
  else (Text.splitLines message.toList).head?.map fun line => String.ofList (line.take 200)

def normalizeCommit (raw : RawCommit) : RawDocument where
  source := "github"
  externalId := raw.repo ++ "@" ++ raw.sha
  content := raw.message
  title := firstLine raw.message
  sourceUrl := some ("https://github.com/" ++ raw.repo ++ "/commit/" ++ raw.sha)
  metadata :=
    (((((AList.insert "repo" raw.repo ∅).insert "kind" "commit").insert "sha" raw.sha).insert
      "author" raw.author).insert "timestamp" raw.timestamp).insert "changed_files" raw.changedFiles

/-- The title and the body, `strip()`ped. -/
def discussionText (raw : RawDiscussion) : String :=
  String.ofList (Text.strip (raw.title ++ "\n\n" ++ raw.body).toList)

def discussionMetadata (kind : String) (raw : RawDiscussion) : Dict String String :=
  ((((AList.insert "repo" raw.repo ∅).insert "kind" kind).insert "number"
    (toString raw.number)).insert "author" raw.author).insert "timestamp" raw.createdAt

def normalizePullRequest (raw : RawPullRequest) : RawDocument where
  source := "github"
  externalId := raw.repo ++ "#pull-" ++ toString raw.number
  content := discussionText raw.toRawDiscussion
  title := some raw.title
  sourceUrl := some raw.htmlUrl
  metadata :=
    withEntry "reviews" (some raw.reviews) (withEntry "merged_at" (some raw.mergedAt)
      ((discussionMetadata "pull_request" raw.toRawDiscussion).insert "changed_files"
        raw.changedFiles))

def normalizeIssue (raw : RawIssue) : RawDocument where
  source := "github"
  externalId := raw.repo ++ "#issue-" ++ toString raw.number
  content :=
    if raw.commentsText = "" then discussionText raw.toRawDiscussion
    else discussionText raw.toRawDiscussion ++ "\n\n--- Comments ---\n\n" ++ raw.commentsText
  title := some raw.title
  sourceUrl := some raw.htmlUrl
  metadata :=
    withEntry "closed_at" (some raw.closedAt) (withEntry "labels" (some raw.labels)
      ((discussionMetadata "issue" raw.toRawDiscussion).insert "comments_count" raw.commentsCount))

def normalize : RawItem → RawDocument
  | .file raw => normalizeFile raw
  | .commit raw => normalizeCommit raw
  | .pullRequest raw => normalizePullRequest raw
  | .issue raw => normalizeIssue raw

/-! ## What an external id names -/

def RawItem.repo : RawItem → String
  | .file raw => raw.repo
  | .commit raw => raw.repo
  | .pullRequest raw => raw.repo
  | .issue raw => raw.repo

/-- The kind of an item and its id within the repository. -/
def RawItem.part : RawItem → String × String
  | .file raw => ("file", raw.path)
  | .commit raw => ("commit", raw.sha)
  | .pullRequest raw => ("pull_request", toString raw.number)
  | .issue raw => ("issue", toString raw.number)

/-- What stands behind the name of the repository. -/
def RawItem.mark : RawItem → String
  | .file raw => ":" ++ raw.path
  | .commit raw => "@" ++ raw.sha
  | .pullRequest raw => "#pull-" ++ toString raw.number
  | .issue raw => "#issue-" ++ toString raw.number

/-- The name of a repository holds none of the three separators. -/
def NamePlain (repo : String) : Prop := ∀ c ∈ [':', '@', '#'], c ∉ repo.toList

theorem externalId_eq (raw : RawItem) : (normalize raw).externalId = raw.repo ++ raw.mark := by
  cases raw with
  | file raw | commit raw | pullRequest raw | issue raw => exact String.append_assoc

theorem mark_start (raw : RawItem) :
    ∃ c ∈ [':', '@', '#'], ∃ rest, raw.mark.toList = c :: rest := by
  cases raw with
  | file raw => exact ⟨':', by simp, raw.path.toList, by simp [RawItem.mark]⟩
  | commit raw => exact ⟨'@', by simp, raw.sha.toList, by simp [RawItem.mark]⟩
  | pullRequest raw =>
    exact ⟨'#', by simp, "pull-".toList ++ (toString raw.number).toList, by simp [RawItem.mark]⟩
  | issue raw =>
    exact ⟨'#', by simp, "issue-".toList ++ (toString raw.number).toList, by simp [RawItem.mark]⟩

theorem mark_inj {a b : RawItem} : a.mark = b.mark ↔ a.part = b.part := by
  rw [← String.toList_inj]
  cases a <;> cases b <;> simp [RawItem.mark, RawItem.part, ← String.toList_inj]

theorem externalId_inj {a b : RawItem} (ha : NamePlain a.repo) (hb : NamePlain b.repo) :
    (normalize a).externalId = (normalize b).externalId ↔ a.repo = b.repo ∧ a.part = b.part := by
  rw [externalId_eq, externalId_eq, ← mark_inj]
  obtain ⟨c, hc, x, hx⟩ := mark_start a
  obtain ⟨d, hd, y, hy⟩ := mark_start b
  have hfirst : a.repo.toList ++ c :: x = b.repo.toList ++ d :: y ↔
      a.repo.toList = b.repo.toList ∧ c = d ∧ x = y :=
    Joined.append_cons_inj_first (ha d hd) (hb c hc)
  rw [← String.toList_inj, String.toList_append, String.toList_append, hx, hy, hfirst,
    String.toList_inj, ← @String.toList_inj a.mark, hx, hy, List.cons.injEq]

/-!
## The walk of the GitHub connector: `ingestion/connectors/github.py`

Each repository is walked through four phases, and each phase page by page. What the site
holds is listed anew for every page.
-/

open Ekip.Lib.Paging

/-! ## What the site holds -/

/-- Where an entry has no account behind it, `login` is missing. -/
structure Comment where
  login : Option String := none
  body : String := ""

structure Review where
  login : Option String := none
  state : String := ""

inductive EntryType
  | blob
  | tree
  | commit
deriving DecidableEq

/-- `text` is the content that is given inline, where it is UTF-8. -/
structure TreeEntry where
  path : String
  type : EntryType := .blob
  size : Nat := 0
  text : Option String := none
deriving DecidableEq

structure Commit where
  sha : String
  message : String := ""
  name : Option String := none
  email : Option String := none
  date : String := ""
  committedAt : Instant := 0
  files : List String := []

structure Pull where
  number : Nat
  title : String := ""
  body : String := ""
  login : Option String := none
  htmlUrl : String := ""
  createdAt : String := ""
  updatedAt : Instant := 0
  mergedAt : String := ""
  files : List String := []
  reviews : List Review := []

/-- A pull request is an issue as well. `commentsCount` comes with the list of the issues, and
the comments from an endpoint of their own. -/
structure Issue where
  number : Nat
  title : String := ""
  body : String := ""
  login : Option String := none
  htmlUrl : String := ""
  labels : List String := []
  createdAt : String := ""
  closedAt : String := ""
  updatedAt : Instant := 0
  commentsCount : Nat := 0
  comments : List Comment := []
  isPullRequest : Bool := false

/-- One repository at one ref; the lists are in the order of the site. -/
structure Repository where
  tree : List TreeEntry := []
  commits : List Commit := []
  pulls : List Pull := []
  issues : List Issue := []

structure RepoConfig where
  repo : String
  ref : String := "main"
deriving DecidableEq

/-- An endpoint that is asked for no page answers with the first one. -/
structure GitHubSource where
  repository : RepoConfig → Repository
  perResponse : Nat := 30

structure GitHubClient where
  repos : List RepoConfig

inductive Phase
  | files
  | commits
  | pulls
  | issues
deriving DecidableEq

structure Cursor where
  repoIndex : Nat := 0
  phase : Phase := .files
  page : Nat := 0

/-! ## Files -/

def treePageSize : Nat := 50

def commitsPageSize : Nat := 50

def maxInlineBlobBytes : Nat := 1000000

def pullsPageSize : Nat := 30

def issuesPageSize : Nat := 30

def skipExtensions : List String :=
  [".png", ".jpg", ".jpeg", ".gif", ".ico", ".svg", ".pdf", ".zip", ".tar", ".gz", ".woff", ".woff2",
   ".ttf", ".eot", ".mp4", ".mov", ".exe", ".dll", ".so", ".bin", ".lock"]

def skipPathSegments : List String :=
  ["__pycache__", ".cache", ".mypy_cache", ".next", ".pytest_cache", ".ruff_cache", "build", "coverage",
   "dist", "node_modules", "site-packages", "target"]

/-- Generated trees, by the directories of the path, and what is not text, by its end. -/
def isSkipped (path : String) : Bool :=
  let normalizedPath := Text.lower (path.toList.map fun c => if c = '\\' then '/' else c)
  let segments := normalizedPath.splitOnP (· = '/')
  let inGeneratedTree := segments.dropLast.any fun segment =>
    skipPathSegments.contains (String.ofList segment) || decide (segment = "venv".toList) ||
      decide (".venv".toList <+: segment)
  inGeneratedTree || skipExtensions.any fun extension => decide (extension.toList <:+ normalizedPath)

def TreeEntry.listed (entry : TreeEntry) : Bool :=
  decide (entry.type = .blob) && !isSkipped entry.path && decide (entry.size ≤ maxInlineBlobBytes)

def allPaths (repository : Repository) : List String :=
  (repository.tree.filter TreeEntry.listed).map TreeEntry.path

/-- A page of paths, and whether it is the last. -/
def listTreePage (repository : Repository) (page : Nat) : List String × Bool :=
  let start := page * treePageSize
  (slice start treePageSize (allPaths repository),
    decide ((allPaths repository).length ≤ start + treePageSize))

/-- What is gone, is not inline text, or is empty, has no content. -/
def fetchFileContent (repository : Repository) (path : String) : Option String :=
  ((repository.tree.find? fun entry => entry.type = .blob ∧ entry.path = path).bind
    TreeEntry.text).filter (· ≠ "")

/-- The commits since a time; GitHub counts its pages from one. -/
def commitsSince (repository : Repository) (since : Option Instant) : List Commit :=
  repository.commits.filter fun commit => admitsTime since commit.committedAt

def listChangedPathsPage (repository : Repository) (since : Instant) (page : Nat) :
    List String × Bool :=
  let commits := slice (page * commitsPageSize) commitsPageSize (commitsSince repository (some since))
  let paths := (commits.flatMap Commit.files).filter fun path => !isSkipped path
  (paths.dedup, decide (commits.length < commitsPageSize))

section Items

variable (source : GitHubSource) (repoConfig : RepoConfig)

def fileItem (path : String) : Option RawItem :=
  (fetchFileContent (source.repository repoConfig) path).map fun content =>
    .file { repo := repoConfig.repo, ref := repoConfig.ref, path, content }

def listFileItemsPage (since : Option Instant) (page : Nat) : List RawItem × Bool :=
  let (paths, exhausted) :=
    match since with
    | none => listTreePage (source.repository repoConfig) page
    | some since => listChangedPathsPage (source.repository repoConfig) since page
  (paths.filterMap (fileItem source repoConfig), exhausted)

/-! ## Commits -/

/-- The first of the two that is given. -/
def author (commit : Commit) : String :=
  ((given commit.name).orElse fun _ => given commit.email).getD "unknown"

def commitItem (commit : Commit) : RawItem :=
  .commit
    { repo := repoConfig.repo
      ref := repoConfig.ref
      sha := commit.sha
      message := commit.message
      author := author commit
      timestamp := commit.date
      changedFiles := ",".intercalate (commit.files.filter fun path => !isSkipped path) }

def listCommitsPage (since : Option Instant) (page : Nat) : List RawItem × Bool :=
  let commits := slice (page * commitsPageSize) commitsPageSize
    (commitsSince (source.repository repoConfig) since)
  (commits.map (commitItem repoConfig), decide (commits.length < commitsPageSize))

/-! ## Pull requests -/

/-- The answer of an endpoint that is asked once. -/
def firstResponse {α : Type} (entries : List α) : List α := entries.take source.perResponse

def listPullRequestFiles (pull : Pull) : List String := firstResponse source pull.files

def listPullRequestReviews (pull : Pull) : String :=
  ",".intercalate ((firstResponse source pull.reviews).map fun review =>
    review.login.getD "unknown" ++ ":" ++ review.state)

def buildPullRequestItem (pull : Pull) : RawPullRequest where
  repo := repoConfig.repo
  ref := repoConfig.ref
  number := pull.number
  title := pull.title
  body := pull.body
  author := pull.login.getD "unknown"
  htmlUrl := pull.htmlUrl
  createdAt := pull.createdAt
  mergedAt := pull.mergedAt
  changedFiles := ",".intercalate (listPullRequestFiles source pull)
  reviews := listPullRequestReviews source pull

/-- The pull requests come with the last updated first, and the first one that is too old
ends the scan. -/
def listPullRequestsPage (since : Option Instant) (page : Nat) : List RawItem × Bool :=
  let pulls := slice (page * pullsPageSize) pullsPageSize (source.repository repoConfig).pulls
  let recent := pulls.takeWhile fun pull => admitsTime since pull.updatedAt
  let cutoffReached := decide (recent.length < pulls.length)
  (recent.map fun pull => .pullRequest (buildPullRequestItem source repoConfig pull),
    cutoffReached || decide (pulls.length < pullsPageSize))

/-! ## Issues -/

def commentText (comment : Comment) : String := comment.login.getD "unknown" ++ ": " ++ comment.body

def fetchIssueCommentsText (issue : Issue) : String :=
  "\n\n".intercalate ((firstResponse source issue.comments).map commentText)

def buildIssueItem (issue : Issue) : RawIssue where
  repo := repoConfig.repo
  ref := repoConfig.ref
  number := issue.number
  title := issue.title
  body := issue.body
  author := issue.login.getD "unknown"
  htmlUrl := issue.htmlUrl
  labels := ",".intercalate issue.labels
  createdAt := issue.createdAt
  closedAt := issue.closedAt
  commentsCount := toString issue.commentsCount
  commentsText := if issue.commentsCount ≠ 0 then fetchIssueCommentsText source issue else ""

/-- The page is the last where it is short before the pull requests are left out. -/
def listIssuesPage (since : Option Instant) (page : Nat) : List RawItem × Bool :=
  let rawIssues := slice (page * issuesPageSize) issuesPageSize
    ((source.repository repoConfig).issues.filter fun issue => admitsTime since issue.updatedAt)
  let trueIssues := rawIssues.filter fun issue => !issue.isPullRequest
  (trueIssues.map fun issue => .issue (buildIssueItem source repoConfig issue),
    decide (rawIssues.length < issuesPageSize))

end Items

/-! ## `fetch_batch` -/

def nextPhase : Phase → Option Phase
  | .files => some .commits
  | .commits => some .pulls
  | .pulls => some .issues
  | .issues => none

def listPage (source : GitHubSource) (repoConfig : RepoConfig) (since : Option Instant) (phase : Phase)
    (page : Nat) : List RawItem × Bool :=
  match phase with
  | .files => listFileItemsPage source repoConfig since page
  | .commits => listCommitsPage source repoConfig since page
  | .pulls => listPullRequestsPage source repoConfig since page
  | .issues => listIssuesPage source repoConfig since page

/-- Where the walk goes on, and whether it does. -/
def nextState (client : GitHubClient) (state : Cursor) (exhausted : Bool) : Cursor × Bool :=
  if exhausted then
    match nextPhase state.phase with
    | some phase => ({ state with phase, page := 0 }, true)
    | none =>
      ({ repoIndex := state.repoIndex + 1, phase := .files, page := 0 },
        decide (state.repoIndex + 1 < client.repos.length))
  else ({ state with page := state.page + 1 }, true)

def fetchBatch (client : GitHubClient) (since : Option Instant) (source : GitHubSource)
    (cursor : Option Cursor) : FetchResult RawItem Cursor Unit :=
  let state := cursor.getD {}
  match client.repos[state.repoIndex]? with
  | none => {}
  | some repoConfig =>
    let (items, exhausted) := listPage source repoConfig since state.phase state.page
    let (next, hasMore) := nextState client state exhausted
    { items, nextCursor := if hasMore then some next else none, hasMore }

end Ekip.Ingestion.GitHub
