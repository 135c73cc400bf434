import Ekip.Lib.Paging
import Ekip.Lib.Visits
import Ekip.Ingestion.Connectors.Base

/-!
# The Jira connector: `ingestion/connectors/jira.py`
-/
namespace Ekip.Ingestion.Jira

open Ekip.Lib Ekip.Lib.Paging Ekip.Database

/-! ## The connector -/

structure Issue where
  key : String
  self : String := ""
  summary : String := ""
  description : String := ""
  issueType : Option String := none
  status : Option String := none
  assignee : Option String := none
  reporter : Option String := none
  created : Option Instant := none
  updated : Instant
  /-- `fields.comment.total`. -/
  commentTotal : Option Nat := none

structure Comment where
  displayName : Option String := none
  body : String := ""

structure JiraClient where
  projects : List String
  baseUrl : String

/-- An issue with its `_project_key` and `_comments_text`. -/
structure RawItem where
  projectKey : String
  issue : Issue
  commentsText : String

/-- A page token stands for the place where the search goes on. -/
structure Cursor where
  projectIndex : Nat := 0
  pageToken : Option Nat := none

/-- The issues of each project in the order of their updates, what the comments endpoint
answers for an issue, and how far the time zone of the API user is ahead of UTC. -/
structure JiraSource where
  issues : String → List Issue
  comments : String → List Comment := fun _ => []
  utcoffset : Int := 0

def searchPageSize : Nat := 50

/-- `strftime("%Y-%m-%d %H:%M")` of the time in UTC: what is less than a minute is cut off. -/
def sinceStr (since : Instant) : Instant := since - since % 60000000

/-- `updated >= "{since_str}"`: the source reads the literal on the clock of the user. -/
def passes (source : JiraSource) (since : Option Instant) (issue : Issue) : Bool :=
  since.all fun t => (sinceStr t : Int) - source.utcoffset ≤ issue.updated

def commentText (comment : Comment) : String :=
  comment.displayName.getD "unknown" ++ ": " ++ comment.body

def fetchCommentsText (source : JiraSource) (issueKey : String) : String :=
  "\n\n".intercalate ((source.comments issueKey).map commentText)

def rawItem (source : JiraSource) (projectKey : String) (issue : Issue) : RawItem where
  projectKey
  issue
  commentsText := if issue.commentTotal.getD 0 ≠ 0 then fetchCommentsText source issue.key else ""

/-- `nextPageToken`, absent on the last page, which alone says `isLast`. -/
def nextPageToken (offset total : Nat) : Option Nat :=
  if offset + searchPageSize < total then some (offset + searchPageSize) else none

def fetchBatch (client : JiraClient) (since : Option Instant) (source : JiraSource)
    (cursor : Option Cursor) : FetchResult RawItem Cursor Unit :=
  let state := cursor.getD {}
  match client.projects[state.projectIndex]? with
  | none => {}
  | some projectKey =>
    let answer := (source.issues projectKey).filter (passes source since)
    let offset := state.pageToken.getD 0
    let issues := slice offset searchPageSize answer
    let token := nextPageToken offset answer.length
    let projectExhausted := token.isNone ∨ issues = []
    let hasMore := ¬ projectExhausted ∨ state.projectIndex + 1 < client.projects.length
    { items := issues.map (rawItem source projectKey)
      nextCursor :=
        if hasMore then
          some (if projectExhausted then { projectIndex := state.projectIndex + 1 }
            else { state with pageToken := token })
        else none
      hasMore }

/-- The issue page of the site that the issue was fetched from. -/
def browseUrl (issue : Issue) : Option String :=
  (given (some issue.self)).map fun url =>
    (url.splitOn "/rest/api/").headD "" ++ "/browse/" ++ issue.key

def body (issue : Issue) : String :=
  if issue.description = "" then issue.summary else issue.summary ++ "\n\n" ++ issue.description

def normalize (raw : RawItem) : RawDocument where
  source := "jira"
  externalId := raw.issue.key
  content :=
    if raw.commentsText = "" then body raw.issue
    else body raw.issue ++ "\n\n--- Comments ---\n\n" ++ raw.commentsText
  title := some ((given (some raw.issue.summary)).getD raw.issue.key)
  sourceUrl := browseUrl raw.issue
  metadata :=
    let project := AList.insert "project" raw.projectKey ∅
    let counted := raw.issue.commentTotal.elim project fun total =>
      project.insert "comments_count" (toString total)
    let described := withEntry "reporter" raw.issue.reporter
      (withEntry "assignee" raw.issue.assignee (withEntry "status" raw.issue.status
        (withEntry "issue_type" raw.issue.issueType counted)))
    (withEntry "created" (raw.issue.created.map toString) described).insert "updated"
      (toString raw.issue.updated)

/-! ## Its walk over the projects -/

variable (client : JiraClient) (since : Option Instant) (source : JiraSource)

def fetch (cursor : Option Cursor) : List RawItem × Option (Option Cursor) :=
  ((fetchBatch client since source cursor).items,
    (fetchBatch client since source cursor).next.map some)

def rows (projectKey : String) : List Issue := (source.issues projectKey).filter (passes source since)

def shown (projectKey : String) (issue : Issue) : List RawItem := [rawItem source projectKey issue]

theorem flatMap_shown (projectKey : String) (issues : List Issue) :
    issues.flatMap (shown source projectKey) = issues.map (rawItem source projectKey) :=
  List.flatMap_pure_eq_map _ _

def place (cursor : Option Cursor) : Nat × Nat :=
  ((cursor.getD {}).projectIndex, (cursor.getD {}).pageToken.getD 0)

theorem fetchBatch_of_project {cursor : Option Cursor} {projectKey : String}
    (h : client.projects[(cursor.getD {}).projectIndex]? = some projectKey) :
    fetchBatch client since source cursor =
      let state := cursor.getD {}
      let offset := state.pageToken.getD 0
      let items := (slice offset searchPageSize (rows since source projectKey)).map
        (rawItem source projectKey)
      if offset + searchPageSize < (rows since source projectKey).length then
        { items
          nextCursor := some { state with pageToken := some (offset + searchPageSize) }
          hasMore := true }
      else
        { items
          nextCursor :=
            if state.projectIndex + 1 < client.projects.length then
              some { projectIndex := state.projectIndex + 1 }
            else none
          hasMore := state.projectIndex + 1 < client.projects.length } := by
  unfold fetchBatch
  dsimp only
  rw [h]
  dsimp only
  by_cases hlong : (cursor.getD {}).pageToken.getD 0 + searchPageSize <
      (rows since source projectKey).length
  · have hoffset : (cursor.getD {}).pageToken.getD 0 < (rows since source projectKey).length := by
      omega
    have hissues := @slice_ne_nil _ _ searchPageSize _ (by decide) hoffset
    have htoken : nextPageToken ((cursor.getD {}).pageToken.getD 0)
        (rows since source projectKey).length =
          some ((cursor.getD {}).pageToken.getD 0 + searchPageSize) := if_pos hlong
    unfold rows at hissues htoken hlong ⊢
    rw [htoken, if_pos hlong]
    simp [hissues]
  · have htoken : nextPageToken ((cursor.getD {}).pageToken.getD 0)
        (rows since source projectKey).length = none := if_neg hlong
    unfold rows at htoken hlong ⊢
    rw [htoken, if_neg hlong]
    simp

theorem visits : Visits client.projects (rows since source) (shown source) place
    (fetch client since source) where
  ended := by
    intro c h
    have hnone : client.projects[(c.getD {}).projectIndex]? = none := h
    have hempty : fetchBatch client since source c = {} := by
      unfold fetchBatch
      dsimp only
      rw [hnone]
    unfold fetch
    rw [hempty]
    rfl
  turn := by
    intro c projectKey h
    have hpage := fetchBatch_of_project client since source h
    dsimp only at hpage
    refine ⟨slice (place c).2 searchPageSize (rows since source projectKey),
      (rows since source projectKey).drop ((place c).2 + searchPageSize), ?_, ?_, ?_⟩
    · rw [← List.drop_drop]
      exact (List.take_append_drop _ _).symm
    · rw [flatMap_shown]
      unfold fetch
      dsimp only
      rw [hpage]
      split <;> rfl
    · by_cases hlong : (c.getD {}).pageToken.getD 0 + searchPageSize <
          (rows since source projectKey).length
      · rw [if_pos hlong] at hpage
        refine .inl ⟨slice_ne_nil (by decide) (Nat.lt_of_le_of_lt (Nat.le_add_right _ _) hlong),
          some { c.getD {} with pageToken := some ((c.getD {}).pageToken.getD 0 + searchPageSize) },
          ?_, rfl, rfl⟩
        unfold fetch
        dsimp only
        rw [hpage]
        rfl
      · rw [if_neg hlong] at hpage
        have hrest : (rows since source projectKey).drop ((place c).2 + searchPageSize) = [] :=
          List.drop_eq_nil_of_le (Nat.le_of_not_lt hlong)
        have hnext : (fetch client since source c).2 =
            (if (c.getD {}).projectIndex + 1 < client.projects.length then
              some { projectIndex := (c.getD {}).projectIndex + 1 } else none).map some := by
          unfold fetch
          dsimp only
          rw [hpage, FetchResult.next_ite]
        refine .inr ?_
        by_cases hlater : (c.getD {}).projectIndex + 1 < client.projects.length
        · rw [if_pos hlater] at hnext
          exact .inl ⟨hrest, hlater, _, hnext, rfl⟩
        · rw [if_neg hlater] at hnext
          exact .inr ⟨hrest, Nat.le_of_not_lt hlater, hnext⟩

/-- A full walk returns the issues of the projects that pass the filter. -/
theorem collects : Collects (fetch client since source) none
    (client.projects.flatMap (itemsOf (rows since source) (shown source))) :=
  (visits client since source).collects_all rfl

end Ekip.Ingestion.Jira
