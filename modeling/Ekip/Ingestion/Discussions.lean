import Ekip.Ingestion.Connectors.AzureDevOps
import Ekip.Ingestion.Connectors.GitHub
import Ekip.Ingestion.Connectors.Jira

/-!
# Items with all their comments

The comments of an item come from an endpoint of their own, which the connectors ask once. What
it keeps for further pages is in no document.
-/
namespace Ekip.Ingestion

open Ekip.Lib Ekip.Lib.Joined Ekip.Shared

variable {γ : Type}

/-! ## What a document says of its comments -/

def withComments (own comments : String) : String :=
  if comments = "" then own else own ++ "\n\n--- Comments ---\n\n" ++ comments

/-- All comments are in the content, behind the text of the item. -/
structure Discussed (own : String) (texts : List String) (content : String) : Prop where
  complete : content = withComments own ("\n\n".intercalate texts)
  inOrder : InOrder (texts.map String.toList) content.toList

theorem withComments_inj {own a b : String} (h : withComments own a = withComments own b) : a = b := by
  have hlonger : ∀ comments : String, own ≠ own ++ "\n\n--- Comments ---\n\n" ++ comments := by
    intro comments heq
    have hlengths := congrArg String.length heq
    rw [String.length_append, String.length_append] at hlengths
    have hdelimiter : "\n\n--- Comments ---\n\n".length = 20 := by decide
    omega
  unfold withComments at h
  by_cases ha : a = ""
  · by_cases hb : b = ""
    · rw [ha, hb]
    · rw [if_pos ha, if_neg hb] at h
      exact absurd h (hlonger b)
  · by_cases hb : b = ""
    · rw [if_neg ha, if_pos hb] at h
      exact absurd h.symm (hlonger a)
    · rw [if_neg ha, if_neg hb] at h
      exact (String.append_right_inj _).mp h

theorem inOrder_withComments (own : String) {texts : List String} {comments : String}
    (h : InOrder (texts.map String.toList) comments.toList) :
    InOrder (texts.map String.toList) (withComments own comments).toList := by
  unfold withComments
  by_cases hnone : comments = ""
  · rw [if_pos hnone]
    rw [hnone] at h
    have hbehind := h.behind own.toList
    rwa [String.toList_empty, List.append_nil] at hbehind
  · rw [if_neg hnone, String.toList_append]
    exact h.behind _

/-- What is fetched behind the gate of the count is everything. -/
theorem discussed_iff {own : String} {comments : List γ} {shown : γ → String} {perResponse count : Nat}
    (hresponse : 0 < perResponse) (hshown : ∀ comment, shown comment ≠ "") :
    Discussed own (comments.map shown) (withComments own
        (if count ≠ 0 then "\n\n".intercalate ((comments.take perResponse).map shown) else "")) ↔
      comments.length ≤ perResponse ∧ (comments ≠ [] → count ≠ 0) := by
  have htake := @intercalate_take_iff "\n\n" (by decide) _ hresponse (comments.map shown)
  rw [← List.map_take, List.length_map] at htake
  constructor
  · intro h
    have hfetched := withComments_inj h.complete
    by_cases hcount : count ≠ 0
    · rw [if_pos hcount] at hfetched
      exact ⟨htake.mp hfetched, fun _ => hcount⟩
    · rw [if_neg hcount] at hfetched
      have hnone : comments = [] := by
        by_contra hsome
        refine intercalate_ne_empty (by simpa using hsome) ?_ hfetched.symm
        intro text htext
        obtain ⟨comment, -, rfl⟩ := List.mem_map.mp htext
        exact hshown comment
      subst hnone
      exact ⟨Nat.zero_le _, fun hsome => absurd rfl hsome⟩
  · rintro ⟨hfits, hgate⟩
    have hall : (if count ≠ 0 then "\n\n".intercalate ((comments.take perResponse).map shown) else "") =
        "\n\n".intercalate (comments.map shown) := by
      by_cases hcount : count ≠ 0
      · rw [if_pos hcount]
        exact htake.mpr hfits
      · have hnone : comments = [] := by
          by_contra hsome
          exact hcount (hgate hsome)
        rw [if_neg hcount, hnone]
        rfl
    rw [hall]
    exact ⟨rfl, inOrder_withComments own (inOrder_intercalate _ _)⟩

theorem comment_ne_empty (author body : String) : author ++ ": " ++ body ≠ "" := by
  rw [String.append_assoc]
  intro h
  have hlength := congrArg String.length h
  rw [String.length_append, String.length_append] at hlength
  have hcolon : ": ".length = 2 := by decide
  have hempty : "".length = 0 := rfl
  omega

/-! ## The three sources -/

/-- The comments endpoint answers with the first comments. -/
def Jira.JiraSource.firstResponses (source : Jira.JiraSource) (perResponse : Nat) : Jira.JiraSource :=
  { source with comments := fun issueKey => (source.comments issueKey).take perResponse }

namespace AzureDevOps

def report (item : WorkItem) : String :=
  if item.description = "" then item.title else item.title ++ "\n\n" ++ item.description

def commentText (comment : Comment) : String := comment.createdBy ++ ": " ++ comment.text

end AzureDevOps

theorem lookup_withEntry_ne {key other : String} (h : key ≠ other) (text : Option String)
    (metadata : Dict String String) :
    (withEntry other text metadata).lookup key = metadata.lookup key := by
  unfold withEntry
  cases given text with
  | none => rfl
  | some value => exact AList.lookup_insert_ne h

theorem GitHub.lookup_changedFiles (raw : GitHub.RawPullRequest) :
    (GitHub.normalize (.pullRequest raw)).metadata.lookup "changed_files" = some raw.changedFiles := by
  show (withEntry "reviews" _ (withEntry "merged_at" _ _)).lookup "changed_files" = _
  rw [lookup_withEntry_ne (by decide), lookup_withEntry_ne (by decide)]
  exact AList.lookup_insert _

section Sources

variable {perResponse : Nat}

theorem gitHub_issue_discussed_iff (hresponse : 0 < perResponse)
    (repository : GitHub.RepoConfig → GitHub.Repository) (repoConfig : GitHub.RepoConfig)
    (issue : GitHub.Issue) :
    let raw := GitHub.buildIssueItem { repository, perResponse } repoConfig issue
    Discussed (GitHub.discussionText raw.toRawDiscussion) (issue.comments.map GitHub.commentText)
        (GitHub.normalize (.issue raw)).content ↔
      issue.comments.length ≤ perResponse ∧ (issue.comments ≠ [] → issue.commentsCount ≠ 0) := by
  intro raw
  exact discussed_iff hresponse fun comment => comment_ne_empty _ _

theorem jira_issue_discussed_iff (hresponse : 0 < perResponse) (source : Jira.JiraSource)
    (projectKey : String) (issue : Jira.Issue) :
    Discussed (Jira.body issue) ((source.comments issue.key).map Jira.commentText)
        (Jira.normalize (Jira.rawItem (source.firstResponses perResponse) projectKey issue)).content ↔
      (source.comments issue.key).length ≤ perResponse ∧
        (source.comments issue.key ≠ [] → issue.commentTotal.getD 0 ≠ 0) := by
  exact discussed_iff hresponse fun comment => comment_ne_empty _ _

theorem azureDevOps_item_discussed_iff (hresponse : 0 < perResponse)
    (client : AzureDevOps.AzureDevOpsClient) (project : String) (item : AzureDevOps.WorkItem) :
    Discussed (AzureDevOps.report item) (item.comments.map AzureDevOps.commentText)
        (AzureDevOps.normalize (AzureDevOps.rawItem client project perResponse item)).content ↔
      item.comments.length ≤ perResponse := by
  have hiff : Discussed (AzureDevOps.report item) (item.comments.map AzureDevOps.commentText)
      (AzureDevOps.normalize (AzureDevOps.rawItem client project perResponse item)).content ↔ _ :=
    discussed_iff hresponse fun comment => comment_ne_empty _ _
  refine hiff.trans ⟨And.left, fun hfits => ⟨hfits, ?_⟩⟩
  intro hsome hnone
  exact hsome (List.length_eq_zero_iff.mp hnone)

theorem pull_request_files_iff (hresponse : 0 < perResponse)
    (repository : GitHub.RepoConfig → GitHub.Repository) (repoConfig : GitHub.RepoConfig)
    (pull : GitHub.Pull) :
    (GitHub.normalize (.pullRequest
        (GitHub.buildPullRequestItem { repository, perResponse } repoConfig pull))).metadata.lookup
          "changed_files" = some (",".intercalate pull.files) ↔ pull.files.length ≤ perResponse := by
  have hlookup := GitHub.lookup_changedFiles
    (GitHub.buildPullRequestItem { repository, perResponse } repoConfig pull)
  rw [hlookup, Option.some_inj]
  exact intercalate_take_iff (by decide) hresponse pull.files

/-- The documents hold all comments, and name all files, where these fit into one response. -/
theorem discussions_complete_iff (hresponse : 0 < perResponse) :
    (∀ (repository : GitHub.RepoConfig → GitHub.Repository) (repoConfig : GitHub.RepoConfig)
        (issue : GitHub.Issue),
      let raw := GitHub.buildIssueItem { repository, perResponse } repoConfig issue
      Discussed (GitHub.discussionText raw.toRawDiscussion) (issue.comments.map GitHub.commentText)
          (GitHub.normalize (.issue raw)).content ↔
        issue.comments.length ≤ perResponse ∧ (issue.comments ≠ [] → issue.commentsCount ≠ 0)) ∧
    (∀ (source : Jira.JiraSource) (projectKey : String) (issue : Jira.Issue),
      Discussed (Jira.body issue) ((source.comments issue.key).map Jira.commentText)
          (Jira.normalize (Jira.rawItem (source.firstResponses perResponse) projectKey issue)).content ↔
        (source.comments issue.key).length ≤ perResponse ∧
          (source.comments issue.key ≠ [] → issue.commentTotal.getD 0 ≠ 0)) ∧
    (∀ (client : AzureDevOps.AzureDevOpsClient) (project : String) (item : AzureDevOps.WorkItem),
      Discussed (AzureDevOps.report item) (item.comments.map AzureDevOps.commentText)
          (AzureDevOps.normalize (AzureDevOps.rawItem client project perResponse item)).content ↔
        item.comments.length ≤ perResponse) ∧
    ∀ (repository : GitHub.RepoConfig → GitHub.Repository) (repoConfig : GitHub.RepoConfig)
        (pull : GitHub.Pull),
      (GitHub.normalize (.pullRequest
          (GitHub.buildPullRequestItem { repository, perResponse } repoConfig pull))).metadata.lookup
            "changed_files" = some (",".intercalate pull.files) ↔ pull.files.length ≤ perResponse :=
  ⟨gitHub_issue_discussed_iff hresponse, jira_issue_discussed_iff hresponse,
    azureDevOps_item_discussed_iff hresponse, pull_request_files_iff hresponse⟩

end Sources

/-! ## One comment more than a response holds -/

def noRepository : GitHub.RepoConfig → GitHub.Repository := fun _ => {}

def widgets : GitHub.RepoConfig := { repo := "acme/widgets" }

def outage (comments : List GitHub.Comment) : GitHub.Issue :=
  { number := 7, title := "Outage", commentsCount := comments.length, comments }

theorem discussions_complete_outage :
    let raw := GitHub.buildIssueItem { repository := noRepository, perResponse := 1 } widgets
      (outage [{ body := "Fixed" }])
    Discussed (GitHub.discussionText raw.toRawDiscussion)
      ((outage [{ body := "Fixed" }]).comments.map GitHub.commentText)
      (GitHub.normalize (.issue raw)).content :=
  ((discussions_complete_iff (by decide)).1 noRepository widgets (outage [{ body := "Fixed" }])).mpr
    ⟨by decide, by decide⟩

/-- The second comment is not in the content, and the second file is not named. -/
theorem second_comment_lost :
    (¬ "unknown: Fixed".toList <:+: (GitHub.normalize (.issue
      (GitHub.buildIssueItem { repository := noRepository, perResponse := 1 } widgets
        (outage [{ body := "Seen" }, { body := "Fixed" }])))).content.toList) ∧
    (GitHub.normalize (.pullRequest
      (GitHub.buildPullRequestItem { repository := noRepository, perResponse := 1 } widgets
        { number := 8, files := ["app.py", "db.py"] }))).metadata.lookup "changed_files" =
          some "app.py" := by
  constructor
  · decide +kernel
  · decide +kernel

end Ekip.Ingestion
