import Ekip.Lib.Datetime
import Ekip.Agents.Retry
import Ekip.Core.Tenancy.Connectors

/-!
# Live evidence: `agents/investigation/live`

What GitHub and Slack are asked for during an investigation, under which credential, and
what the answers are made into. Monitoring has nothing to ask yet.
-/
namespace Ekip.Agents.Investigation.Evidence

open Ekip.Lib Ekip.Database Ekip.Shared Ekip.Core

/-! ## Evidence -/

/-- An `EvidenceItem`, with the time of its source as it was parsed: it may be naive. -/
structure GatheredItem where
  source : EvidenceSource
  reference : String
  summary : String
  retrievedAt : Datetime
  sourceTimestamp : Option Datetime := none
  metadata : Dict String String := ∅

def summaryMaxChars : Nat := 300

/-- A text, cut where it is too long. -/
def truncate (text : String) : String :=
  if summaryMaxChars < text.length then String.ofList (text.toList.take summaryMaxChars) ++ "..."
  else text

/-- What Python takes for true. -/
def truthy (text : Option String) : Option String := text.filter (· ≠ "")

/-- `value.replace("Z", "+00:00")`. -/
def replaceZulu (value : String) : Text :=
  value.toList.flatMap fun c => if c = 'Z' then "+00:00".toList else [c]

/-- What is missing, empty or no date is unknown. -/
def parseTimestamp (value : Option String) : Option Datetime :=
  (truthy value).bind fun value => Datetime.fromisoformat (replaceZulu value)

def incomparable : Exn := .typeError "can't compare offset-naive and offset-aware datetimes"

def notBefore (a b : Datetime) : Bool := (a.subtract b).any (0 ≤ ·)

/-- `sort(key=lambda item: item.source_timestamp or since, reverse=True)`; what compares a
naive time with an aware one raises. -/
def newestFirst (since : Datetime) (items : List GatheredItem) : Except Exn (List GatheredItem) :=
  let key (item : GatheredItem) := item.sourceTimestamp.getD since
  if (items.any fun item => (key item).utcoffset.isNone) &&
      items.any fun item => (key item).utcoffset.isSome then .error incomparable
  else .ok (Query.orderBy notBefore key items)

/-! ## Connectors, as `core/tenancy/service.py` lists them -/

/-- The keys of `config` that the live sources read. An entry of `repos` may lack its `repo`. -/
structure LiveSettings where
  repos : List (Option String) := []
  channels : List String := []
deriving DecidableEq

structure Connector extends Tenancy.ConnectorRow (Tenancy.Config LiveSettings String String) where
  status : Tenancy.ConnectorStatus
deriving DecidableEq

def redactedCredential : String := "••••••••"

/-- The keys with an underscore are state of the worker. -/
def redactCredential (connector : Connector) : Connector :=
  { connector with
    credentialRef := redactedCredential
    config := { operator := connector.config.operator } }

def listConnectors (actor : Identity) (organizationId : Uuid) (rows : List Connector) :
    Except Exn (List Connector) :=
  if actor.organizationId ≠ organizationId then
    .error (permissionDenied "Cannot access another organization's data."
      "tenancy.cross_organization_denied" [("organization_id", toString organizationId)])
  else if Users.authorize actor Tenancy.managePermission then
    .ok ((rows.filter fun row => row.organizationId = organizationId).map redactCredential)
  else
    .error (permissionDenied "You do not have permission to perform this action."
      "permission_denied" [("required_permission", Tenancy.managePermission)])

/-! ## Requests -/

structure Request where
  url : String
  authorization : String
  params : List (String × String)

/-- A pull request is an issue with the key `pull_request`. -/
structure IssueHit where
  htmlUrl : Option String := none
  number : Nat
  title : Option String := none
  body : Option String := none
  updatedAt : Option String := none
  login : Option String := none
  isPullRequest : Bool := false

structure CommitHit where
  htmlUrl : Option String := none
  sha : String
  message : Option String := none
  authorName : Option String := none
  authorDate : Option String := none

structure SlackMessage where
  text : String := ""
  ts : String := ""
  user : Option String := none

structure SlackHistory where
  ok : Bool
  messages : List SlackMessage := []

/-- What the sites answer, or how a request fails. -/
structure Sites where
  searchIssues : Request → Except Exn (List IssueHit)
  searchCommits : Request → Except Exn (List CommitHit)
  conversationsHistory : Request → Except Exn SlackHistory

/-- Both times are in UTC. `timestampText` and `parseTs` are Python's floats. -/
structure Clock where
  now : Datetime
  since : Datetime
  timestampText : Datetime → String
  parseTs : String → Option Datetime
  isUtc : now.utcoffset = some 0 ∧ since.utcoffset = some 0

def liveMetadata : Dict String String := AList.insert "retrieval_mode" "live" ∅

/-- The requests of a source, with what it makes of the answers. -/
abbrev Asked (α : Type) := List Request × Except Exn α

section Sources

variable (sites : Sites) (clock : Clock) (authorization query : String)

/-! ## `github_live.py` -/

def maxReposPerCall : Nat := 5

def perEndpointResults : Nat := 10

def searchParams (q sort : String) : List (String × String) :=
  [("q", q), ("sort", sort), ("order", "desc"), ("per_page", toString perEndpointResults)]

def issuesRequest (repo : String) : Request where
  url := "https://api.github.com/search/issues"
  authorization
  params := searchParams (query ++ " repo:" ++ repo ++ " updated:>=" ++
    String.ofList clock.since.dateText) "updated"

def commitsRequest (repo : String) : Request where
  url := "https://api.github.com/search/commits"
  authorization
  params := searchParams (query ++ " repo:" ++ repo) "author-date"

def buildSummary (title : String) (body : Option String) : String :=
  truncate ((truthy body).elim title fun body =>
    String.ofList (Text.strip (title ++ "\n\n" ++ body).toList))

def issueItem (repo : String) (hit : IssueHit) : GatheredItem where
  source := if hit.isPullRequest then .pullRequest else .issue
  reference := (truthy hit.htmlUrl).getD (repo ++ "#" ++ toString hit.number)
  summary := buildSummary (hit.title.getD "") hit.body
  retrievedAt := clock.now
  sourceTimestamp := parseTimestamp hit.updatedAt
  metadata :=
    (((liveMetadata.insert "repo" repo).insert "kind"
      (if hit.isPullRequest then "pull_request" else "issue")).insert "number"
        (toString hit.number)).insert "author" (hit.login.getD "unknown")

def commitItem (repo : String) (hit : CommitHit) : GatheredItem where
  source := .commit
  reference := (truthy hit.htmlUrl).getD (repo ++ "@" ++ hit.sha)
  summary := buildSummary (hit.message.getD "") none
  retrievedAt := clock.now
  sourceTimestamp := parseTimestamp hit.authorDate
  metadata :=
    (((liveMetadata.insert "repo" repo).insert "kind" "commit").insert "sha" hit.sha).insert
      "author" ((truthy hit.authorName).getD "unknown")

/-- A search that fails is skipped. -/
def searchIssuesAndPulls (repo : String) : List GatheredItem :=
  match sites.searchIssues (issuesRequest clock authorization query repo) with
  | .error _ => []
  | .ok hits => hits.map (issueItem clock repo)

def searchCommits (repo : String) : List GatheredItem :=
  match sites.searchCommits (commitsRequest authorization query repo) with
  | .error _ => []
  | .ok hits => hits.map (commitItem clock repo)

/-- Entries without a name are passed over. -/
def reposOf (settings : LiveSettings) : List String :=
  (settings.repos.take maxReposPerCall).filterMap truthy

def fetchGithub (settings : LiveSettings) (limit : Nat) : Asked (List GatheredItem) :=
  let requests := (reposOf settings).flatMap fun repo =>
    [issuesRequest clock authorization query repo, commitsRequest authorization query repo]
  let evidence := (reposOf settings).flatMap fun repo =>
    searchIssuesAndPulls sites clock authorization query repo ++
      searchCommits sites clock authorization query repo
  (requests, (newestFirst clock.since evidence).map (·.take limit))

/-! ## `slack_live.py` -/

def maxChannelsPerCall : Nat := 5

def historyPageSize : Nat := 100

def minKeywordLength : Nat := 3

def historyRequest (channelId : String) : Request where
  url := "https://slack.com/api/conversations.history"
  authorization
  params := [("channel", channelId), ("oldest", clock.timestampText clock.since),
    ("limit", toString historyPageSize)]

def keywords : List Text :=
  ((Text.words query.toList).filter fun word => minKeywordLength ≤ word.length).map Text.lower

/-- Any keyword will do, and no keyword asks for everything. -/
def keywordsMatch (text : String) : Bool :=
  (keywords query).isEmpty || (keywords query).any fun keyword =>
    decide (keyword <:+: Text.lower text.toList)

def slackItem (channelId : String) (message : SlackMessage) : GatheredItem where
  source := .slack
  reference := "channel:" ++ channelId ++ ":ts:" ++ message.ts
  summary := truncate message.text
  retrievedAt := clock.now
  sourceTimestamp := clock.parseTs message.ts
  metadata :=
    let metadata := liveMetadata.insert "channel_id" channelId
    (truthy message.user).elim metadata fun user => metadata.insert "user" user

def fetchChannelMatches (channelId : String) : List GatheredItem :=
  match sites.conversationsHistory (historyRequest clock authorization channelId) with
  | .error _ => []
  | .ok history =>
    if history.ok then
      (history.messages.filter fun message => keywordsMatch query message.text).map
        (slackItem clock channelId)
    else []

def channelsOf (settings : LiveSettings) : List String := settings.channels.take maxChannelsPerCall

def fetchSlack (settings : LiveSettings) (limit : Nat) : Asked (List GatheredItem) :=
  let requests := (channelsOf settings).map (historyRequest clock authorization)
  let evidence := (channelsOf settings).flatMap
    (fetchChannelMatches sites clock authorization query)
  (requests, (newestFirst clock.since evidence).map (·.take limit))

end Sources

/-! ## `_LIVE_SOURCES` -/

/-- The bearer token is the reference that the connector was given with. -/
def bearer (connector : Connector) : String := "Bearer " ++ connector.credentialRef

/-- The lookup of a source, if there is one. -/
def liveSources : Tenancy.ConnectorSource →
    Option (Sites → Clock → String → Connector → Nat → Asked (List GatheredItem))
  | .github => some fun sites clock query connector limit =>
    fetchGithub sites clock (bearer connector) query connector.config.operator limit
  | .slack => some fun sites clock query connector limit =>
    fetchSlack sites clock (bearer connector) query connector.config.operator limit
  | .monitoring => some fun _ _ _ _ _ => ([], .ok [])
  | _ => none

end Ekip.Agents.Investigation.Evidence
