import Ekip.Ingestion.Connectors.Base

/-!
# The Teams connector: `ingestion/connectors/teams.py`

A full sync walks the plain listing of each channel, an incremental one its delta
endpoint. A link is modelled by what Graph encodes in it: the endpoint, the channel
and a position; the root of an endpoint is the link to its beginning.
-/
namespace Ekip.Ingestion.Teams

open Ekip.Database Ekip.Shared Ekip.Core

inductive Link
  | messages (channelId : String) (position : Nat)
  | delta (channelId : String) (since : Instant) (position : Nat)
deriving DecidableEq

structure Message where
  id : String
  content : String
  author : Option String := none
  createdDateTime : Option String := none
  replyToId : Option String := none
  webUrl : Option String := none
deriving DecidableEq

structure Response where
  value : List Message := []
  nextLink : Option Link := none
  deltaLink : Option Link := none

/-- `{channel_id: deltaLink}`. -/
abbrev ResumeState := Dict String Link

structure Cursor where
  channelIndex : Nat
  nextLink : Option Link := none
deriving DecidableEq

structure TeamsConfig where
  teamId : String
  channels : List String
deriving DecidableEq

structure TeamsClient where
  teamId : String
  channels : List String
  resumeState : ResumeState := ∅

/-- A message with its `_channel_id`. -/
structure RawItem where
  channelId : String
  message : Message
deriving DecidableEq

def authenticate (config : TeamsConfig) : Except Exn TeamsClient :=
  if config.teamId = "" then
    .error (.runtimeError "Teams connector config is missing required 'team_id'")
  else .ok { teamId := config.teamId, channels := config.channels }

def decodeCursor (cursor : Option Cursor) : Cursor := cursor.getD { channelIndex := 0 }

namespace TeamsClient

/-- The token is decoded on the first call of a sync. -/
def seed (client : TeamsClient) (resumeToken : Option ResumeState) : TeamsClient :=
  match resumeToken with
  | some token =>
    if client.resumeState.entries = [] then { client with resumeState := token } else client
  | none => client

/-- What is requested. A full sync never looks at the saved delta links. -/
def request (client : TeamsClient) (since : Option Instant) (cursor : Cursor) : Option Link :=
  client.channels[cursor.channelIndex]?.map fun channelId =>
    cursor.nextLink.getD (match since with
      | none => .messages channelId 0
      | some t => (client.resumeState.lookup channelId).getD (.delta channelId t 0))

end TeamsClient

/-- Stay on this channel or move to the next one. -/
def advanceChannelCursor (channelIndex channelCount : Nat) : Option Link → Cursor × Bool
  | some graphNextLink => ({ channelIndex, nextLink := some graphNextLink }, true)
  | none => ({ channelIndex := channelIndex + 1 }, channelIndex + 1 < channelCount)

def fetchFullSyncPage (client : TeamsClient) (response : Response) (channelIndex : Nat)
    (channelId : String) : FetchResult RawItem Cursor ResumeState × TeamsClient :=
  let (nextState, hasMore) :=
    advanceChannelCursor channelIndex client.channels.length response.nextLink
  ({ items := response.value.map fun message => { channelId, message }
     nextCursor := if hasMore then some nextState else none
     hasMore }, client)

def fetchIncrementalPage (client : TeamsClient) (response : Response) (channelIndex : Nat)
    (channelId : String) : FetchResult RawItem Cursor ResumeState × TeamsClient :=
  let deltaLink := if response.nextLink.isNone then response.deltaLink else none
  let client := match deltaLink with
    | some graphDeltaLink =>
      { client with resumeState := client.resumeState.insert channelId graphDeltaLink }
    | none => client
  let (nextState, hasMore) :=
    advanceChannelCursor channelIndex client.channels.length response.nextLink
  ({ items := response.value.map fun message => { channelId, message }
     nextCursor := if hasMore then some nextState else none
     hasMore
     resumeToken := deltaLink.map fun _ => client.resumeState }, client)

def fetchBatch (client : TeamsClient) (response : Response) (since : Option Instant)
    (cursor : Option Cursor) (resumeToken : Option ResumeState) :
    FetchResult RawItem Cursor ResumeState × TeamsClient :=
  let client := client.seed resumeToken
  let channelIndex := (decodeCursor cursor).channelIndex
  match client.channels[channelIndex]? with
  | none => ({}, client)
  | some channelId =>
    match since with
    | none => fetchFullSyncPage client response channelIndex channelId
    | some _ => fetchIncrementalPage client response channelIndex channelId

def normalize (rawItem : RawItem) : RawDocument where
  source := "teams"
  externalId := rawItem.channelId ++ ":" ++ rawItem.message.id
  content := rawItem.message.content
  sourceUrl := rawItem.message.webUrl
  metadata :=
    withEntry "reply_to_id" rawItem.message.replyToId
      (withEntry "created" rawItem.message.createdDateTime
        (withEntry "author" rawItem.message.author
          (AList.insert "channel_id" rawItem.channelId ∅)))

def teamsConnector : Connector TeamsConfig TeamsClient Response RawItem Cursor ResumeState where
  sourceName := "teams"
  supportsResumeToken := true
  authenticate := authenticate
  fetchBatch := fetchBatch
  normalize := normalize

theorem authenticate_channels {config : TeamsConfig} {client : TeamsClient}
    (h : authenticate config = .ok client) : client.channels = config.channels := by
  unfold authenticate at h
  split at h
  · cases h
  · cases h
    rfl

/-! ## A page of a full sync -/

variable {client : TeamsClient} {response : Response} {cursor : Option Cursor}
  {resumeToken : Option ResumeState} {channelId : String} {link : Link}

theorem seed_channels (client : TeamsClient) (resumeToken : Option ResumeState) :
    (client.seed resumeToken).channels = client.channels := by
  unfold TeamsClient.seed
  split
  · split <;> rfl
  · rfl

theorem fetchBatch_nowhere
    (hchannel : client.channels[(decodeCursor cursor).channelIndex]? = none) :
    fetchBatch client response none cursor resumeToken = ({}, client.seed resumeToken) := by
  simp [fetchBatch, seed_channels, hchannel]

theorem fetchBatch_channel
    (hchannel : client.channels[(decodeCursor cursor).channelIndex]? = some channelId) :
    fetchBatch client response none cursor resumeToken =
      ((fetchFullSyncPage client response (decodeCursor cursor).channelIndex channelId).1,
        client.seed resumeToken) := by
  simp [fetchBatch, fetchFullSyncPage, seed_channels, hchannel]

theorem fetchFullSyncPage_nextLink (channelIndex : Nat) (hnext : response.nextLink = some link) :
    (fetchFullSyncPage client response channelIndex channelId).1.next =
      some { channelIndex, nextLink := some link } := by
  simp [fetchFullSyncPage, advanceChannelCursor, FetchResult.next, hnext]

theorem fetchFullSyncPage_lastPage (channelIndex : Nat) (hnext : response.nextLink = none) :
    (fetchFullSyncPage client response channelIndex channelId).1.next =
      if channelIndex + 1 < client.channels.length then some { channelIndex := channelIndex + 1 }
      else none := by
  simp [fetchFullSyncPage, advanceChannelCursor, FetchResult.next, hnext]

end Ekip.Ingestion.Teams
