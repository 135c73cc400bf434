import Ekip.Ingestion.Connectors.Base

/-!
# The SharePoint connector: `ingestion/connectors/sharepoint.py`

The delta endpoint of Graph lists the changes of a site. A link to it is modelled
by what Graph encodes in it, the site and a position in the log of its changes:
`@odata.nextLink` goes on with the page after this one, `@odata.deltaLink` with
whatever comes after the changes that there are now.
-/
namespace Ekip.Ingestion.SharePoint

open Ekip.Database Ekip.Shared Ekip.Core

structure Link where
  site : String
  position : Nat
deriving DecidableEq

/-- An entry of a page. `modifiedAt` is the time that `lastModifiedDateTime` says,
if it says one, and `content` the text that can be downloaded, if there is any. -/
structure DriveItem where
  id : String
  name : Option String := none
  isFile : Bool := true
  lastModifiedDateTime : Option String := none
  modifiedAt : Option Instant := none
  content : Option String := none
  webUrl : Option String := none
  parentPath : Option String := none
deriving DecidableEq

structure Response where
  value : List DriveItem := []
  nextLink : Option Link := none
  deltaLink : Option Link := none

/-- `{site_id: deltaLink}`. -/
abbrev ResumeState := Dict String Link

structure Cursor where
  siteIndex : Nat
  nextLink : Option Link := none
deriving DecidableEq

structure SharePointConfig where
  siteIds : List String
deriving DecidableEq

structure SharePointClient where
  siteIds : List String
  resumeState : ResumeState := ∅

/-- A drive item with its `_site_id` and `_content`. -/
structure RawItem where
  siteId : String
  entry : DriveItem
  content : String
deriving DecidableEq

def authenticate (config : SharePointConfig) : Except Exn SharePointClient :=
  if config.siteIds = [] then
    .error (.runtimeError "SharePoint connector config is missing required 'site_ids'")
  else .ok { siteIds := config.siteIds }

def decodeCursor (cursor : Option Cursor) : Cursor := cursor.getD { siteIndex := 0 }

/-- An entry without a readable time is kept. -/
def isRecentEnough (entry : DriveItem) (since : Instant) : Bool :=
  entry.modifiedAt.all fun t => since ≤ t

/-- The entries of a page that are ingested. -/
def ingestible (since : Option Instant) (siteId : String) (entry : DriveItem) : Option RawItem :=
  if entry.isFile ∧ since.all (isRecentEnough entry) then
    entry.content.map fun content => { siteId, entry, content }
  else none

namespace SharePointClient

/-- The token is decoded on the first call of a sync. -/
def seed (client : SharePointClient) (resumeToken : Option ResumeState) : SharePointClient :=
  match resumeToken with
  | some token =>
    if client.resumeState.entries = [] then { client with resumeState := token } else client
  | none => client

/-- What is requested. The root of the log is the link to its beginning. -/
def startUrl (resumeState : ResumeState) (siteId : String) : Link :=
  (resumeState.lookup siteId).getD { site := siteId, position := 0 }

def request (client : SharePointClient) (cursor : Cursor) : Option Link :=
  client.siteIds[cursor.siteIndex]?.map fun siteId =>
    cursor.nextLink.getD (startUrl client.resumeState siteId)

end SharePointClient

def fetchBatch (client : SharePointClient) (response : Response) (since : Option Instant)
    (cursor : Option Cursor) (resumeToken : Option ResumeState) :
    FetchResult RawItem Cursor ResumeState × SharePointClient :=
  let client := client.seed resumeToken
  let siteIndex := (decodeCursor cursor).siteIndex
  match client.siteIds[siteIndex]? with
  | none => ({}, client)
  | some siteId =>
    let items := response.value.filterMap (ingestible since siteId)
    match response.nextLink with
    | some graphNextLink =>
      ({ items, nextCursor := some { siteIndex, nextLink := some graphNextLink }
         hasMore := true }, client)
    | none =>
      let client := match response.deltaLink with
        | some graphDeltaLink =>
          { client with resumeState := client.resumeState.insert siteId graphDeltaLink }
        | none => client
      let hasMore := siteIndex + 1 < client.siteIds.length
      ({ items
         nextCursor := if hasMore then some { siteIndex := siteIndex + 1 } else none
         hasMore
         resumeToken := response.deltaLink.map fun _ => client.resumeState }, client)

def normalize (rawItem : RawItem) : RawDocument where
  source := "sharepoint"
  externalId := rawItem.siteId ++ ":" ++ rawItem.entry.id
  content := rawItem.content
  title := some (rawItem.entry.name.getD rawItem.entry.id)
  sourceUrl := rawItem.entry.webUrl
  metadata :=
    let siteId : Dict String String := AList.insert "site_id" rawItem.siteId ∅
    let updated := rawItem.entry.lastModifiedDateTime.elim siteId fun t => siteId.insert "updated" t
    rawItem.entry.parentPath.elim updated fun path => updated.insert "folder_path" path

def sharePointConnector :
    Connector SharePointConfig SharePointClient Response RawItem Cursor ResumeState where
  sourceName := "sharepoint"
  supportsResumeToken := true
  authenticate := authenticate
  fetchBatch := fetchBatch
  normalize := normalize

variable {client : SharePointClient} {response : Response} {since : Option Instant}
  {cursor : Option Cursor} {resumeToken : Option ResumeState} {siteId : String} {link : Link}

theorem seed_seed (client : SharePointClient) (resumeToken : Option ResumeState) :
    (client.seed resumeToken).seed resumeToken = client.seed resumeToken := by
  cases resumeToken with
  | none => rfl
  | some token =>
    unfold SharePointClient.seed
    dsimp only
    split
    · split <;> rfl
    · rfl

theorem seed_siteIds (client : SharePointClient) (resumeToken : Option ResumeState) :
    (client.seed resumeToken).siteIds = client.siteIds := by
  unfold SharePointClient.seed
  split
  · split <;> rfl
  · rfl

/-- A client that has a resume state is not seeded again. -/
theorem seed_insert (client : SharePointClient) (resumeToken : Option ResumeState) (d : Link) :
    SharePointClient.seed { client with resumeState := client.resumeState.insert siteId d } resumeToken =
      { client with resumeState := client.resumeState.insert siteId d } := by
  cases resumeToken with
  | none => rfl
  | some token =>
    unfold SharePointClient.seed
    exact if_neg (by simp)

theorem fetchBatch_nowhere (hsite : client.siteIds[(decodeCursor cursor).siteIndex]? = none) :
    fetchBatch client response since cursor resumeToken = ({}, client.seed resumeToken) := by
  simp [fetchBatch, seed_siteIds, hsite]

theorem fetchBatch_nextLink (hsite : client.siteIds[(decodeCursor cursor).siteIndex]? = some siteId)
    (hnext : response.nextLink = some link) :
    fetchBatch client response since cursor resumeToken =
      ({ items := response.value.filterMap (ingestible since siteId)
         nextCursor := some { siteIndex := (decodeCursor cursor).siteIndex, nextLink := some link }
         hasMore := true }, client.seed resumeToken) := by
  simp [fetchBatch, seed_siteIds, hsite, hnext]

theorem fetchBatch_deltaLink (hsite : client.siteIds[(decodeCursor cursor).siteIndex]? = some siteId)
    (hnext : response.nextLink = none) (hdelta : response.deltaLink = some link) :
    fetchBatch client response since cursor resumeToken =
      ({ items := response.value.filterMap (ingestible since siteId)
         nextCursor := if (decodeCursor cursor).siteIndex + 1 < client.siteIds.length then
           some { siteIndex := (decodeCursor cursor).siteIndex + 1 } else none
         hasMore := (decodeCursor cursor).siteIndex + 1 < client.siteIds.length
         resumeToken := some ((client.seed resumeToken).resumeState.insert siteId link) },
        { client.seed resumeToken with
          resumeState := (client.seed resumeToken).resumeState.insert siteId link }) := by
  simp [fetchBatch, seed_siteIds, hsite, hnext, hdelta]

end Ekip.Ingestion.SharePoint
