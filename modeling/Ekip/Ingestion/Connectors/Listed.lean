import Ekip.Ingestion.Connectors.Base

/-!
# Connectors of which only `normalize` is modelled
-/
namespace Ekip.Ingestion.Slack

open Ekip.Lib Ekip.Shared

/-!
## The Slack connector: `ingestion/connectors/slack.py`

What it makes of a message. The walk over the channels is not part of this model.
-/

/-- A message with its `_channel_id`. -/
structure RawItem where
  channelId : String
  ts : String
  text : String := ""
  user : Option String := none
  threadTs : Option String := none

def normalize (rawItem : RawItem) : RawDocument where
  source := "slack"
  externalId := rawItem.channelId ++ ":" ++ rawItem.ts
  content := rawItem.text
  metadata :=
    withEntry "thread_ts" (rawItem.threadTs.filter (· ≠ rawItem.ts))
      (withEntry "user" rawItem.user (AList.insert "channel_id" rawItem.channelId ∅))

end Ekip.Ingestion.Slack

/-!
## The Google Drive connector: `ingestion/connectors/google_drive.py`

What it makes of a file. The walk over the folders and the downloads are not part of this
model.
-/
namespace Ekip.Ingestion.GoogleDrive

open Ekip.Lib Ekip.Shared

/-- A file with its `_content`. -/
structure RawItem where
  id : String
  name : Option String := none
  mimeType : String := ""
  modifiedTime : String := ""
  webViewLink : Option String := none
  /-- The names of its owners. -/
  owners : List String := []
  content : String

def normalize (rawItem : RawItem) : RawDocument where
  source := "google_drive"
  externalId := rawItem.id
  title := rawItem.name
  content := rawItem.content
  sourceUrl := rawItem.webViewLink
  metadata :=
    let described : Dict String String :=
      (AList.insert "mime_type" rawItem.mimeType ∅).insert "modified" rawItem.modifiedTime
    rawItem.owners.head?.elim described fun owner => described.insert "owner" owner

end Ekip.Ingestion.GoogleDrive
