import Ekip.Ingestion.Connectors.UpdateOrder

/-!
# The Confluence connector: `ingestion/connectors/confluence.py`

An attachment whose text cannot be had is left out of its page. The offset of the
next page counts it all the same.
-/
namespace Ekip.Ingestion.Confluence

open Ekip.Lib Ekip.Lib.Paging Ekip.Database Ekip.Ingestion.UpdateOrder

/-! ## The connector -/

inductive ContentType
  | page
  | blogpost
  | comment
  | attachment
deriving DecidableEq

def ContentType.value : ContentType → String
  | .page => "page"
  | .blogpost => "blogpost"
  | .comment => "comment"
  | .attachment => "attachment"

/-- `attachmentText` is what can be extracted of the file behind the download link, if
there is a link, the download succeeds and the file can be parsed. -/
structure Content where
  id : String
  type : ContentType := .page
  title : String := ""
  storage : String := ""
  lastModified : Instant
  versionWhen : Option String := none
  versionNumber : Option Nat := none
  author : Option String := none
  containerId : Option String := none
  webui : String := ""
  attachmentText : Option String := none

def Content.entry (content : Content) : Entry := { id := content.id, updatedAt := content.lastModified }

structure ConfluenceClient where
  spaces : List String
  baseUrl : String

/-- A content with its `_space_key`, `_base_url` and `_attachment_content`. -/
structure RawItem where
  spaceKey : String
  baseUrl : String
  content : Content
  attachmentContent : Option String := none

structure Cursor where
  spaceIndex : Nat := 0
  start : Nat := 0

abbrev ConfluenceSource := Source String Content.entry

def searchPageSize : Nat := 25

/-- `strftime("%Y/%m/%d %H:%M")`: what is less than a minute is cut off. -/
def sinceStr (since : Instant) : Instant := since - since % 60000000

/-- `lastmodified >= "{since_str}"`. -/
def passes (since : Option Instant) (entry : Entry) : Bool :=
  since.all fun t => sinceStr t ≤ entry.updatedAt

/-- An attachment without a text is skipped. -/
def rawItem (client : ConfluenceClient) (result : String × Content) : Option RawItem :=
  if result.2.type = .attachment then
    result.2.attachmentText.map fun text =>
      { spaceKey := result.1, baseUrl := client.baseUrl, content := result.2
        attachmentContent := some text }
  else some { spaceKey := result.1, baseUrl := client.baseUrl, content := result.2 }

/-- The answer of `content/search`, and where it leads to. -/
def search (client : ConfluenceClient) (since : Option Instant) (source : ConfluenceSource)
    (cursor : Option Cursor) : FetchResult (String × Content) Cursor Unit :=
  let state := cursor.getD {}
  match client.spaces[state.spaceIndex]? with
  | none => {}
  | some spaceKey =>
    let rawResults := (slice state.start searchPageSize (source.listed (passes since) spaceKey)).map
      fun content => (spaceKey, content)
    if rawResults.length < searchPageSize then
      let hasMore := state.spaceIndex + 1 < client.spaces.length
      { items := rawResults
        nextCursor := if hasMore then some { spaceIndex := state.spaceIndex + 1, start := 0 } else none
        hasMore }
    else
      { items := rawResults
        nextCursor := some { state with start := state.start + rawResults.length }
        hasMore := true }

def fetchBatch (client : ConfluenceClient) (since : Option Instant) (source : ConfluenceSource)
    (cursor : Option Cursor) : FetchResult RawItem Cursor Unit :=
  let page := search client since source cursor
  { items := page.items.filterMap (rawItem client)
    nextCursor := page.nextCursor
    hasMore := page.hasMore
    resumeToken := page.resumeToken }

def normalize (rawItem : RawItem) : RawDocument where
  source := "confluence"
  externalId := rawItem.spaceKey ++ ":" ++ rawItem.content.id
  content := rawItem.attachmentContent.getD rawItem.content.storage
  title := given (some rawItem.content.title)
  sourceUrl := (given (some rawItem.content.webui)).map fun path => rawItem.baseUrl ++ "/wiki" ++ path
  metadata :=
    let kind := (AList.insert "space" rawItem.spaceKey ∅).insert "kind" rawItem.content.type.value
    withEntry "parent_id" rawItem.content.containerId (withEntry "author" rawItem.content.author
      (withEntry "version" (rawItem.content.versionNumber.map toString)
        (withEntry "updated" rawItem.content.versionWhen kind)))

/-! ## Its walk over the spaces -/

def searchPlan (client : ConfluenceClient) : Plan String (String × Content) Cursor where
  count := client.spaces.length
  container i := client.spaces[i]?
  place cursor := ((cursor.getD {}).spaceIndex, (cursor.getD {}).start)
  shows spaceKey id result := result.1 = spaceKey ∧ result.2.id = id

def plan (client : ConfluenceClient) : Plan String RawItem Cursor where
  count := client.spaces.length
  container i := client.spaces[i]?
  place cursor := ((cursor.getD {}).spaceIndex, (cursor.getD {}).start)
  shows spaceKey id raw := raw.spaceKey = spaceKey ∧ raw.content.id = id

theorem rising (since : Option Instant) : Rising (passes since) := by
  intro a b hab ha
  cases since with
  | none => rfl
  | some t =>
    have ht : sinceStr t ≤ a.updatedAt := of_decide_eq_true ha
    exact decide_eq_true (Nat.le_trans ht hab)

theorem turns (client : ConfluenceClient) (since : Option Instant) (source : ConfluenceSource)
    (cursor : Option Cursor) {spaceKey : String}
    (hspace : (searchPlan client).container ((searchPlan client).place cursor).1 = some spaceKey) :
    (searchPlan client).Turns searchPageSize spaceKey (source.ids (passes since) spaceKey) cursor
      (search client since source cursor) := by
  have hindex : client.spaces[(cursor.getD {}).spaceIndex]? = some spaceKey := hspace
  unfold search
  dsimp only
  rw [hindex]
  dsimp only
  have hitems : ∀ id ∈ slice (cursor.getD {}).start searchPageSize (source.ids (passes since) spaceKey),
      ∃ result ∈ (slice (cursor.getD {}).start searchPageSize
        (source.listed (passes since) spaceKey)).map (Prod.mk spaceKey),
        (searchPlan client).shows spaceKey id result := by
    intro id hid
    obtain ⟨content, hcontent, hshown⟩ := mem_slice_ids hid
    exact ⟨_, List.mem_map_of_mem hcontent, rfl, hshown⟩
  have hle : (slice (cursor.getD {}).start searchPageSize
      (source.listed (passes since) spaceKey)).length ≤ searchPageSize := by
    unfold slice
    rw [List.length_take]
    exact Nat.min_le_left _ _
  split
  · rename_i hshort
    refine ⟨hitems, .inr ⟨?_, ?_⟩⟩
    · rw [List.length_map] at hshort
      exact ids_drop_of_short (Nat.ne_of_lt hshort)
    · intro hlater
      have hmore : (cursor.getD {}).spaceIndex + 1 < client.spaces.length := hlater
      refine ⟨decide_eq_true hmore, ?_⟩
      rw [if_pos hmore]
      rfl
  · rename_i hfull
    refine ⟨hitems, .inl ⟨rfl, ?_⟩⟩
    show ((cursor.getD {}).spaceIndex, (cursor.getD {}).start + _) = _
    rw [List.length_map] at hfull ⊢
    rw [Nat.le_antisymm hle (Nat.le_of_not_lt hfull)]
    rfl

theorem pages (client : ConfluenceClient) (since : Option Instant) :
    ((searchPlan client).layout Content.entry (passes since)).Pages (search client since) := by
  refine Plan.pages searchPageSize rfl ?_ fun source cursor spaceKey hspace =>
    turns client since source cursor hspace
  intro i hi
  exact ⟨_, List.getElem?_eq_getElem hi⟩

theorem container_of_space {client : ConfluenceClient} {spaceKey : String}
    (h : spaceKey ∈ client.spaces) :
    ∃ i < (searchPlan client).count, (searchPlan client).container i = some spaceKey := by
  obtain ⟨i, hi, rfl⟩ := List.mem_iff_getElem.mp h
  exact ⟨i, hi, List.getElem?_eq_getElem hi⟩

/-! ## What is left out -/

/-- Not an attachment without a text. -/
def readable (content : Content) : Bool :=
  content.type ≠ .attachment ∨ content.attachmentText.isSome

theorem rawItem_of_readable (client : ConfluenceClient) {result : String × Content}
    (h : readable result.2 = true) :
    ∃ raw, rawItem client result = some raw ∧ raw.spaceKey = result.1 ∧ raw.content = result.2 := by
  unfold rawItem
  by_cases htype : result.2.type = .attachment
  · rw [if_pos htype]
    rcases of_decide_eq_true h with hother | htext
    · exact absurd htype hother
    · obtain ⟨text, htext⟩ := Option.isSome_iff_exists.mp htext
      rw [htext]
      exact ⟨_, rfl, rfl, rfl⟩
  · rw [if_neg htype]
    exact ⟨_, rfl, rfl, rfl⟩

theorem mem_search {client : ConfluenceClient} {since : Option Instant} {source : ConfluenceSource}
    {cursor : Option Cursor} {result : String × Content}
    (h : result ∈ (search client since source cursor).items) : result.2 ∈ source.items result.1 := by
  unfold search at h
  dsimp only at h
  cases hspace : client.spaces[(cursor.getD {}).spaceIndex]? with
  | none =>
    rw [hspace] at h
    cases h
  | some spaceKey =>
    rw [hspace] at h
    have hresult : result ∈ (slice (cursor.getD {}).start searchPageSize
        (source.listed (passes since) spaceKey)).map fun content => (spaceKey, content) := by
      dsimp only at h
      split at h
      · exact h
      · exact h
    obtain ⟨content, hcontent, rfl⟩ := List.mem_map.mp hresult
    exact (List.mem_filter.mp (List.mem_of_mem_drop (List.mem_of_mem_take hcontent))).1

end Ekip.Ingestion.Confluence
