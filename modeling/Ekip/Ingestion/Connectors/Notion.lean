import Ekip.Lib.Paging
import Ekip.Lib.Visits
import Ekip.Ingestion.Connectors.Base

/-!
# The Notion connector: `ingestion/connectors/notion.py`
-/
namespace Ekip.Ingestion.Notion

open Ekip.Lib Ekip.Lib.Paging Ekip.Database

/-! ## The connector -/

structure Property where
  type : String
  /-- The plain texts of its title. -/
  title : List String := []

structure Page where
  id : String
  properties : List Property := []
  url : Option String := none
  lastEditedTime : Option Instant := none
  inTrash : Bool := false
  archived : Bool := false

/-- A page with its `_content`. -/
structure RawItem where
  page : Page
  content : String

/-- The pages in the order of the search, and the plain texts of the blocks of a page. -/
structure NotionSource where
  pages : List Page
  blocks : String → List (List String) := fun _ => []

/-- `page_size`. -/
def pageSize : Nat := 100

/-- The pages of the children follow one another until there is no more. -/
def pageText (source : NotionSource) (pageId : String) : String :=
  "\n".intercalate (((source.blocks pageId).map String.join).filter (· ≠ ""))

/-- The page was not edited after the last sync. -/
def stale (since : Option Instant) (page : Page) : Bool :=
  since.any fun t => page.lastEditedTime.any fun edited => edited ≤ t

def skipped (since : Option Instant) (page : Page) : Bool :=
  page.inTrash || page.archived || stale since page

/-- A cursor stands for the place where the search goes on. -/
def fetchBatch (since : Option Instant) (source : NotionSource) (cursor : Option Nat) :
    FetchResult RawItem Nat Unit :=
  let offset := cursor.getD 0
  let results := slice offset pageSize source.pages
  let hasMore := offset + pageSize < source.pages.length
  { items := (results.filter fun page => !skipped since page).map fun page =>
      { page, content := pageText source page.id }
    nextCursor := if hasMore then some (offset + pageSize) else none
    hasMore }

/-- The first property that is a title. -/
def title (page : Page) : String :=
  String.join (((page.properties.find? fun property => property.type = "title").map
    Property.title).getD [])

def normalize (rawItem : RawItem) : RawDocument where
  source := "notion"
  externalId := rawItem.page.id
  title := given (some (title rawItem.page))
  content := (given (some rawItem.content)).getD (title rawItem.page)
  sourceUrl := rawItem.page.url
  metadata :=
    (AList.insert "updated" ((rawItem.page.lastEditedTime.map toString).getD "") ∅).insert "kind"
      "page"

/-! ## Its walk over the pages -/

variable (since : Option Instant) (source : NotionSource)

def fetch (cursor : Option Nat) : List RawItem × Option (Option Nat) :=
  ((fetchBatch since source cursor).items, (fetchBatch since source cursor).next.map some)

def shown (_ : Unit) (page : Page) : List RawItem :=
  if skipped since page = true then [] else [{ page, content := pageText source page.id }]

theorem visits : Visits [()] (fun _ => source.pages) (shown since source)
    (fun cursor => (0, cursor.getD 0)) (fetch since source) where
  ended := by
    intro c h
    cases h
  turn := by
    intro c container _
    have hitems : (fetch since source c).1 =
        (slice (c.getD 0) pageSize source.pages).flatMap (shown since source container) := by
      unfold fetch fetchBatch
      dsimp only
      induction slice (c.getD 0) pageSize source.pages with
      | nil => rfl
      | cons page pages ih =>
        rw [List.flatMap_cons, ← ih]
        unfold shown
        by_cases hskipped : skipped since page = true
        · simp [hskipped]
        · simp [hskipped]
    have hnext : (fetch since source c).2 =
        if c.getD 0 + pageSize < source.pages.length then some (some (c.getD 0 + pageSize)) else none := by
      unfold fetch fetchBatch
      dsimp only
      rw [FetchResult.next_ite]
      split <;> rfl
    refine ⟨slice (c.getD 0) pageSize source.pages, source.pages.drop (c.getD 0 + pageSize), ?_,
      hitems, ?_⟩
    · rw [← List.drop_drop]
      exact (List.take_append_drop _ _).symm
    · rw [hnext]
      by_cases hmore : c.getD 0 + pageSize < source.pages.length
      · rw [if_pos hmore]
        have hoffset : c.getD 0 < source.pages.length :=
          Nat.lt_of_le_of_lt (Nat.le_add_right _ _) hmore
        exact .inl ⟨slice_ne_nil (by decide) hoffset, some (c.getD 0 + pageSize), rfl, rfl, rfl⟩
      · rw [if_neg hmore]
        exact .inr (.inr ⟨List.drop_eq_nil_of_le (Nat.le_of_not_lt hmore), Nat.le_refl 1, rfl⟩)

/-- A full walk returns the pages that are not skipped. -/
theorem collects : Collects (fetch since source) none
    (source.pages.flatMap (shown since source ())) := by
  have h := (visits since source).collects_all (c := none) rfl
  rw [List.flatMap_singleton] at h
  exact h

end Ekip.Ingestion.Notion
