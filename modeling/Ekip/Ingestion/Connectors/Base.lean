import Ekip.Core.Exceptions
import Ekip.Shared.Schemas

/-!
# The connector protocol: `ingestion/connectors/base.py`, `ingestion/schemas.py`

Cursors and resume tokens are texts that only the connector which wrote them can
read; a text is modelled by what it says. `fetchBatch` is given what the source
answers, and hands back the client, whose state lasts for one execution.
-/
namespace Ekip.Ingestion

open Ekip.Lib Ekip.Database Ekip.Shared Ekip.Core

variable {υ χ ρ ι κ τ : Type}

/-- One page of a connector's `fetch_batch()` call. -/
structure FetchResult (ι κ τ : Type) where
  items : List ι := []
  nextCursor : Option κ := none
  hasMore : Bool := false
  resumeToken : Option τ := none

/-- Where the walk goes on after this page. -/
def FetchResult.next (page : FetchResult ι κ τ) : Option κ :=
  if page.hasMore then page.nextCursor else none

/-- The page offers a cursor just when there is more. -/
theorem FetchResult.next_ite {items : List ι} {c : κ} {more : Prop} [Decidable more]
    {token : Option τ} :
    FetchResult.next
        { items, nextCursor := (if more then some c else none), hasMore := decide more
          resumeToken := token } = if more then some c else none := by
  unfold FetchResult.next
  by_cases h : more <;> simp [h]

structure RawDocument where
  source : String
  externalId : String
  content : String
  title : Option String := none
  sourceUrl : Option String := none
  metadata : Dict String String := ∅

/-- What the pipeline makes of a raw document, less the chunks and the metadata
rows, which are handed on to other tables. -/
structure ProcessedDocument where
  source : String
  externalId : String
  contentHash : String
  title : Option String := none
  sourceUrl : Option String := none

/-- `υ` is the configuration of the operator, `χ` the authenticated client, `ρ`
what the source answers to one fetch, `ι` a raw item, `κ` a cursor and `τ` a
resume token. -/
structure Connector (υ χ ρ ι κ τ : Type) where
  sourceName : String
  supportsResumeToken : Bool := false
  authenticate : υ → Except Exn χ
  fetchBatch : χ → ρ → Option Instant → Option κ → Option τ → FetchResult ι κ τ × χ
  normalize : ι → RawDocument
  /-- The cursor is the empty text. -/
  blank : κ → Bool := fun _ => false

/-- A text that is neither missing nor empty. -/
def given (text : Option String) : Option String := text.filter (· ≠ "")

/-- An entry that is left out where there is no text for it. -/
def withEntry (key : String) (text : Option String) (metadata : Dict String String) :
    Dict String String :=
  (given text).elim metadata fun value => metadata.insert key value

/-- `since` admits what was modified at or after it. -/
def admitsTime (since : Option Instant) (modifiedAt : Instant) : Bool :=
  since.all fun t => t ≤ modifiedAt

end Ekip.Ingestion
