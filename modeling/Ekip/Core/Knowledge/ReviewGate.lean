import Ekip.Retrieval.Filtering
import Ekip.Core.Knowledge.Service

/-!
# Only what a reviewer has published is retrieved

Requests come one at a time, by any actors. A proposed document has no chunk in
the index; a published one is never written again. So a chunk of a manual
document goes back to the one call that published it.
-/
namespace Ekip.Core.Knowledge.ReviewGate

open Ekip.Lib Ekip.Database Ekip.Shared Ekip.Core Ekip.Retrieval

inductive Call
  | propose (draw : Draw) (actor : Identity) (organizationId : Uuid)
      (data : DocumentProposalCreate)
  | update (actor : Identity) (organizationId documentId : Uuid) (data : DocumentUpdate)
  | publish (draw : Draw) (actor : Identity) (organizationId documentId : Uuid)
  | reject (now : Instant) (cleanup : Except Exn Unit) (actor : Identity)
      (organizationId documentId : Uuid)

/-- The document that a call is about, where it is there already. -/
def Call.target : Call → Option Uuid
  | propose .. => none
  | update _ _ documentId _ => some documentId
  | publish _ _ _ documentId => some documentId
  | reject _ _ _ _ documentId => some documentId

variable {ε τ ω : Type} (env : Env ε τ ω)

def perform : Call → ContentM ε Document
  | .propose draw actor organizationId data => proposeDocument env draw actor organizationId data
  | .update actor organizationId documentId data =>
    updateDocument actor organizationId documentId data
  | .publish draw actor organizationId documentId =>
    publishDocument env draw actor organizationId documentId
  | .reject now cleanup actor organizationId documentId =>
    rejectDocument now cleanup actor organizationId documentId

/-- One request: it commits, or is rolled back when it raises. -/
def respond (call : Call) (db : ContentDb ε) : Except Exn Document × ContentDb ε :=
  Service.transaction (perform env call) db

theorem respond_of_returns {env : Env ε τ ω} {call : Call} {db db' : ContentDb ε} {out : Document}
    (h : (perform env call).Returns db out db') : respond env call db = (.ok out, db') :=
  Service.transaction_returns.mpr h

def after (start : ContentDb ε) (calls : List Call) : ContentDb ε :=
  calls.foldl (fun db call => (respond env call db).2) start

@[simp] theorem after_snoc (start : ContentDb ε) (calls : List Call) (call : Call) :
    after env start (calls ++ [call]) = (respond env call (after env start calls)).2 := by
  simp [after]

/-! ## Where a chunk comes from -/

/-- The text that the document shows. -/
def ShowsContent (db : ContentDb ε) (documentId : Uuid) (text : String) : Prop :=
  Repository.scalarOneOrNone (Repository.metadataValues db documentId contentMetadataKey) =
    .ok (some text)

/-- Some call published `document` when it showed `text`, by an actor who may
review its project, and every later call about the document was refused. -/
def Released (start : ContentDb ε) (calls : List Call) (document : DocumentRow) (text : String) :
    Prop :=
  ∃ earlier draw actor organizationId later,
    calls = earlier ++ .publish draw actor organizationId document.id :: later ∧
    actor.hasPermission reviewPermission (some document.projectId) = true ∧
    ShowsContent (after env start earlier) document.id text ∧
    (∃ shown, (respond env (.publish draw actor organizationId document.id)
      (after env start earlier)).1 = .ok shown ∧ shown.content = some text) ∧
    ∀ middle call rest, later = middle ++ call :: rest → call.target = some document.id →
      ∃ e, (respond env call (after env start
        (earlier ++ .publish draw actor organizationId document.id :: middle))).1 = .error e

variable {env} {start db : ContentDb ε} {calls : List Call} {call : Call}
  {document : DocumentRow} {text : String}

/-- One more call, which is refused if it is about the document. -/
theorem Released.snoc (h : Released env start calls document text)
    (hrefused : call.target = some document.id →
      ∃ e, (respond env call (after env start calls)).1 = .error e) :
    Released env start (calls ++ [call]) document text := by
  obtain ⟨earlier, draw, actor, organizationId, later, rfl, hpermitted, hshows, hreturned, hlater⟩ := h
  refine ⟨earlier, draw, actor, organizationId, later ++ [call], by simp, hpermitted, hshows,
    hreturned, ?_⟩
  intro middle call' rest hsplit htarget
  rcases rest.eq_nil_or_concat with rfl | ⟨rest', last, rfl⟩
  · obtain ⟨rfl, hcall⟩ := List.append_inj' hsplit rfl
    obtain rfl : call = call' := by simpa using hcall
    exact hrefused htarget
  · have hconcat : later ++ [call] = (middle ++ call' :: rest') ++ [last] := by
      simpa using hsplit
    obtain ⟨hold, -⟩ := List.append_inj' hconcat rfl
    exact hlater middle call' rest' hold htarget

/-! ## The invariant -/

/-- What holds of a chunk and the manual document that it belongs to. -/
structure Gated (env : Env ε τ ω) (start : ContentDb ε) (calls : List Call) (chunk : Chunk ε)
    (row : DocumentRow) : Prop where
  published : row.status = .published
  live : row.deletedAt = none
  organization : chunk.organizationId = row.organizationId
  project : chunk.projectId = row.projectId
  released : Released env start calls row chunk.content

structure Inv (env : Env ε τ ω) (start : ContentDb ε) (calls : List Call) (db : ContentDb ε) :
    Prop where
  unique : Table.KeyUnique Database.Document.id db.documents
  /-- The foreign key of the chunk tables. -/
  foreign : ∀ name, ∀ chunk ∈ db.chunks name, ∃ row ∈ db.documents, row.id = chunk.documentId
  gate : ∀ name, ∀ chunk ∈ db.chunks name, ∀ row ∈ db.documents, row.id = chunk.documentId →
    row.source = "manual" → Gated env start calls chunk row

/-- The keys hold, and no chunk belongs to a manual document. -/
structure Start (db : ContentDb ε) : Prop where
  unique : Table.KeyUnique Database.Document.id db.documents
  foreign : ∀ name, ∀ chunk ∈ db.chunks name, ∃ row ∈ db.documents, row.id = chunk.documentId
  ingested : ∀ name, ∀ chunk ∈ db.chunks name, ∀ row ∈ db.documents, row.id = chunk.documentId →
    row.source ≠ "manual"

theorem Start.inv (h : Start start) : Inv env start [] start where
  unique := h.unique
  foreign := h.foreign
  gate name chunk hchunk row hrow hid hmanual :=
    absurd hmanual (h.ingested name chunk hchunk row hrow hid)

/-- A call about a document that is published already is refused. -/
theorem refused_of_published (hunique : Table.KeyUnique Database.Document.id db.documents)
    {row : DocumentRow} (hrow : row ∈ db.documents) (hpublished : row.status = .published)
    (htarget : call.target = some row.id) : ∃ e, (respond env call db).1 = .error e := by
  have hcontra : ∀ {actor : Identity} {organizationId documentId : Uuid} {found : DocumentRow},
      Reviewed db actor organizationId documentId found → documentId = row.id → False := by
    intro actor organizationId documentId found hreviewed heq
    have hget := hreviewed.found
    rw [heq] at hget
    obtain rfl := Option.some.inj (hget.symm.trans (Table.get?_of_mem hunique hrow))
    have hproposed := hreviewed.proposed
    rw [hpublished] at hproposed
    cases hproposed
  rcases Service.transaction_cases (perform env call) db with ⟨out, db', hreturns, -⟩ | ⟨e, -, he⟩
  · exfalso
    cases call with
    | propose => cases htarget
    | update =>
      obtain ⟨found, hreviewed, -⟩ := updateDocument_returns hreturns
      exact hcontra hreviewed (Option.some.inj htarget)
    | publish =>
      obtain ⟨found, hreviewed, -⟩ := publishDocument_returns hreturns
      exact hcontra hreviewed (Option.some.inj htarget)
    | reject =>
      obtain ⟨found, hreviewed, -⟩ := rejectDocument_returns hreturns
      exact hcontra hreviewed (Option.some.inj htarget)
  · refine ⟨e, ?_⟩
    unfold respond
    rw [he]

/-- Whatever the call was, a gated chunk whose document is still there stays gated. -/
theorem Gated.snoc (hi : Inv env start calls (after env start calls)) {chunk : Chunk ε}
    {row : DocumentRow} (hrow : row ∈ (after env start calls).documents)
    (h : Gated env start calls chunk row) : Gated env start (calls ++ [call]) chunk row :=
  { h with
    released := h.released.snoc fun htarget =>
      refused_of_published hi.unique hrow h.published htarget }

/-! ## One call -/

variable {documentId : Uuid} {f : DocumentRow → DocumentRow}

theorem mem_withDocument {row : DocumentRow} (h : row ∈ (withDocument documentId f db).documents) :
    (row ∈ db.documents ∧ row.id ≠ documentId) ∨
      ∃ old ∈ db.documents, old.id = documentId ∧ row = f old := by
  obtain ⟨old, hold, rfl⟩ := Table.mem_updateWhere.mp h
  by_cases hid : old.id = documentId
  · right
    exact ⟨old, hold, hid, by simp [hid]⟩
  · left
    simp [hid, hold]

theorem mem_withDocument_of {row : DocumentRow} (h : row ∈ db.documents)
    (hf : ∀ row, (f row).id = row.id) :
    ∃ row' ∈ (withDocument documentId f db).documents, row'.id = row.id := by
  refine ⟨_, Table.mem_updateWhere.mpr ⟨row, h, rfl⟩, ?_⟩
  split
  · exact hf row
  · rfl

/-- A review call on a proposal leaves the documents of indexed chunks alone: the
proposal itself has no chunk yet. -/
theorem untouched (hi : Inv env start calls db) {actor : Identity} {organizationId : Uuid}
    {found : DocumentRow} (hreviewed : Reviewed db actor organizationId documentId found)
    (hf : ∀ row, (f row).id = row.id ∧ (f row).source = row.source) {name : CollectionName}
    {chunk : Chunk ε} (hchunk : chunk ∈ db.chunks name) {row : DocumentRow}
    (hrow : row ∈ (withDocument documentId f db).documents) (hid : row.id = chunk.documentId)
    (hmanual : row.source = "manual") :
    row ∈ db.documents ∧ Gated env start calls chunk row := by
  rcases mem_withDocument hrow with ⟨hold, -⟩ | ⟨old, hold, hdocument, rfl⟩
  · exact ⟨hold, hi.gate name chunk hchunk row hold hid hmanual⟩
  · exfalso
    have hget := Table.get?_of_mem hi.unique hold
    rw [hdocument] at hget
    obtain rfl := Option.some.inj (hreviewed.found.symm.trans hget)
    have hgated := hi.gate name chunk hchunk found hold ((hf found).1.symm.trans hid)
      ((hf found).2.symm.trans hmanual)
    have hpublished := hgated.published
    rw [hreviewed.proposed] at hpublished
    cases hpublished

theorem keyUnique_withDocument (h : Table.KeyUnique Database.Document.id db.documents)
    (hf : ∀ row, (f row).id = row.id) :
    Table.KeyUnique Database.Document.id (withDocument documentId f db).documents :=
  Table.keyUnique_updateWhere h fun row _ => hf row

section Step

variable (hi : Inv env start calls (after env start calls)) {out : Document}

include hi

theorem inv_propose {draw : Draw} {actor : Identity} {organizationId : Uuid}
    {data : DocumentProposalCreate} (h : (proposeDocument env draw actor organizationId data).Returns
      (after env start calls) out db) : Inv env start (calls ++ [call]) db := by
  obtain ⟨projectId, -, -, hfresh, hdb⟩ := proposeDocument_returns h
  have hdocuments : db.documents = (after env start calls).documents ++
      [proposalRow env draw organizationId projectId data] := by rw [hdb]
  have hchunks : db.chunks = (after env start calls).chunks := by rw [hdb]
  refine ⟨?_, ?_, ?_⟩
  · rw [hdocuments]
    exact Table.keyUnique_append hi.unique hfresh
  · intro name chunk hchunk
    rw [hchunks] at hchunk
    obtain ⟨row, hrow, hid⟩ := hi.foreign name chunk hchunk
    rw [hdocuments]
    exact ⟨row, List.mem_append_left _ hrow, hid⟩
  · intro name chunk hchunk row hrow hid hmanual
    rw [hchunks] at hchunk
    rw [hdocuments] at hrow
    rcases List.mem_append.mp hrow with hold | hnew
    · exact (hi.gate name chunk hchunk row hold hid hmanual).snoc hi hold
    · -- the new row has an id that no chunk refers to
      exfalso
      obtain rfl := List.mem_singleton.mp hnew
      obtain ⟨other, hother, hsame⟩ := hi.foreign name chunk hchunk
      exact hfresh other hother (hsame.trans hid.symm)

/-- Editing and rejecting: the index only loses chunks. -/
theorem inv_edited {actor : Identity} {organizationId : Uuid} {found : DocumentRow}
    (hreviewed : Reviewed (after env start calls) actor organizationId documentId found)
    (hf : ∀ row, (f row).id = row.id ∧ (f row).source = row.source)
    (hdocuments : db.documents = (withDocument documentId f (after env start calls)).documents)
    (hchunks : ∀ name, ∀ chunk ∈ db.chunks name, chunk ∈ (after env start calls).chunks name) :
    Inv env start (calls ++ [call]) db := by
  refine ⟨?_, ?_, ?_⟩
  · rw [hdocuments]
    exact keyUnique_withDocument hi.unique fun row => (hf row).1
  · intro name chunk hchunk
    obtain ⟨row, hrow, hid⟩ := hi.foreign name chunk (hchunks name chunk hchunk)
    rw [hdocuments, ← hid]
    exact mem_withDocument_of hrow fun row => (hf row).1
  · intro name chunk hchunk row hrow hid hmanual
    rw [hdocuments] at hrow
    obtain ⟨hold, hgated⟩ :=
      untouched hi hreviewed hf (hchunks name chunk hchunk) hrow hid hmanual
    exact hgated.snoc hi hold

/-- Publishing: the proposal's text enters the index, and nothing else does. -/
theorem inv_publish {draw : Draw} {actor : Identity} {organizationId : Uuid}
    (h : (publishDocument env draw actor organizationId documentId).Returns
      (after env start calls) out db) :
    Inv env start (calls ++ [.publish draw actor organizationId documentId]) db := by
  obtain ⟨found, hreviewed, hcontent, hindexes⟩ := publishDocument_returns h
  obtain ⟨hfound, hfoundId⟩ := Table.get?_some hreviewed.found
  have hcall : (perform env (.publish draw actor organizationId documentId)).Returns
      (after env start calls) out db := h
  have hreturned : (respond env (.publish draw actor organizationId documentId)
      (after env start calls)).1 = .ok out := by rw [respond_of_returns hcall]
  have hdocuments : db.documents = (withDocument documentId
      (fun row => { row with status := .published }) (after env start calls)).documents := by
    rcases hindexes with ⟨-, rfl⟩ | ⟨_, _, _, -, rfl⟩ <;> rfl
  have hold : ∀ name, ∀ chunk ∈ (after env start calls).chunks name, ∀ row ∈ db.documents,
      row.id = chunk.documentId → row.source = "manual" →
      Gated env start (calls ++ [.publish draw actor organizationId documentId]) chunk row := by
    intro name chunk hchunk row hrow hid hmanual
    rw [hdocuments] at hrow
    obtain ⟨hrow, hgated⟩ := untouched hi hreviewed
      (f := fun row => { row with status := .published }) (fun row => ⟨rfl, rfl⟩) hchunk hrow hid
      hmanual
    exact hgated.snoc hi hrow
  have hunique : Table.KeyUnique Database.Document.id db.documents := by
    rw [hdocuments]
    exact keyUnique_withDocument hi.unique fun row => rfl
  have hpublished : { found with status := .published } ∈ db.documents := by
    rw [hdocuments]
    exact Table.mem_updateWhere.mpr ⟨found, hfound, by simp [hfoundId]⟩
  refine ⟨hunique, ?_, ?_⟩
  · intro name chunk hchunk
    have hkept : chunk ∈ (after env start calls).chunks name →
        ∃ row ∈ db.documents, row.id = chunk.documentId := by
      intro hchunk
      obtain ⟨row, hrow, hid⟩ := hi.foreign name chunk hchunk
      rw [hdocuments, ← hid]
      exact mem_withDocument_of hrow fun row => rfl
    rcases hindexes with ⟨-, rfl⟩ | ⟨text, id, embedding, -, rfl⟩
    · exact hkept hchunk
    · rcases PgVectorStore.mem_setChunks hchunk with ⟨rfl, hchunk⟩ | ⟨-, hchunk⟩
      · rcases PgVectorStore.mem_upsertRow hchunk with hchunk | ⟨id', rfl⟩
        · exact hkept hchunk
        · exact ⟨_, hpublished, rfl⟩
      · exact hkept hchunk
  · intro name chunk hchunk row hrow hid hmanual
    rcases hindexes with ⟨-, rfl⟩ | ⟨text, id, embedding, htext, rfl⟩
    · exact hold name chunk hchunk row hrow hid hmanual
    · rcases PgVectorStore.mem_setChunks hchunk with ⟨rfl, hchunk⟩ | ⟨-, hchunk⟩
      · rcases PgVectorStore.mem_upsertRow hchunk with hchunk | ⟨id', rfl⟩
        · exact hold .documentation chunk hchunk row hrow hid hmanual
        · -- the new chunk: this call released it
          have hrowEq : row = { found with status := .published } :=
            hunique row hrow _ hpublished hid
          subst hrowEq
          rw [htext] at hcontent
          refine ⟨rfl, hreviewed.live, hreviewed.organization.symm, rfl, ?_⟩
          subst hfoundId
          refine ⟨calls, draw, actor, organizationId, [], rfl, hreviewed.permitted, hcontent,
            ⟨out, hreturned, htext⟩, ?_⟩
          intro middle call rest hsplit
          simp at hsplit
      · exact hold name chunk hchunk row hrow hid hmanual

theorem inv_step (call : Call) :
    Inv env start (calls ++ [call]) (respond env call (after env start calls)).2 := by
  rcases Service.transaction_cases (perform env call) (after env start calls) with
    ⟨out, db, hreturns, -⟩ | ⟨e, -, hrespond⟩
  · rw [respond_of_returns hreturns]
    cases call with
    | propose => exact inv_propose hi hreturns
    | update =>
      obtain ⟨found, hreviewed, f, hf, hdb⟩ := updateDocument_returns hreturns
      refine inv_edited hi hreviewed (f := f) (fun row => ?_) (by rw [hdb]) ?_
      · rw [hf row]
        exact ⟨rfl, rfl⟩
      · intro name chunk hchunk
        rw [hdb] at hchunk
        exact hchunk
    | publish => exact inv_publish hi hreturns
    | reject now =>
      obtain ⟨found, hreviewed, chunks, rfl, hsub⟩ := rejectDocument_returns hreturns
      exact inv_edited hi hreviewed (f := fun row => { row with deletedAt := some now })
        (fun row => ⟨rfl, rfl⟩) rfl hsub
  · have hdb : (respond env call (after env start calls)).2 = after env start calls := by
      unfold respond
      rw [hrespond]
    rw [hdb]
    refine ⟨hi.unique, hi.foreign, ?_⟩
    intro name chunk hchunk row hrow hid hmanual
    exact (hi.gate name chunk hchunk row hrow hid hmanual).snoc hi hrow

end Step

theorem inv_after (h : Start start) (calls : List Call) :
    Inv env start calls (after env start calls) := by
  induction calls using List.reverseRecOn with
  | nil => exact h.inv
  | append_singleton calls call ih =>
    rw [after_snoc]
    exact inv_step ih call

/-! ## What a search returns -/

/-- Some search of the service returns the chunk. -/
def Returned (env : Env ε τ ω) (query : String) (filters : SearchFilters) (topK : Int)
    (collection : Option CollectionName) (db : ContentDb ε) (scored : ScoredChunk ω) : Prop :=
  (∃ includeMetadata chunks,
      search env.engine query filters topK collection includeMetadata db = .ok chunks ∧
        scored ∈ chunks) ∨
    ∃ result, searchWithSignals env.engine query filters topK collection db = .ok result ∧
      scored ∈ result.chunks

theorem Returned.shows {query : String} {filters : SearchFilters} {topK : Int}
    {collection : Option CollectionName} {scored : ScoredChunk ω}
    (h : Returned env query filters topK collection db scored) : Shows filters db scored := by
  rcases h with ⟨includeMetadata, chunks, hsearch, hmem⟩ | ⟨result, hsearch, hmem⟩
  · exact (service_search_shows hsearch scored hmem).2
  · exact (searchWithSignals_shows hsearch scored hmem).2

/-- A chunk of a manual document that a search returns has the document's
organization and project, and as its content the whole text that a reviewer
published; the document was neither edited nor rejected since. A call that
raises changes nothing. -/
theorem nothing_unreviewed (env : Env ε τ ω) (h : Start start) (calls : List Call) :
    (∀ query filters topK collection scored,
      Returned env query filters topK collection (after env start calls) scored →
      ∀ document ∈ (after env start calls).documents, document.id = scored.documentId →
        document.source = "manual" → document.deletedAt = none ∧
          Released env start calls document scored.content ∧
          ∃ chunk ∈ (after env start calls).chunks scored.collection,
            chunk.id = scored.chunkId ∧ chunk.content = scored.content ∧
            chunk.organizationId = document.organizationId ∧
            chunk.projectId = document.projectId) ∧
    ∀ call e, (respond env call (after env start calls)).1 = .error e →
      (respond env call (after env start calls)).2 = after env start calls := by
  constructor
  · intro query filters topK collection scored hreturned document hdocument hid hmanual
    obtain ⟨chunk, hchunk, -, hchunkId, hchunkDocument, hcontent, -⟩ := hreturned.shows
    have hinv : Inv env start calls (after env start calls) := inv_after h calls
    have hgated := hinv.gate scored.collection chunk hchunk document hdocument
      (hid.trans hchunkDocument) hmanual
    rw [hcontent]
    exact ⟨hgated.live, hgated.released, chunk, hchunk, hchunkId.symm, rfl,
      hgated.organization, hgated.project⟩
  · intro call e he
    unfold respond at he ⊢
    rcases Service.transaction_cases (perform env call) (after env start calls) with
      ⟨out, db, -, hok⟩ | ⟨e', -, herror⟩
    · rw [hok] at he
      cases he
    · rw [herror]

/-! ## A runbook that is proposed, published and found -/

def planeEnv : Env (Rat × Rat) String Rat where
  engine := planeEngine
  sha256Hexdigest := id

def member (permissions : Finset String) : Identity where
  kind := .user
  subject := "1"
  organizationId := 1
  permissions

def oneProject : ContentDb (Rat × Rat) where
  projects := [{ id := 1, organizationId := 1, name := "Default", isDefault := true }]

theorem oneProject_start : Start oneProject where
  unique := Table.keyUnique_nil
  foreign _ _ h := nomatch h
  ingested _ _ h := nomatch h

def reviewedRunbook : List Call :=
  [.propose { documentId := 1, externalId := "x", chunkId := 1 } (member ∅) 1
      { title := "Runbook", content := "restart" },
    .publish { documentId := 2, externalId := "y", chunkId := 2 } (member {reviewPermission}) 1 1]

def published : DocumentRow where
  id := 1
  organizationId := 1
  projectId := 1
  source := "manual"
  externalId := "x"
  contentHash := "restart"
  title := some "Runbook"
  status := .published

def runbookChunk : Chunk (Rat × Rat) :=
  { id := 2, organizationId := 1, projectId := 1, documentId := 1, chunkIndex := 0, content := "restart", embedding := (1,0), sourceOffsetStart := 0, sourceOffsetEnd := 7}

def runbookRow (key : Rat) : ChunkRow Rat where
  id := 2
  documentId := 1
  collection := .documentation
  content := "restart"
  sourceOffsetStart := 0
  sourceOffsetEnd := 7
  key
  title := some "Runbook"
  sourceUrl := none

def runbookHit (score : Rat) : ScoredChunk Rat where
  chunkId := 2
  documentId := 1
  collection := .documentation
  content := "restart"
  score
  sourceOffsetStart := 0
  sourceOffsetEnd := 7
  title := some "Runbook"

theorem runbook_found : ∃ result score,
    searchWithSignals planeEngine "restart" { organizationId := 1 } 1 (some .documentation)
        (after planeEnv oneProject reviewedRunbook) = .ok result ∧
      result.chunks = [runbookHit score] := by
  have hselect : ∀ on key, on runbookChunk = true →
      selectChunks { organizationId := 1 } .documentation on key
        (after planeEnv oneProject reviewedRunbook) = .ok [runbookRow (key runbookChunk)] := by
    intro on key hon
    have hchunks : (after planeEnv oneProject reviewedRunbook).chunks .documentation =
        [runbookChunk] := by decide
    have hdocuments : (after planeEnv oneProject reviewedRunbook).documents = [published] := by
      decide
    simp only [selectChunks, hchunks, hdocuments]
    show Except.ok (List.flatMap _ (List.filter _ _)) = _
    rw [List.filter_cons, hon]
    rfl
  have hlimit : ∀ (le : Rat → Rat → Bool) key (row : ChunkRow Rat),
      Query.limit negativeLimit 1 (Query.orderBy le key [row]) = .ok [row] := by
    intro le key row
    rw [Query.orderBy_singleton]
    rfl
  obtain ⟨dense, hdense⟩ : ∃ dense, PgVectorStore.search planeEngine .documentation (1, 0)
      { organizationId := 1 } 1 false (after planeEnv oneProject reviewedRunbook) =
        .ok [runbookHit dense] :=
    ⟨planeEngine.neg (planeEngine.maxInnerProduct (1, 0) (1, 0)),
      Query.bind_ok.mpr ⟨_, hselect _ _ rfl, Query.bind_ok.mpr ⟨_, hlimit _ _ _, rfl⟩⟩⟩
  obtain ⟨lexical, hlexical⟩ : ∃ lexical, PgVectorStore.lexicalSearch planeEngine .documentation
      "restart" { organizationId := 1 } 1 false (after planeEnv oneProject reviewedRunbook) =
        .ok [runbookHit lexical] :=
    ⟨planeEngine.tsRankCd "restart" "restart",
      Query.bind_ok.mpr ⟨_, hselect _ _ rfl, Query.bind_ok.mpr ⟨_, hlimit _ _ _, rfl⟩⟩⟩
  obtain ⟨score, hfused⟩ : ∃ score, [[runbookHit dense], [runbookHit lexical]].foldl
      (creditList planeEngine defaultK) [] = [runbookHit score] := ⟨_, rfl⟩
  have hlists : signalLists planeEngine "restart" (1, 0) { organizationId := 1 } 1
      (some .documentation) (after planeEnv oneProject reviewedRunbook) =
        .ok ([runbookHit dense], [runbookHit lexical]) :=
    Query.bind_ok.mpr ⟨_, hdense, Query.bind_ok.mpr ⟨_, hlexical, rfl⟩⟩
  refine ⟨_, score, Query.bind_ok.mpr ⟨(1, 0), rfl, Query.bind_ok.mpr ⟨_, hlists, rfl⟩⟩, ?_⟩
  show reciprocalRankFusion planeEngine [[runbookHit dense], [runbookHit lexical]] 1 = _
  unfold reciprocalRankFusion
  dsimp only
  rw [hfused, Query.orderBy_singleton]
  rfl

theorem nothing_unreviewed_runbook :
    Start oneProject ∧ ∃ result score,
      searchWithSignals planeEngine "restart" { organizationId := 1 } 1 (some .documentation)
          (after planeEnv oneProject reviewedRunbook) = .ok result ∧
        result.chunks = [runbookHit score] ∧
        Released planeEnv oneProject reviewedRunbook published "restart" := by
  obtain ⟨result, score, hsearch, hchunks⟩ := runbook_found
  refine ⟨oneProject_start, result, score, hsearch, hchunks, ?_⟩
  have hreturned : Returned planeEnv "restart" { organizationId := 1 } 1 (some .documentation)
      (after planeEnv oneProject reviewedRunbook) (runbookHit score) := by
    refine .inr ⟨result, hsearch, ?_⟩
    rw [hchunks]
    exact List.mem_singleton_self _
  have hgate := nothing_unreviewed planeEnv oneProject_start reviewedRunbook
  exact (hgate.1 _ _ _ _ _ hreturned published (by decide) rfl rfl).2.1

end Ekip.Core.Knowledge.ReviewGate
