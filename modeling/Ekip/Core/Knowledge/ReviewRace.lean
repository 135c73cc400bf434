import Ekip.Lib.Sessions
import Ekip.Core.Knowledge.Service

/-!
# Interleaved reviews of one document

Publishing, editing and rejecting one proposal, each request in a session of its
own under read-committed isolation. A request tests `proposed` on the row as it
has read it. Its `UPDATE` names the columns that it sets: it waits for the row
and goes to whatever is committed by then.
-/
namespace Ekip.Core.Knowledge.ReviewRace

open Ekip.Lib Ekip.Database Ekip.Shared Ekip.Core

abbrev Rid := Nat

/-! ## The rows about the document -/

inductive Key
  | document
  | content
  | chunk (collection : CollectionName)
deriving DecidableEq

/-- A text that has no row is an image without a value. -/
inductive Row
  | document (row : DocumentRow)
  | content (value : Option String)
  | chunk (collection : CollectionName) (content : Option String)

def Row.key : Row → Key
  | document _ => .document
  | content _ => .content
  | chunk collection _ => .chunk collection

def documentIn (rows : List Row) : Option DocumentRow :=
  match Table.get? Row.key rows .document with
  | some (.document row) => some row
  | _ => none

/-- The value under `content` in the metadata. -/
def contentIn (rows : List Row) : Option String :=
  match Table.get? Row.key rows .content with
  | some (.content value) => value
  | _ => none

def chunkIn (rows : List Row) (collection : CollectionName) : Option String :=
  match Table.get? Row.key rows (.chunk collection) with
  | some (.chunk _ content) => content
  | _ => none

section Upsert

variable (rows : List Row) (row : DocumentRow) (value : Option String)
  (collection collection' : CollectionName)

@[simp] theorem documentIn_upsert_document :
    documentIn (Table.upsert Row.key rows (.document row)) = some row := by
  have hget : Table.get? Row.key (Table.upsert Row.key rows (.document row)) .document =
      some (.document row) := Table.get?_upsert_self (Row.document row)
  unfold documentIn
  rw [hget]

@[simp] theorem documentIn_upsert_content :
    documentIn (Table.upsert Row.key rows (.content value)) = documentIn rows := by
  unfold documentIn
  rw [Table.get?_upsert_of_ne (by simp [Row.key])]

@[simp] theorem documentIn_upsert_chunk :
    documentIn (Table.upsert Row.key rows (.chunk collection value)) = documentIn rows := by
  unfold documentIn
  rw [Table.get?_upsert_of_ne (by simp [Row.key])]

@[simp] theorem contentIn_upsert_document :
    contentIn (Table.upsert Row.key rows (.document row)) = contentIn rows := by
  unfold contentIn
  rw [Table.get?_upsert_of_ne (by simp [Row.key])]

@[simp] theorem contentIn_upsert_content :
    contentIn (Table.upsert Row.key rows (.content value)) = value := by
  have hget : Table.get? Row.key (Table.upsert Row.key rows (.content value)) .content =
      some (.content value) := Table.get?_upsert_self (Row.content value)
  unfold contentIn
  rw [hget]

@[simp] theorem contentIn_upsert_chunk :
    contentIn (Table.upsert Row.key rows (.chunk collection value)) = contentIn rows := by
  unfold contentIn
  rw [Table.get?_upsert_of_ne (by simp [Row.key])]

@[simp] theorem chunkIn_upsert_document :
    chunkIn (Table.upsert Row.key rows (.document row)) collection = chunkIn rows collection := by
  unfold chunkIn
  rw [Table.get?_upsert_of_ne (by simp [Row.key])]

@[simp] theorem chunkIn_upsert_content :
    chunkIn (Table.upsert Row.key rows (.content value)) collection = chunkIn rows collection := by
  unfold chunkIn
  rw [Table.get?_upsert_of_ne (by simp [Row.key])]

@[simp] theorem chunkIn_upsert_chunk :
    chunkIn (Table.upsert Row.key rows (.chunk collection value)) collection' =
      if collection' = collection then value else chunkIn rows collection' := by
  unfold chunkIn
  by_cases hsame : collection' = collection
  · subst hsame
    have hget : Table.get? Row.key (Table.upsert Row.key rows (.chunk collection' value))
        (.chunk collection') = some (.chunk collection' value) :=
      Table.get?_upsert_self (Row.chunk collection' value)
    rw [hget]
    simp
  · have hkey : Row.key (.chunk collection value) ≠ .chunk collection' := by
      simpa [Row.key] using Ne.symm hsame
    rw [Table.get?_upsert_of_ne hkey, if_neg hsame]

end Upsert

/-! ## Requests -/

inductive Request
  | publish (actor : Identity) (organizationId : Uuid)
  | update (actor : Identity) (organizationId : Uuid) (data : DocumentUpdate)
  | reject (actor : Identity) (organizationId : Uuid) (now : Instant)

def Request.actor : Request → Identity
  | publish actor _ => actor
  | update actor _ _ => actor
  | reject actor _ _ => actor

def Request.organizationId : Request → Uuid
  | publish _ organizationId => organizationId
  | update _ organizationId _ => organizationId
  | reject _ organizationId _ => organizationId

/-- What the three requests ask of the row that they have read. -/
def Request.admits (request : Request) (row : DocumentRow) : Bool :=
  request.actor.organizationId = request.organizationId ∧
    row.organizationId = request.organizationId ∧ row.deletedAt = none ∧
    Users.authorize request.actor reviewPermission (some row.projectId) = true ∧
    row.status = .proposed

inductive Phase
  | idle
  | started (request : Request)
  /-- The row is read, and not checked yet. -/
  | loaded (request : Request) (row : Option DocumentRow)
  | checked (request : Request) (row : DocumentRow)
  /-- A publication has read the text that it will index. -/
  | contentRead (content : Option String)
  | published (content : Option String)
  /-- Title and version are written; the text is still to be. -/
  | edited (content : Option (Option String))
  /-- `deleted_at` is written; the collections still to be swept. -/
  | rejected (rest : List CollectionName)
  | written
  | finished

abbrev St := Sessions Rid Row Phase

def init (rows : List Row) : St := { store := { committed := rows }, phase := fun _ => .idle }

/-- `if content:`. -/
def indexable (content : Option String) : Option String := content.filter (· ≠ "")

/-- `version` is counted from the row that the session holds. -/
def retitle (title : Option (Option String)) (held row : DocumentRow) : DocumentRow :=
  { row with title := title.getD row.title, version := held.version + 1 }

/-- Set columns of the document's row as it is by now. -/
def updateRow (s : St) (t : Rid) (f : DocumentRow → DocumentRow) (p : Phase) : Option St :=
  (documentIn (s.rows Row.key t)).bind fun row =>
    s.writeFree Row.key t (.document (f row)) p

/-- What a request does first once its checks are passed. -/
def act (s : St) (t : Rid) (held : DocumentRow) : Request → Option St
  | .publish _ _ => some (s.goto t (.contentRead (contentIn (s.rows Row.key t))))
  | .update _ _ data =>
    if data.title = none ∧ data.content = none then some (s.commit Row.key t .finished)
    else updateRow s t (retitle data.title held) (.edited data.content)
  | .reject _ _ now =>
    updateRow s t (fun row => { row with deletedAt := some now })
      (.rejected [.documentation, .code, .conversations])

/-- The next step of request `t`. -/
def advance (s : St) (t : Rid) : Option St :=
  match s.phase t with
  | .idle => none
  | .finished => none
  | .started request => some (s.goto t (.loaded request (documentIn (s.rows Row.key t))))
  | .loaded _ none => some (s.rollback t .finished)
  | .loaded request (some row) =>
    if request.admits row then some (s.goto t (.checked request row))
    else some (s.rollback t .finished)
  | .checked request row => act s t row request
  | .contentRead content =>
    updateRow s t (fun row => { row with status := .published }) (.published content)
  | .published content =>
    match indexable content with
    | some text => s.writeFree Row.key t (.chunk .documentation (some text)) .written
    | none => some (s.goto t .written)
  | .edited none => some (s.goto t .written)
  | .edited (some none) => some (s.rollback t .finished)
  | .edited (some (some text)) => s.writeFree Row.key t (.content (some text)) .written
  | .rejected (collection :: rest) =>
    s.writeFree Row.key t (.chunk collection none) (.rejected rest)
  | .rejected [] => some (s.goto t .written)
  | .written => some (s.commit Row.key t .finished)

inductive Label
  | start (t : Rid) (request : Request)
  | advance (t : Rid)
  | abort (t : Rid)

/-- A request may fail or be cancelled between any two steps. -/
def step (s : St) : Label → Option St
  | .start t request =>
    match s.phase t with
    | .idle => some (s.goto t (.started request))
    | _ => none
  | .advance t => advance s t
  | .abort t => some (s.rollback t .finished)

/-- The checks are those of the service. -/
theorem reviewed_iff_admits {ε : Type} {db : ContentDb ε} {request : Request} {documentId : Uuid}
    {row : DocumentRow} : Reviewed db request.actor request.organizationId documentId row ↔
      Repository.getDocumentById db documentId = some row ∧ request.admits row = true := by
  unfold Request.admits Users.authorize
  simp only [decide_eq_true_eq]
  constructor
  · intro h
    exact ⟨h.found, h.sameOrganization, h.organization, h.live, h.permitted, h.proposed⟩
  · intro h
    obtain ⟨hfound, hactor, horganization, hlive, hpermitted, hproposed⟩ := h
    exact ⟨hfound, horganization, hlive, hproposed, hactor, hpermitted⟩

/-! ## Row, text and index agree -/

/-- What the committed rows should satisfy. -/
structure Consistent (rows : List Row) : Prop where
  notBoth : ∀ row, documentIn rows = some row → ¬ (row.status = .published ∧ row.deletedAt ≠ none)
  purged : ∀ row, documentIn rows = some row → row.deletedAt ≠ none →
    ∀ collection, chunkIn rows collection = none
  reviewed : ∀ row, documentIn rows = some row → row.status = .published →
    ∀ collection text, chunkIn rows collection = some text → contentIn rows = some text

/-- A published document is live and its text is in the index; a proposal has
nothing in the index. -/
structure Agrees (rows : List Row) : Prop where
  live : ∀ row, documentIn rows = some row → row.status = .published → row.deletedAt = none
  elsewhere : ∀ collection, collection ≠ .documentation → chunkIn rows collection = none
  proposed : ∀ row, documentIn rows = some row → row.status = .proposed →
    chunkIn rows .documentation = none
  published : ∀ row, documentIn rows = some row → row.status = .published →
    chunkIn rows .documentation = indexable (contentIn rows)

theorem Agrees.consistent {rows : List Row} (h : Agrees rows) : Consistent rows where
  notBoth row hrow hboth := hboth.2 (h.live row hrow hboth.1)
  purged row hrow hdeleted collection := by
    by_cases hcollection : collection = .documentation
    · subst hcollection
      cases hstatus : row.status with
      | proposed => exact h.proposed row hrow hstatus
      | published => exact absurd (h.live row hrow hstatus) hdeleted
    · exact h.elsewhere collection hcollection
  reviewed row hrow hpublished collection text hchunk := by
    by_cases hcollection : collection = .documentation
    · subst hcollection
      rw [h.published row hrow hpublished] at hchunk
      exact (Option.filter_eq_some_iff.mp hchunk).1
    · rw [h.elsewhere collection hcollection] at hchunk
      cases hchunk

/-- A publication has set the status, and the index is still that of before. -/
structure Indexing (rows : List Row) (content : Option String) : Prop where
  live : ∀ row, documentIn rows = some row → row.status = .published ∧ row.deletedAt = none
  elsewhere : ∀ collection, collection ≠ .documentation → chunkIn rows collection = none
  text : indexable (contentIn rows) = indexable content
  empty : indexable content = none → chunkIn rows .documentation = none

def Phase.quiet : Phase → Bool
  | published _ | edited _ | rejected _ | written => false
  | idle | started _ | loaded _ _ | checked _ _ | contentRead _ | finished => true

/-- What a writer sees. -/
def Sees (rows : List Row) : Phase → Prop
  | .published content => Indexing rows content
  | .rejected _ => Agrees rows ∧ ∀ row ∈ documentIn rows, row.status ≠ .published
  | _ => Agrees rows

/-- Every writer starts with the document's row. -/
abbrev Inv (s : St) : Prop := s.Solo Row.key .document Phase.quiet Agrees Sees

def Request.rejects : Request → Bool
  | reject _ _ _ => true
  | publish _ _ | update _ _ _ => false

/-- A writer that goes to `rows` from its phase overtakes nobody: a publication
finds the document live and the text as it has read it, an edit of the text and
a rejection find it unpublished. -/
def Clear (rows : List Row) : Phase → Prop
  | .contentRead content =>
    (∀ row ∈ documentIn rows, row.deletedAt = none) ∧
      indexable content = indexable (contentIn rows)
  | .edited content =>
    ∀ text ∈ content.join, (∀ row ∈ documentIn rows, row.status ≠ .published) ∨
      indexable (some text) = indexable (contentIn rows)
  | .checked request _ =>
    request.rejects = true → ∀ row ∈ documentIn rows, row.status ≠ .published
  | _ => True

def Uncontested (s : St) : Label → Prop
  | .advance t => Clear (s.rows Row.key t) (s.phase t)
  | _ => True

instance (rows : List Row) (p : Phase) : Decidable (Clear rows p) :=
  match p with
  | .contentRead _ => inferInstanceAs (Decidable (_ ∧ _))
  | .edited _ => inferInstanceAs (Decidable (∀ _ ∈ _, _ ∨ _))
  | .checked _ _ => inferInstanceAs (Decidable (_ → _))
  | .idle | .started _ | .loaded _ _ | .published _ | .rejected _ | .written | .finished =>
    isTrue trivial

instance (s : St) (a : Label) : Decidable (Uncontested s a) :=
  match a with
  | .advance t => inferInstanceAs (Decidable (Clear (s.rows Row.key t) (s.phase t)))
  | .start _ _ | .abort _ => isTrue trivial

section Step

variable {s s' : St} {t : Rid}

theorem updateRow_some {f : DocumentRow → DocumentRow} {p : Phase}
    (h : updateRow s t f p = some s') :
    ∃ row, documentIn (s.rows Row.key t) = some row ∧
      s.store.free Row.key t .document = true ∧ s' = s.write t (.document (f row)) p := by
  obtain ⟨row, hrow, hwrite⟩ := Option.bind_eq_some_iff.mp h
  obtain ⟨hfree, hs'⟩ := Sessions.writeFree_some hwrite
  exact ⟨row, hrow, hfree, hs'⟩

/-- A request that has not written yet sees the committed rows. -/
theorem Inv.rows_quiet (h : Inv s) (hquiet : (s.phase t).quiet = true) :
    s.rows Row.key t = s.store.committed :=
  Sessions.rows_of_images_nil (h.idle t hquiet)

theorem Inv.agrees (h : Inv s) (hquiet : (s.phase t).quiet = true) :
    Agrees (s.rows Row.key t) := by
  rw [h.rows_quiet hquiet]
  exact h.committed

/-- Setting the status of a live document. -/
theorem Agrees.publish {rows : List Row} {row : DocumentRow} {content : Option String}
    (h : Agrees rows) (hrow : documentIn rows = some row) (hlive : row.deletedAt = none)
    (hcontent : indexable content = indexable (contentIn rows)) :
    Indexing (Table.upsert Row.key rows (.document { row with status := .published })) content where
  live row' hrow' := by
    rw [documentIn_upsert_document] at hrow'
    obtain rfl := Option.some.inj hrow'
    exact ⟨rfl, hlive⟩
  elsewhere collection hcollection := by
    rw [chunkIn_upsert_document]
    exact h.elsewhere collection hcollection
  text := by
    rw [contentIn_upsert_document]
    exact hcontent.symm
  empty hempty := by
    rw [chunkIn_upsert_document]
    cases hstatus : row.status with
    | proposed => exact h.proposed row hrow hstatus
    | published =>
      rw [h.published row hrow hstatus, ← hcontent]
      exact hempty

/-- Writing columns of the row that leave a published document alone. -/
theorem Agrees.updateRow {rows : List Row} {row row' : DocumentRow} (h : Agrees rows)
    (hrow : documentIn rows = some row) (hstatus : row'.status = row.status)
    (hlive : row.status = .published → row'.deletedAt = row.deletedAt) :
    Agrees (Table.upsert Row.key rows (.document row')) where
  live found hfound hpublished := by
    rw [documentIn_upsert_document] at hfound
    obtain rfl := Option.some.inj hfound
    rw [hstatus] at hpublished
    exact (hlive hpublished).trans (h.live row hrow hpublished)
  elsewhere collection hcollection := by
    rw [chunkIn_upsert_document]
    exact h.elsewhere collection hcollection
  proposed found hfound hproposed := by
    rw [documentIn_upsert_document] at hfound
    obtain rfl := Option.some.inj hfound
    rw [chunkIn_upsert_document]
    exact h.proposed row hrow (hstatus.symm.trans hproposed)
  published found hfound hpublished := by
    rw [documentIn_upsert_document] at hfound
    obtain rfl := Option.some.inj hfound
    rw [chunkIn_upsert_document, contentIn_upsert_document]
    exact h.published row hrow (hstatus.symm.trans hpublished)

/-- Editing the text of a document that is not published, or without effect on the index. -/
theorem Agrees.editContent {rows : List Row} {text : String} (h : Agrees rows)
    (hedit : (∀ row ∈ documentIn rows, row.status ≠ .published) ∨
      indexable (some text) = indexable (contentIn rows)) :
    Agrees (Table.upsert Row.key rows (.content (some text))) where
  live row hrow hpublished := by
    rw [documentIn_upsert_content] at hrow
    exact h.live row hrow hpublished
  elsewhere collection hcollection := by
    rw [chunkIn_upsert_content]
    exact h.elsewhere collection hcollection
  proposed row hrow hproposed := by
    rw [documentIn_upsert_content] at hrow
    rw [chunkIn_upsert_content]
    exact h.proposed row hrow hproposed
  published row hrow hpublished := by
    rw [documentIn_upsert_content] at hrow
    rw [chunkIn_upsert_content, contentIn_upsert_content]
    rcases hedit with hunpublished | hsame
    · exact absurd hpublished (hunpublished row hrow)
    · rw [hsame]
      exact h.published row hrow hpublished

/-- Sweeping a collection of an unpublished document finds nothing. -/
theorem Agrees.sweep {rows : List Row} {collection : CollectionName} (h : Agrees rows)
    (hunpublished : ∀ row ∈ documentIn rows, row.status ≠ .published) :
    Agrees (Table.upsert Row.key rows (.chunk collection none)) where
  live row hrow hpublished := by
    rw [documentIn_upsert_chunk] at hrow
    exact h.live row hrow hpublished
  elsewhere other hother := by
    rw [chunkIn_upsert_chunk]
    split
    · rfl
    · exact h.elsewhere other hother
  proposed row hrow hproposed := by
    rw [documentIn_upsert_chunk] at hrow
    rw [chunkIn_upsert_chunk]
    split
    · rfl
    · exact h.proposed row hrow hproposed
  published row hrow hpublished := by
    rw [documentIn_upsert_chunk] at hrow
    exact absurd hpublished (hunpublished row hrow)

theorem Indexing.index {rows : List Row} {content : Option String} {text : String}
    (h : Indexing rows content) (htext : indexable content = some text) :
    Agrees (Table.upsert Row.key rows (.chunk .documentation (some text))) where
  live row hrow _ := by
    rw [documentIn_upsert_chunk] at hrow
    exact (h.live row hrow).2
  elsewhere collection hcollection := by
    rw [chunkIn_upsert_chunk, if_neg hcollection]
    exact h.elsewhere collection hcollection
  proposed row hrow hproposed := by
    rw [documentIn_upsert_chunk] at hrow
    have hpublished := (h.live row hrow).1
    rw [hproposed] at hpublished
    cases hpublished
  published row hrow _ := by
    rw [chunkIn_upsert_chunk, if_pos rfl, contentIn_upsert_chunk, h.text, htext]

theorem Indexing.skip {rows : List Row} {content : Option String} (h : Indexing rows content)
    (hempty : indexable content = none) : Agrees rows where
  live row hrow _ := (h.live row hrow).2
  elsewhere := h.elsewhere
  proposed row hrow hproposed := by
    have hpublished := (h.live row hrow).1
    rw [hproposed] at hpublished
    cases hpublished
  published row hrow _ := by
    rw [h.text, hempty]
    exact h.empty hempty

/-- The first write of a request takes the lock. -/
theorem Inv.updateRow (h : Inv s) {f : DocumentRow → DocumentRow} {p : Phase}
    (hwrite : updateRow s t f p = some s') (hquiet : p.quiet = false)
    (hsees : ∀ row, documentIn (s.rows Row.key t) = some row →
      Sees (Table.upsert Row.key (s.rows Row.key t) (.document (f row))) p) : Inv s' := by
  obtain ⟨row, hrow, hfree, rfl⟩ := updateRow_some hwrite
  exact h.write hfree (fun _ => rfl) hquiet (hsees row hrow)

theorem Inv.writeFree (h : Inv s) {r : Row} {p : Phase}
    (hwrite : s.writeFree Row.key t r p = some s') (hwriting : (s.phase t).quiet = false)
    (hquiet : p.quiet = false)
    (hsees : Sees (Table.upsert Row.key (s.rows Row.key t) r) p) : Inv s' := by
  obtain ⟨hfree, rfl⟩ := Sessions.writeFree_some hwrite
  refine h.write hfree (fun hbefore => ?_) hquiet hsees
  rw [hwriting] at hbefore
  cases hbefore

theorem Inv.act (h : Inv s) {held : DocumentRow} {request : Request}
    (hphase : s.phase t = .checked request held) (hok : Clear (s.rows Row.key t) (s.phase t))
    (hact : act s t held request = some s') : Inv s' := by
  have hagrees : Agrees (s.rows Row.key t) := h.agrees (by rw [hphase]; rfl)
  cases request with
  | publish =>
    obtain rfl := Option.some.inj hact
    exact h.goto (by rw [hphase]; rfl) fun hwriting => nomatch hwriting
  | update actor organizationId data =>
    unfold ReviewRace.act at hact
    dsimp only at hact
    split at hact
    · obtain rfl := Option.some.inj hact
      exact h.commit rfl hagrees
    · refine h.updateRow hact rfl fun row hrow => ?_
      exact hagrees.updateRow hrow rfl fun _ => rfl
  | reject actor organizationId now =>
    have hunpublished : ∀ row ∈ documentIn (s.rows Row.key t), row.status ≠ .published := by
      rw [hphase] at hok
      exact hok rfl
    refine h.updateRow hact rfl fun row hrow => ⟨?_, ?_⟩
    · exact hagrees.updateRow hrow rfl fun hpublished =>
        absurd hpublished (hunpublished row hrow)
    · intro row' hrow'
      rw [documentIn_upsert_document] at hrow'
      obtain rfl := Option.some.inj hrow'
      exact hunpublished row hrow

/-- One case for each phase. -/
theorem Inv.advance (h : Inv s) (hok : Clear (s.rows Row.key t) (s.phase t))
    (hstep : advance s t = some s') : Inv s' := by
  unfold ReviewRace.advance at hstep
  cases hphase : s.phase t with
  | idle | finished =>
    rw [hphase] at hstep
    cases hstep
  | started request =>
    rw [hphase] at hstep
    obtain rfl := Option.some.inj hstep
    exact h.goto (by rw [hphase]; rfl) fun hwriting => nomatch hwriting
  | loaded request row =>
    rw [hphase] at hstep
    cases row with
    | none =>
      obtain rfl := Option.some.inj hstep
      exact h.rollback rfl
    | some row =>
      dsimp only at hstep
      split at hstep
      · obtain rfl := Option.some.inj hstep
        exact h.goto (by rw [hphase]; rfl) fun hwriting => nomatch hwriting
      · obtain rfl := Option.some.inj hstep
        exact h.rollback rfl
  | checked request row =>
    rw [hphase] at hstep
    exact h.act hphase hok hstep
  | contentRead content =>
    rw [hphase] at hstep
    have hagrees : Agrees (s.rows Row.key t) := h.agrees (by rw [hphase]; rfl)
    rw [hphase] at hok
    obtain ⟨hlive, hcontent⟩ := hok
    exact h.updateRow hstep rfl fun row hrow =>
      hagrees.publish hrow (hlive row hrow) hcontent
  | published content =>
    have hwriting : (s.phase t).quiet = false := by rw [hphase]; rfl
    have hsees := h.sees t hwriting
    rw [hphase] at hstep hsees
    dsimp only at hstep
    split at hstep
    · next text htext => exact h.writeFree hstep hwriting rfl (Indexing.index hsees htext)
    · next hempty =>
        obtain rfl := Option.some.inj hstep
        exact h.goto hwriting.symm fun _ => Indexing.skip hsees hempty
  | edited content =>
    have hwriting : (s.phase t).quiet = false := by rw [hphase]; rfl
    have hsees := h.sees t hwriting
    rw [hphase] at hstep hsees
    rcases content with _ | _ | text
    · obtain rfl := Option.some.inj hstep
      exact h.goto hwriting.symm fun _ => hsees
    · obtain rfl := Option.some.inj hstep
      exact h.rollback rfl
    · rw [hphase] at hok
      exact h.writeFree hstep hwriting rfl (Agrees.editContent hsees (hok text rfl))
  | rejected rest =>
    have hwriting : (s.phase t).quiet = false := by rw [hphase]; rfl
    have hsees := h.sees t hwriting
    rw [hphase] at hstep hsees
    obtain ⟨hagrees, hunpublished⟩ := hsees
    cases rest with
    | nil =>
      obtain rfl := Option.some.inj hstep
      exact h.goto hwriting.symm fun _ => hagrees
    | cons collection rest =>
      refine h.writeFree hstep hwriting rfl ⟨hagrees.sweep hunpublished, ?_⟩
      rw [documentIn_upsert_chunk]
      exact hunpublished
  | written =>
    have hwriting : (s.phase t).quiet = false := by rw [hphase]; rfl
    have hsees := h.sees t hwriting
    rw [hphase] at hstep hsees
    obtain rfl := Option.some.inj hstep
    exact h.commit rfl hsees

theorem Inv.step {a : Label} (h : Inv s) (hok : Uncontested s a)
    (hstep : ReviewRace.step s a = some s') : Inv s' := by
  cases a with
  | start t request =>
    unfold ReviewRace.step at hstep
    dsimp only at hstep
    split at hstep
    · next hidle =>
        obtain rfl := Option.some.inj hstep
        exact h.goto (by rw [hidle]; rfl) fun hwriting => nomatch hwriting
    · cases hstep
  | advance t => exact h.advance hok hstep
  | abort t =>
    obtain rfl := Option.some.inj hstep
    exact h.rollback rfl

theorem Inv.init {rows : List Row} (h : Agrees rows) : Inv (init rows) where
  exclusive _ hp := nomatch hp
  idle _ _ := rfl
  guarded _ hwriting := nomatch hwriting
  committed := h
  sees _ hwriting := nomatch hwriting

end Step

/-- As long as no request overtakes another, row, text and index agree in every
committed state. -/
theorem reviews_consistent {rows : List Row} (hrows : Agrees rows) {s : St}
    (h : Run step Uncontested (init rows) s) : Consistent s.store.committed := by
  have hinv : Inv s := h.invariant (fun _ _ _ hi hok hstep => hi.step hok hstep) (Inv.init hrows)
  exact hinv.committed.consistent

/-! ## A publication and a rejection that pass each other -/

def reviewer : Identity where
  kind := .user
  subject := "1"
  organizationId := 1
  permissions := {reviewPermission}

def proposal : DocumentRow where
  id := 1
  organizationId := 1
  projectId := 1
  source := "manual"
  externalId := "x"
  contentHash := "h"
  title := some "Runbook"
  status := .proposed

def proposalRows : List Row := [.document proposal, .content (some "restart")]

theorem proposalRows_agree : Agrees proposalRows where
  live row hrow hpublished := by
    obtain rfl : proposal = row := Option.some.inj hrow
    cases hpublished
  elsewhere _ _ := rfl
  proposed _ _ _ := rfl
  published row hrow hpublished := by
    obtain rfl : proposal = row := Option.some.inj hrow
    cases hpublished

def amendment : DocumentUpdate where
  content := some (some "restart twice")

/-- The publication has checked the proposal when an edit of the text commits, and reads
the text after it. -/
def publishAround : List Label :=
  [.start 0 (.publish reviewer 1), .advance 0, .start 1 (.update reviewer 1 amendment), .advance 0] ++
    List.replicate 5 (.advance 1) ++ List.replicate 4 (.advance 0)

theorem reviews_consistent_published :
    ∃ s, execWithin step Uncontested (init proposalRows) publishAround = some s ∧
      documentIn s.store.committed = some { proposal with status := .published, version := 2 } ∧
      chunkIn s.store.committed .documentation = some "restart twice" ∧
      Consistent s.store.committed := by
  obtain ⟨s, hexec, hrow, hchunk⟩ : ∃ s,
      execWithin step Uncontested (init proposalRows) publishAround = some s ∧
        documentIn s.store.committed = some { proposal with status := .published, version := 2 } ∧
        chunkIn s.store.committed .documentation = some "restart twice" := ⟨_, rfl, rfl, rfl⟩
  exact ⟨s, hexec, hrow, hchunk, reviews_consistent proposalRows_agree (run_of_execWithin hexec)⟩

/-- Both requests have read the proposal before either writes. -/
def overtaking : List Label :=
  [.start 0 (.publish reviewer 1), .start 1 (.reject reviewer 1 7)] ++
    List.replicate 2 (.advance 1) ++ List.replicate 6 (.advance 0) ++
    List.replicate 6 (.advance 1)

theorem reviews_inconsistent :
    ¬ ∀ rows s, Agrees rows → Run step anyStep (init rows) s → Consistent s.store.committed := by
  intro hclaim
  obtain ⟨s, hexec, hrow⟩ : ∃ s, exec step (init proposalRows) overtaking = some s ∧
      documentIn s.store.committed =
        some { proposal with status := .published, deletedAt := some 7 } := ⟨_, rfl, rfl⟩
  have hconsistent := hclaim proposalRows s proposalRows_agree (run_of_exec hexec)
  refine hconsistent.notBoth _ hrow ⟨rfl, ?_⟩
  intro hlive
  cases hlive

end Ekip.Core.Knowledge.ReviewRace
