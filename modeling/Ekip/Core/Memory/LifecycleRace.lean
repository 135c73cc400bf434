import Ekip.Lib.Sessions
import Ekip.Core.Memory.Service

/-!
# Interleaved writes to memories

Creations, updates and deletions, each in a session of its own under
read-committed isolation. The embedding model is called between the check of
visibility and the first write, so anything may be committed in between. An
`UPDATE` evaluates its own `WHERE` on the row as it is committed by then.
-/
namespace Ekip.Core.Memory.LifecycleRace

open Ekip.Lib Ekip.Database Ekip.Shared

abbrev Rid := Nat

variable {ε ω : Type}

inductive Request
  | create (actor : Identity) (data : MemoryCreate)
  | update (actor : Identity) (memoryId : Uuid) (data : MemoryUpdate)
  | delete (actor : Identity) (memoryId : Uuid)

inductive Phase
  | idle
  | started (request : Request)
  /-- The checks are passed, and the embedding is awaited. -/
  | creating (actor : Identity) (ownerUserId : Option Uuid) (data : MemoryCreate)
  | updating (memoryId : Uuid) (data : MemoryUpdate)
  | deleting (memoryId : Uuid)
  /-- The new row is in; the one that it replaces is still to be marked. -/
  | inserted (supersedes : Uuid)
  | written
  | finished

abbrev St (ε : Type) := Sessions Rid (AgentMemory ε) Phase

def init (rows : List (AgentMemory ε)) : St ε :=
  { store := { committed := rows }, phase := fun _ => .idle }

namespace St

variable (s : St ε) (t : Rid)

/-- What a statement of `t` reads. -/
def view : List (AgentMemory ε) := s.rows AgentMemory.id t

/-- `UPDATE … WHERE id = memoryId AND p`; `missed` is where no row matches. -/
def update (memoryId : Uuid) (p : AgentMemory ε → Bool) (f : AgentMemory ε → AgentMemory ε)
    (next : Phase) (missed : St ε) : Option (St ε) :=
  match Table.get? AgentMemory.id (view s t) memoryId with
  | none => some missed
  | some row => if p row then s.writeFree AgentMemory.id t (f row) next else some missed

/-- The table holds a row under `memoryId`. -/
def has (memoryId : Uuid) : Bool := (view s t).any fun row => row.id = memoryId

/-- The primary key, and the foreign key of the memory that is replaced. -/
def insert (row : AgentMemory ε) (next : Phase) : Option (St ε) :=
  if has s t row.id = true ∨ ∃ memoryId ∈ row.supersedesMemoryId, has s t memoryId = false then
    some (s.rollback t .finished)
  else s.writeFree AgentMemory.id t row next

end St

/-- What creation checks before it calls the embedding model. -/
def mayCreate (actor : Identity) (data : MemoryCreate) : MemoryM ε (Option Uuid) := do
  let ownerUserId ← ownerFor actor data
  requireSupersedable actor data.supersedesMemoryId
  pure ownerUserId

/-- The statement that a creation goes on with. -/
def afterInsert (data : MemoryCreate) : Phase :=
  match data.supersedesMemoryId with
  | none => .written
  | some memoryId => .inserted memoryId

/-- A request checks what it may see, and then waits for the embedding. -/
def check (s : St ε) (t : Rid) : Request → St ε
  | .create actor data =>
    match (mayCreate actor data (s.view t)).1 with
    | .ok ownerUserId => s.goto t (.creating actor ownerUserId data)
    | .error _ => s.rollback t .finished
  | .update actor memoryId data =>
    match visibleTo actor memoryId (s.view t) with
    | some _ => s.goto t (.updating memoryId data)
    | none => s.rollback t .finished
  | .delete actor memoryId =>
    match visibleTo actor memoryId (s.view t) with
    | some _ => s.goto t (.deleting memoryId)
    | none => s.rollback t .finished

/-- The next step of request `t`. -/
def advance (engine : Engine ε ω) (s : St ε) (t : Rid) (draw : Draw) : Option (St ε) :=
  match s.phase t with
  | .idle => none
  | .finished => none
  | .started request => some (check s t request)
  | .creating actor ownerUserId data =>
    match engine.embedQuery data.content with
    | .error _ => some (s.rollback t .finished)
    | .ok vector => s.insert t (newRow draw actor ownerUserId data vector) (afterInsert data)
  | .inserted memoryId =>
    s.update t memoryId (fun row => row.status = .active) (Repository.superseded draw.now)
      .written (s.goto t .written)
  | .updating memoryId data =>
    match engine.embedQuery data.content with
    | .error _ => some (s.rollback t .finished)
    | .ok vector =>
      s.update t memoryId (fun _ => true)
        (Repository.withContent draw.now data.content vector data.memoryMetadata) .written
        (s.rollback t .finished)
  | .deleting memoryId =>
    s.update t memoryId (fun row => row.status ≠ .deleted)
      (Repository.tombstone engine.zeroVector draw.now) .written (s.goto t .written)
  | .written => some (s.commit AgentMemory.id t .finished)

inductive Label
  | start (t : Rid) (request : Request)
  | advance (t : Rid) (draw : Draw)
  | abort (t : Rid)

/-- A request may fail or be cancelled between any two steps. -/
def step (engine : Engine ε ω) (s : St ε) : Label → Option (St ε)
  | .start t request =>
    match s.phase t with
    | .idle => some (s.goto t (.started request))
    | _ => none
  | .advance t draw => advance engine s t draw
  | .abort t => some (s.rollback t .finished)

/-! ## What a committed table satisfies -/

/-- Keys aside: tombstones are empty, and a memory that an active one replaces is
there and no longer active. -/
structure Sound (zeroVector : ε) (rows : List (AgentMemory ε)) : Prop where
  erased : ∀ row ∈ rows, row.status = .deleted → row.content = "" ∧ row.embedding = zeroVector
  /-- The foreign key. -/
  named : ∀ row ∈ rows, ∀ memoryId, row.supersedesMemoryId = some memoryId →
    ∃ old ∈ rows, old.id = memoryId
  retired : ∀ row ∈ rows, row.status = .active → ∀ memoryId,
    row.supersedesMemoryId = some memoryId → ∀ old ∈ rows, old.id = memoryId → old.status ≠ .active
  single : ∀ row ∈ rows, ∀ row' ∈ rows, row.status = .active → row'.status = .active →
    ∀ memoryId, row.supersedesMemoryId = some memoryId → row'.supersedesMemoryId = some memoryId →
    row = row'

/-- `w` is a new image of the row `c`: it becomes no more active than it was, and
where it is deleted it is empty. -/
structure Edits (zeroVector : ε) (c w : AgentMemory ε) : Prop where
  id : w.id = c.id
  supersedes : w.supersedesMemoryId = c.supersedesMemoryId
  active : w.status = .active → c.status = .active
  erased : w.status = .deleted → w.content = "" ∧ w.embedding = zeroVector

structure New (committed : List (AgentMemory ε)) (y : AgentMemory ε) : Prop where
  fresh : ∀ row ∈ committed, row.id ≠ y.id
  active : y.status = .active

/-- The images of a request that is ready to commit. -/
inductive Wrote (zeroVector : ε) (committed : List (AgentMemory ε)) : List (AgentMemory ε) → Prop
  | nothing : Wrote zeroVector committed []
  | edit (c w : AgentMemory ε) (hc : c ∈ committed) (h : Edits zeroVector c w) :
      Wrote zeroVector committed [w]
  | insert (y : AgentMemory ε) (hy : New committed y) (hnone : y.supersedesMemoryId = none) :
      Wrote zeroVector committed [y]
  | replace (y c w : AgentMemory ε) (hy : New committed y) (hc : c ∈ committed)
      (hnames : y.supersedesMemoryId = some c.id) (hactive : c.status = .active)
      (h : Edits zeroVector c w) (hretired : w.status ≠ .active) :
      Wrote zeroVector committed [y, w]

/-- What a request has written, by where it stands. -/
def Holds (zeroVector : ε) (committed : List (AgentMemory ε)) :
    Phase → List (AgentMemory ε) → Prop
  | .inserted memoryId, images =>
    ∃ y, images = [y] ∧ New committed y ∧ y.supersedesMemoryId = some memoryId ∧ y.id ≠ memoryId
  | .written, images => Wrote zeroVector committed images
  | _, images => images = []

theorem holds_local (zeroVector : ε) : Sessions.Local AgentMemory.id (Holds zeroVector) := by
  intro c c' p images hsame h
  have hnew : ∀ {y}, y ∈ images → New c y → New c' y := by
    intro y hmem hy
    refine ⟨?_, hy.active⟩
    intro row hrow hid
    exact hy.fresh row ((hsame y hmem row hid).mpr hrow) hid
  cases p with
  | inserted memoryId =>
    obtain ⟨y, rfl, hy, hnames, hne⟩ := h
    exact ⟨y, rfl, hnew (List.mem_singleton_self y) hy, hnames, hne⟩
  | written =>
    cases h with
    | nothing => exact .nothing
    | edit row w hc hedit =>
      exact .edit row w ((hsame w (List.mem_singleton_self w) row hedit.id.symm).mp hc) hedit
    | insert y hy hnone => exact .insert y (hnew (List.mem_singleton_self y) hy) hnone
    | replace y row w hy hc hnames hactive hedit hretired =>
      have hw : w ∈ [y, w] := by simp
      exact .replace y row w (hnew List.mem_cons_self hy)
        ((hsame w hw row hedit.id.symm).mp hc) hnames hactive hedit hretired
  | idle | started _ | creating _ _ _ | updating _ _ | deleting _ | finished => exact h

/-! ## Commits -/

section Commit

variable {zeroVector : ε} {rows : List (AgentMemory ε)} {c w y : AgentMemory ε}

theorem Sound.edit (h : Sound zeroVector rows) (hc : c ∈ rows) (hedit : Edits zeroVector c w) :
    Sound zeroVector (Table.upsert AgentMemory.id rows w) := by
  -- every row stands for an old one, with the same keys, that is active if it is
  have hold : ∀ row ∈ Table.upsert AgentMemory.id rows w, ∃ old ∈ rows, old.id = row.id ∧
      old.supersedesMemoryId = row.supersedesMemoryId ∧
      (row.status = .active → old.status = .active) ∧ (row = w ∨ row = old) := by
    intro row hrow
    rcases Table.mem_upsert.mp hrow with rfl | ⟨hmem, -⟩
    · exact ⟨c, hc, hedit.id.symm, hedit.supersedes.symm, hedit.active, .inl rfl⟩
    · exact ⟨row, hmem, rfl, rfl, id, .inr rfl⟩
  refine ⟨?_, ?_, ?_, ?_⟩
  · intro row hrow hdeleted
    rcases Table.mem_upsert.mp hrow with rfl | ⟨hmem, -⟩
    · exact hedit.erased hdeleted
    · exact h.erased row hmem hdeleted
  · intro row hrow memoryId hnames
    obtain ⟨old, hmem, -, hsupersedes, -⟩ := hold row hrow
    obtain ⟨target, htarget, rfl⟩ := h.named old hmem memoryId (hsupersedes.trans hnames)
    by_cases hid : target.id = w.id
    · exact ⟨w, Table.mem_upsert.mpr (.inl rfl), hid.symm⟩
    · exact ⟨target, Table.mem_upsert.mpr (.inr ⟨htarget, hid⟩), rfl⟩
  · intro row hrow hrowActive memoryId hnames target htarget hid htargetActive
    obtain ⟨old, hmem, -, hsupersedes, holdActive, -⟩ := hold row hrow
    obtain ⟨oldTarget, htargetMem, htargetId, -, htargetOld, -⟩ := hold target htarget
    exact h.retired old hmem (holdActive hrowActive) memoryId (hsupersedes.trans hnames) oldTarget
      htargetMem (htargetId.trans hid) (htargetOld htargetActive)
  · intro row hrow row' hrow' hrowActive hrowActive' memoryId hnames hnames'
    obtain ⟨old, hmem, hid, hsupersedes, holdActive, hrowCases⟩ := hold row hrow
    obtain ⟨old', hmem', hid', hsupersedes', holdActive', hrowCases'⟩ := hold row' hrow'
    have hsame : old = old' := h.single old hmem old' hmem' (holdActive hrowActive)
      (holdActive' hrowActive') memoryId (hsupersedes.trans hnames) (hsupersedes'.trans hnames')
    subst hsame
    rcases Table.mem_upsert.mp hrow with hw | ⟨-, hne⟩
    · rcases Table.mem_upsert.mp hrow' with hw' | ⟨-, hne'⟩
      · exact hw.trans hw'.symm
      · exact absurd (hid'.symm.trans (hid.trans (congrArg AgentMemory.id hw))) hne'
    · rcases Table.mem_upsert.mp hrow' with hw' | ⟨-, hne'⟩
      · exact absurd (hid.symm.trans (hid'.trans (congrArg AgentMemory.id hw'))) hne
      · have hold₁ : row = old := hrowCases.resolve_left fun hw => hne (congrArg AgentMemory.id hw)
        have hold₂ : row' = old :=
          hrowCases'.resolve_left fun hw => hne' (congrArg AgentMemory.id hw)
        exact hold₁.trans hold₂.symm

/-- A new row, which names an old one that is neither active nor named by another. -/
theorem Sound.insert (h : Sound zeroVector rows) (hy : New rows y)
    (htarget : ∀ memoryId, y.supersedesMemoryId = some memoryId →
      (∃ old ∈ rows, old.id = memoryId ∧ old.status ≠ .active) ∧
        ∀ row ∈ rows, row.status = .active → row.supersedesMemoryId ≠ some memoryId)
    (hunique : Table.KeyUnique AgentMemory.id rows) :
    Sound zeroVector (Table.upsert AgentMemory.id rows y) := by
  have hmem : ∀ row, row ∈ Table.upsert AgentMemory.id rows y ↔ row = y ∨ row ∈ rows := by
    intro row
    rw [Table.mem_upsert]
    constructor
    · intro hrow
      exact hrow.imp_right And.left
    · intro hrow
      exact hrow.imp_right fun hold => ⟨hold, hy.fresh row hold⟩
  refine ⟨?_, ?_, ?_, ?_⟩
  · intro row hrow hdeleted
    rcases (hmem row).mp hrow with rfl | hold
    · rw [hy.active] at hdeleted
      cases hdeleted
    · exact h.erased row hold hdeleted
  · intro row hrow memoryId hnames
    rcases (hmem row).mp hrow with rfl | hold
    · obtain ⟨⟨old, hold, hid, -⟩, -⟩ := htarget memoryId hnames
      exact ⟨old, (hmem old).mpr (.inr hold), hid⟩
    · obtain ⟨old, hold', hid⟩ := h.named row hold memoryId hnames
      exact ⟨old, (hmem old).mpr (.inr hold'), hid⟩
  · intro row hrow hrowActive memoryId hnames old hold hid
    have hexisting : ∃ target ∈ rows, target.id = memoryId := by
      rcases (hmem row).mp hrow with rfl | hrowOld
      · obtain ⟨⟨target, htargetMem, htargetId, -⟩, -⟩ := htarget memoryId hnames
        exact ⟨target, htargetMem, htargetId⟩
      · exact h.named row hrowOld memoryId hnames
    rcases (hmem old).mp hold with rfl | holdOld
    · obtain ⟨target, htargetMem, htargetId⟩ := hexisting
      exact absurd (htargetId.trans hid.symm) (hy.fresh target htargetMem)
    · rcases (hmem row).mp hrow with rfl | hrowOld
      · obtain ⟨⟨target, htargetMem, htargetId, hretired⟩, -⟩ := htarget memoryId hnames
        rwa [hunique old holdOld target htargetMem (hid.trans htargetId.symm)]
      · exact h.retired row hrowOld hrowActive memoryId hnames old holdOld hid
  · intro row hrow row' hrow' hrowActive hrowActive' memoryId hnames hnames'
    rcases (hmem row).mp hrow with rfl | hold
    · rcases (hmem row').mp hrow' with rfl | hold'
      · rfl
      · exact absurd hnames' ((htarget memoryId hnames).2 row' hold' hrowActive')
    · rcases (hmem row').mp hrow' with rfl | hold'
      · exact absurd hnames ((htarget memoryId hnames').2 row hold hrowActive)
      · exact h.single row hold row' hold' hrowActive hrowActive' memoryId hnames hnames'

/-- Only the rows matter, not their order. -/
theorem Sound.of_mem_iff {rows' : List (AgentMemory ε)} (h : Sound zeroVector rows)
    (hmem : ∀ row, row ∈ rows' ↔ row ∈ rows) : Sound zeroVector rows' where
  erased row hrow := h.erased row ((hmem row).mp hrow)
  named row hrow memoryId hnames := by
    obtain ⟨old, hold, hid⟩ := h.named row ((hmem row).mp hrow) memoryId hnames
    exact ⟨old, (hmem old).mpr hold, hid⟩
  retired row hrow hactive memoryId hnames old hold :=
    h.retired row ((hmem row).mp hrow) hactive memoryId hnames old ((hmem old).mp hold)
  single row hrow row' hrow' := h.single row ((hmem row).mp hrow) row' ((hmem row').mp hrow')

/-- Retiring `c` for the new row `y`: no active row has named `c` before. -/
theorem Sound.replace (h : Sound zeroVector rows) (hunique : Table.KeyUnique AgentMemory.id rows)
    (hy : New rows y) (hc : c ∈ rows) (hnames : y.supersedesMemoryId = some c.id)
    (hactive : c.status = .active) (hedit : Edits zeroVector c w) (hretired : w.status ≠ .active) :
    Sound zeroVector (Table.upsert AgentMemory.id (Table.upsert AgentMemory.id rows y) w) := by
  have hne : w.id ≠ y.id := by
    rw [hedit.id]
    exact hy.fresh c hc
  have hfresh : New (Table.upsert AgentMemory.id rows w) y := by
    refine ⟨?_, hy.active⟩
    intro row hrow
    rcases Table.mem_upsert.mp hrow with rfl | ⟨hold, -⟩
    · exact hne
    · exact hy.fresh row hold
  have hunnamed : ∀ row ∈ rows, row.status = .active → row.supersedesMemoryId ≠ some c.id := by
    intro row hrow hrowActive hrowNames
    exact h.retired row hrow hrowActive c.id hrowNames c hc rfl hactive
  have hsound := (h.edit hc hedit).insert hfresh (fun memoryId hmemory => ?_)
    (Table.keyUnique_upsert hunique w)
  · refine hsound.of_mem_iff fun row => ?_
    simp only [Table.mem_upsert]
    constructor
    · intro hrow
      rcases hrow with rfl | ⟨rfl | ⟨hold, hney⟩, hnew⟩
      · exact .inr ⟨.inl rfl, hne⟩
      · exact .inl rfl
      · exact .inr ⟨.inr ⟨hold, hnew⟩, hney⟩
    · intro hrow
      rcases hrow with rfl | ⟨rfl | ⟨hold, hnew⟩, hney⟩
      · exact .inr ⟨.inl rfl, hne.symm⟩
      · exact .inl rfl
      · exact .inr ⟨.inr ⟨hold, hney⟩, hnew⟩
  · obtain rfl : c.id = memoryId := Option.some.inj (hnames.symm.trans hmemory)
    refine ⟨⟨w, Table.mem_upsert.mpr (.inl rfl), hedit.id, hretired⟩, ?_⟩
    intro row hrow hrowActive
    rcases Table.mem_upsert.mp hrow with rfl | ⟨hold, -⟩
    · exact absurd hrowActive hretired
    · exact hunnamed row hold hrowActive

theorem Wrote.sound {images : List (AgentMemory ε)} (h : Wrote zeroVector rows images)
    (hsound : Sound zeroVector rows) (hunique : Table.KeyUnique AgentMemory.id rows) :
    Sound zeroVector (images.foldl (Table.upsert AgentMemory.id) rows) := by
  cases h with
  | nothing => exact hsound
  | edit c w hc hedit => exact hsound.edit hc hedit
  | insert y hy hnone =>
    refine hsound.insert hy (fun memoryId hnames => ?_) hunique
    rw [hnone] at hnames
    cases hnames
  | replace y c w hy hc hnames hactive hedit hretired =>
    exact hsound.replace hunique hy hc hnames hactive hedit hretired

/-- Every row is still there, and no status has gone back to active. -/
def Forward (rows rows' : List (AgentMemory ε)) : Prop :=
  ∀ row ∈ rows, ∃ row' ∈ rows', row'.id = row.id ∧ (row.status ≠ .active → row'.status ≠ .active)

theorem Forward.refl (rows : List (AgentMemory ε)) : Forward rows rows := by
  intro row hrow
  exact ⟨row, hrow, rfl, id⟩

theorem Forward.trans {rows' rows'' : List (AgentMemory ε)} (h : Forward rows rows')
    (h' : Forward rows' rows'') : Forward rows rows'' := by
  intro row hrow
  obtain ⟨row', hrow', hid, hstatus⟩ := h row hrow
  obtain ⟨row'', hrow'', hid', hstatus'⟩ := h' row' hrow'
  exact ⟨row'', hrow'', hid'.trans hid, fun hne => hstatus' (hstatus hne)⟩

theorem Wrote.forward {images : List (AgentMemory ε)} (h : Wrote zeroVector rows images)
    (hunique : Table.KeyUnique AgentMemory.id rows) :
    Forward rows (images.foldl (Table.upsert AgentMemory.id) rows) := by
  intro row hrow
  obtain ⟨row', hrow', hid⟩ := (Table.foldl_upsert_covers (.inl hrow) :
    ∃ row' ∈ images.foldl (Table.upsert AgentMemory.id) rows, row'.id = row.id)
  refine ⟨row', hrow', hid, ?_⟩
  have hedited : ∀ {c w : AgentMemory ε}, c ∈ rows → Edits zeroVector c w → row' = w →
      row.status ≠ .active → row'.status ≠ .active := by
    intro c w hc hedit heq hne hactive
    subst heq
    obtain rfl := hunique c hc row hrow (hedit.id.symm.trans hid)
    exact hne (hedit.active hactive)
  rcases Table.mem_of_mem_foldl_upsert hrow' with hold | himage
  · rw [hunique row' hold row hrow hid]
    exact id
  · cases h with
    | nothing => cases himage
    | edit c w hc hedit => exact hedited hc hedit (List.mem_singleton.mp himage)
    | insert y hy hnone =>
      obtain rfl := List.mem_singleton.mp himage
      exact absurd hid.symm (hy.fresh row hrow)
    | replace y c w hy hc hnames hactive hedit hretired =>
      rcases List.mem_cons.mp himage with rfl | hw
      · exact absurd hid.symm (hy.fresh row hrow)
      · exact hedited hc hedit (List.mem_singleton.mp hw)

end Commit

/-! ## Steps -/

/-- A writer that goes to `rows` from its phase finds what its check has found: an
update a memory that is not deleted, a replacement one that is still active. -/
def Clear (rows : List (AgentMemory ε)) : Phase → Prop
  | .inserted memoryId => ∃ row ∈ rows, row.id = memoryId ∧ row.status = .active
  | .updating memoryId _ => ∀ row ∈ rows, row.id = memoryId → row.status ≠ .deleted
  | _ => True

def Uncontested (s : St ε) : Label → Prop
  | .advance t _ => Clear (s.view t) (s.phase t)
  | _ => True

instance (rows : List (AgentMemory ε)) (p : Phase) : Decidable (Clear rows p) :=
  match p with
  | .inserted _ => inferInstanceAs (Decidable (∃ _ ∈ _, _ ∧ _))
  | .updating _ _ => inferInstanceAs (Decidable (∀ _ ∈ _, _ → _))
  | .idle | .started _ | .creating _ _ _ | .deleting _ | .written | .finished => isTrue trivial

instance (s : St ε) (a : Label) : Decidable (Uncontested s a) :=
  match a with
  | .advance t _ => inferInstanceAs (Decidable (Clear (s.view t) (s.phase t)))
  | .start _ _ | .abort _ => isTrue trivial

/-- What the requests have written fits the committed rows. -/
abbrev Inv (zeroVector : ε) (s : St ε) : Prop :=
  s.Owned AgentMemory.id (Sound zeroVector) (Holds zeroVector)

section Step

variable {engine : Engine ε ω} {zeroVector : ε} {s s' : St ε} {t : Rid}

theorem update_cases {memoryId : Uuid} {p : AgentMemory ε → Bool}
    {f : AgentMemory ε → AgentMemory ε} {next : Phase} {missed : St ε}
    (h : s.update t memoryId p f next missed = some s') :
    (∃ row ∈ s.view t, row.id = memoryId ∧ p row = true ∧
        s.store.free AgentMemory.id t (f row).id = true ∧ s' = s.write t (f row) next) ∨
      (s' = missed ∧ ∀ row, Table.get? AgentMemory.id (s.view t) memoryId = some row →
        p row = false) := by
  unfold St.update at h
  cases hget : Table.get? AgentMemory.id (s.view t) memoryId with
  | none =>
    rw [hget] at h
    exact .inr ⟨(Option.some.inj h).symm, fun _ hrow => nomatch hrow⟩
  | some row =>
    rw [hget] at h
    dsimp only at h
    split at h
    · next hp =>
        obtain ⟨hmem, hid⟩ := Table.get?_some hget
        obtain ⟨hfree, hs'⟩ := Sessions.writeFree_some h
        exact .inl ⟨row, hmem, hid, hp, hfree, hs'⟩
    · next hp =>
        refine .inr ⟨(Option.some.inj h).symm, fun row' hrow' => ?_⟩
        rw [← Option.some.inj hrow']
        simpa using hp

/-- A request without images sees the committed rows. -/
theorem view_of_images_nil (h : s.store.images t = []) : s.view t = s.store.committed :=
  Sessions.rows_of_images_nil h

theorem Inv.quiet (h : Inv zeroVector s) {p : Phase} (hphase : s.phase t = p)
    (hquiet : ∀ images, Holds zeroVector s.store.committed p images → images = []) :
    s.store.images t = [] := by
  have hholds := h.wrote t
  rw [hphase] at hholds
  exact hquiet _ hholds

theorem Inv.stop (h : Inv zeroVector s) : Inv zeroVector (s.rollback t .finished) :=
  h.rollback rfl

/-- An `UPDATE` as the only write of its request. -/
theorem Inv.edit (h : Inv zeroVector s) (hempty : s.store.images t = []) {row w : AgentMemory ε}
    (hrow : row ∈ s.view t) (hfree : s.store.free AgentMemory.id t w.id = true)
    (hedit : Edits zeroVector row w) : Inv zeroVector (s.write t w .written) := by
  rw [view_of_images_nil hempty] at hrow
  refine h.write hfree ?_
  rw [hempty]
  exact .edit row w hrow hedit

theorem Inv.insert (h : Inv zeroVector s) (hempty : s.store.images t = []) {data : MemoryCreate}
    {row : AgentMemory ε} (hactive : row.status = .active)
    (hnames : row.supersedesMemoryId = data.supersedesMemoryId)
    (hinsert : s.insert t row (afterInsert data) = some s') : Inv zeroVector s' := by
  unfold St.insert at hinsert
  split at hinsert
  · obtain rfl := Option.some.inj hinsert
    exact h.stop
  · next hkeys =>
      obtain ⟨hfree, rfl⟩ := Sessions.writeFree_some hinsert
      have hview := view_of_images_nil hempty
      have hfresh : ∀ other ∈ s.store.committed, other.id ≠ row.id := by
        intro other hother hid
        apply hkeys
        left
        unfold St.has
        rw [hview]
        exact List.any_eq_true.mpr ⟨other, hother, decide_eq_true hid⟩
      have hnew : New s.store.committed row := ⟨hfresh, hactive⟩
      refine h.write hfree ?_
      rw [hempty, List.nil_append]
      unfold afterInsert
      cases hsupersedes : data.supersedesMemoryId with
      | none => exact .insert row hnew (hnames.trans hsupersedes)
      | some memoryId =>
        have htarget := hnames.trans hsupersedes
        refine ⟨row, rfl, hnew, htarget, ?_⟩
        -- the row that is named is there, so its id is not the new one
        intro hsame
        apply hkeys
        right
        refine ⟨memoryId, htarget, ?_⟩
        unfold St.has
        rw [hview]
        apply List.any_eq_false.mpr
        intro other hother hid
        exact hfresh other hother ((of_decide_eq_true hid).trans hsame.symm)

/-- The replaced memory is still active, so the mark is put on it. -/
theorem Inv.mark (h : Inv zeroVector s) {memoryId : Uuid} {now : Instant} {missed : St ε}
    (hphase : s.phase t = .inserted memoryId) (hclear : Clear (s.view t) (s.phase t))
    (hupdate : s.update t memoryId (fun row => row.status = .active) (Repository.superseded now)
      .written missed = some s') : Inv zeroVector s' := by
  have hholds := h.wrote t
  rw [hphase] at hholds hclear
  obtain ⟨y, himages, hy, hnames, hne⟩ := hholds
  have hview : s.view t = Table.upsert AgentMemory.id s.store.committed y := by
    show (s.store.images t).foldl (Table.upsert AgentMemory.id) s.store.committed = _
    rw [himages]
    rfl
  rcases update_cases hupdate with ⟨row, hrow, rfl, hactive, hfree, rfl⟩ | ⟨-, hmissed⟩
  · have hcommitted : row ∈ s.store.committed := by
      rw [hview] at hrow
      rcases Table.mem_upsert.mp hrow with rfl | ⟨hold, -⟩
      · exact absurd rfl hne
      · exact hold
    refine h.write hfree ?_
    rw [himages]
    have hedit : Edits zeroVector row (Repository.superseded now row) :=
      ⟨rfl, rfl, (fun hstatus => nomatch hstatus), (fun hstatus => nomatch hstatus)⟩
    exact .replace y row _ hy hcommitted hnames (of_decide_eq_true hactive) hedit nofun
  · exfalso
    obtain ⟨row, hrow, rfl, hactive⟩ := hclear
    have hget := Table.get?_of_mem (h.rows_unique t) hrow
    have hfalse := hmissed row hget
    rw [hactive] at hfalse
    cases hfalse

theorem Inv.check (h : Inv zeroVector s) {request : Request} (hempty : s.store.images t = []) :
    Inv zeroVector (check s t request) := by
  cases request with
  | create actor data =>
    unfold LifecycleRace.check
    dsimp only
    split
    · exact h.goto hempty
    · exact h.stop
  | update actor memoryId data =>
    unfold LifecycleRace.check
    dsimp only
    split
    · exact h.goto hempty
    · exact h.stop
  | delete actor memoryId =>
    unfold LifecycleRace.check
    dsimp only
    split
    · exact h.goto hempty
    · exact h.stop

/-- One case for each phase. -/
theorem Inv.advance (h : Inv engine.zeroVector s) {draw : Draw}
    (hclear : Clear (s.view t) (s.phase t)) (hstep : advance engine s t draw = some s') :
    Inv engine.zeroVector s' := by
  unfold LifecycleRace.advance at hstep
  cases hphase : s.phase t with
  | idle | finished =>
    rw [hphase] at hstep
    cases hstep
  | started request =>
    have hempty := h.quiet hphase fun _ hholds => hholds
    rw [hphase] at hstep
    obtain rfl := Option.some.inj hstep
    exact h.check hempty
  | creating actor ownerUserId data =>
    have hempty := h.quiet hphase fun _ hholds => hholds
    rw [hphase] at hstep
    dsimp only at hstep
    split at hstep
    · obtain rfl := Option.some.inj hstep
      exact h.stop
    · exact h.insert hempty rfl rfl hstep
  | inserted memoryId =>
    rw [hphase] at hstep
    exact h.mark hphase hclear hstep
  | updating memoryId data =>
    have hempty := h.quiet hphase fun _ hholds => hholds
    rw [hphase] at hstep hclear
    dsimp only at hstep
    split at hstep
    · obtain rfl := Option.some.inj hstep
      exact h.stop
    · rcases update_cases hstep with ⟨row, hrow, rfl, -, hfree, rfl⟩ | ⟨rfl, -⟩
      · refine h.edit hempty hrow hfree ⟨rfl, rfl, id, ?_⟩
        intro hdeleted
        exact absurd hdeleted (hclear row hrow rfl)
      · exact h.stop
  | deleting memoryId =>
    have hempty := h.quiet hphase fun _ hholds => hholds
    rw [hphase] at hstep
    rcases update_cases hstep with ⟨row, hrow, rfl, -, hfree, rfl⟩ | ⟨rfl, -⟩
    · exact h.edit hempty hrow hfree ⟨rfl, rfl, nofun, fun _ => ⟨rfl, rfl⟩⟩
    · refine h.goto ?_
      rw [hempty]
      exact .nothing
  | written =>
    have hwrote := h.wrote t
    rw [hphase] at hstep hwrote
    obtain rfl := Option.some.inj hstep
    exact h.commit (holds_local _) (Wrote.sound hwrote h.committed h.unique) rfl

theorem Inv.step {a : Label} (h : Inv engine.zeroVector s) (hok : Uncontested s a)
    (hstep : LifecycleRace.step engine s a = some s') : Inv engine.zeroVector s' := by
  cases a with
  | start t request =>
    unfold LifecycleRace.step at hstep
    dsimp only at hstep
    split at hstep
    · next hidle =>
        have hempty := h.quiet hidle fun _ hholds => hholds
        obtain rfl := Option.some.inj hstep
        exact h.goto hempty
    · cases hstep
  | advance t draw => exact h.advance hok hstep
  | abort t =>
    obtain rfl := Option.some.inj hstep
    exact h.stop

theorem Inv.init {rows : List (AgentMemory ε)} (hunique : Table.KeyUnique AgentMemory.id rows)
    (h : Sound zeroVector rows) : Inv zeroVector (init rows) where
  exclusive _ hp := nomatch hp
  unique := hunique
  committed := h
  wrote _ := rfl

theorem update_committed {memoryId : Uuid} {p : AgentMemory ε → Bool}
    {f : AgentMemory ε → AgentMemory ε} {next : Phase} {missed : St ε}
    (h : s.update t memoryId p f next missed = some s')
    (hmissed : missed.store.committed = s.store.committed) :
    s'.store.committed = s.store.committed := by
  rcases update_cases h with ⟨row, -, -, -, -, rfl⟩ | ⟨rfl, -⟩
  · rfl
  · exact hmissed

theorem insert_committed {row : AgentMemory ε} {next : Phase}
    (h : s.insert t row next = some s') : s'.store.committed = s.store.committed := by
  unfold St.insert at h
  split at h
  · obtain rfl := Option.some.inj h
    rfl
  · obtain ⟨-, rfl⟩ := Sessions.writeFree_some h
    rfl

theorem check_committed (request : Request) :
    (check s t request).store.committed = s.store.committed := by
  cases request <;> unfold LifecycleRace.check <;> dsimp only <;> split <;> rfl

/-- Only a commit changes the committed rows. -/
theorem step_committed {a : Label} (hstep : LifecycleRace.step engine s a = some s') :
    s'.store.committed = s.store.committed ∨
      ∃ t, s.phase t = .written ∧ s' = s.commit AgentMemory.id t .finished := by
  cases a with
  | start t request =>
    left
    unfold LifecycleRace.step at hstep
    dsimp only at hstep
    split at hstep
    · obtain rfl := Option.some.inj hstep
      rfl
    · cases hstep
  | abort t =>
    obtain rfl := Option.some.inj hstep
    exact .inl rfl
  | advance t draw =>
    unfold LifecycleRace.step LifecycleRace.advance at hstep
    dsimp only at hstep
    split at hstep
    · cases hstep
    · cases hstep
    · next request _ =>
        obtain rfl := Option.some.inj hstep
        exact .inl (check_committed request)
    · split at hstep
      · obtain rfl := Option.some.inj hstep
        exact .inl rfl
      · exact .inl (insert_committed hstep)
    · exact .inl (update_committed hstep rfl)
    · split at hstep
      · obtain rfl := Option.some.inj hstep
        exact .inl rfl
      · exact .inl (update_committed hstep rfl)
    · exact .inl (update_committed hstep rfl)
    · next hphase => exact .inr ⟨t, hphase, (Option.some.inj hstep).symm⟩

theorem Inv.forward {a : Label} (h : Inv engine.zeroVector s)
    (hstep : LifecycleRace.step engine s a = some s') :
    Forward s.store.committed s'.store.committed := by
  rcases step_committed hstep with hsame | ⟨t, hphase, rfl⟩
  · rw [hsame]
    exact .refl _
  · have hwrote := h.wrote t
    rw [hphase] at hwrote
    exact Wrote.forward hwrote h.unique

end Step

/-- As long as every writer finds what it has checked: tombstones stay empty, at
most one active memory names a given one, and no status goes back to active. -/
theorem memories_lifecycle (engine : Engine ε ω) {rows : List (AgentMemory ε)}
    (hunique : Table.KeyUnique AgentMemory.id rows) (hrows : Sound engine.zeroVector rows)
    {s : St ε} (h : Run (step engine) Uncontested (init rows) s) :
    (∀ row ∈ s.store.committed, row.status = .deleted →
        row.content = "" ∧ row.embedding = engine.zeroVector) ∧
      (∀ row ∈ s.store.committed, ∀ row' ∈ s.store.committed,
        row.status = .active → row'.status = .active → ∀ memoryId,
        row.supersedesMemoryId = some memoryId → row'.supersedesMemoryId = some memoryId →
        row = row') ∧
      ∀ s', Run (step engine) Uncontested s s' →
        ∀ row ∈ s.store.committed, row.status ≠ .active →
        ∀ row' ∈ s'.store.committed, row'.id = row.id → row'.status ≠ .active := by
  have hkeep : ∀ s a s', Inv engine.zeroVector s → Uncontested s a → step engine s a = some s' →
      Inv engine.zeroVector s' := fun _ _ _ hi hok hstep => hi.step hok hstep
  have hinv : Inv engine.zeroVector s := h.invariant hkeep (Inv.init hunique hrows)
  refine ⟨hinv.committed.erased, hinv.committed.single, ?_⟩
  intro s' h' row hrow hstatus row' hrow' hid
  have hinv' : Inv engine.zeroVector s' := h'.invariant hkeep hinv
  have hforward : Forward s.store.committed s'.store.committed :=
    Run.relation (R := fun s s' => Forward s.store.committed s'.store.committed) hkeep
      (fun s => .refl _) (fun _ _ _ => .trans) (fun _ _ _ hi _ hstep => hi.forward hstep) h' hinv
  obtain ⟨row'', hrow'', hid'', hstatus''⟩ := hforward row hrow
  rw [hinv'.unique row' hrow' row'' hrow'' (hid.trans hid''.symm)]
  exact hstatus'' hstatus

/-! ## An update that waits for its embedding while the memory is deleted -/

/-- A text is embedded as its length. -/
def lengthEngine : Engine Nat Nat where
  embedQuery text := .ok text.length
  zeroVector := 0
  cosineDistance v w := v - w + (w - v)
  le a b := a ≤ b
  relevance d := 1 - d
  lt a b := a < b

def owner : Identity where
  kind := .user
  subject := "1"
  organizationId := 1
  userId := some 1

def note : AgentMemory Nat where
  id := 5
  organizationId := 1
  scope := .user
  ownerUserId := some 1
  memoryType := .fact
  content := "rotate"
  embedding := 6
  createdBy := "user:1"
  createdAt := 3
  updatedAt := 3

def correction : MemoryUpdate where
  content := "rotate daily"
  contentLength := by decide
  contentIsNotOnlyWhitespace := by decide

theorem note_sound : Sound lengthEngine.zeroVector [note] where
  erased row hrow hdeleted := by
    rw [List.mem_singleton.mp hrow] at hdeleted
    cases hdeleted
  named row hrow memoryId hnames := by
    rw [List.mem_singleton.mp hrow] at hnames
    cases hnames
  retired row hrow _ memoryId hnames := by
    rw [List.mem_singleton.mp hrow] at hnames
    cases hnames
  single row hrow row' hrow' _ _ _ _ _ := by
    rw [List.mem_singleton.mp hrow, List.mem_singleton.mp hrow']

theorem note_unique : Table.KeyUnique AgentMemory.id [note] := by
  intro row hrow row' hrow' _
  rw [List.mem_singleton.mp hrow, List.mem_singleton.mp hrow']

def draw : Draw := { memoryId := 9, now := 7 }

/-- Request `t` deletes the note, without interruption. -/
def deleteSteps (t : Rid) : List Label :=
  .start t (.delete owner 5) :: List.replicate 3 (.advance t draw)

/-- The update and the deletion have passed their checks, and the update is committed first. -/
def inTurn : List Label :=
  [.start 0 (.update owner 5 correction), .start 1 (.delete owner 5), .advance 0 draw, .advance 1 draw,
    .advance 0 draw, .advance 0 draw, .advance 1 draw, .advance 1 draw]

theorem memories_lifecycle_deleted :
    ∃ s, execWithin (step lengthEngine) Uncontested (init [note]) inTurn = some s ∧
      s.store.committed = [Repository.tombstone 0 7
        (Repository.withContent 7 "rotate daily" 12 none note)] ∧
      ∀ row ∈ s.store.committed, row.status = .deleted → row.content = "" ∧ row.embedding = 0 := by
  obtain ⟨s, hexec, hcommitted⟩ : ∃ s,
      execWithin (step lengthEngine) Uncontested (init [note]) inTurn = some s ∧
        s.store.committed = [Repository.tombstone 0 7
          (Repository.withContent 7 "rotate daily" 12 none note)] := ⟨_, rfl, rfl⟩
  exact ⟨s, hexec, hcommitted,
    (memories_lifecycle lengthEngine note_unique note_sound (run_of_execWithin hexec)).1⟩

/-- The update has passed its check when the deletion starts, and writes after it. -/
def overtaking : List Label :=
  [.start 0 (.update owner 5 correction), .advance 0 draw] ++ deleteSteps 1 ++
    List.replicate 2 (.advance 0 draw)

theorem content_comes_back :
    ¬ ∀ (rows : List (AgentMemory Nat)) (s : St Nat), Table.KeyUnique AgentMemory.id rows →
      Sound lengthEngine.zeroVector rows → Run (step lengthEngine) anyStep (init rows) s →
      ∀ row ∈ s.store.committed, row.status = .deleted →
        row.content = "" ∧ row.embedding = lengthEngine.zeroVector := by
  intro hclaim
  obtain ⟨s, hexec, hcommitted⟩ : ∃ s,
      exec (step lengthEngine) (init [note]) overtaking = some s ∧
        s.store.committed = [Repository.withContent 7 "rotate daily" 12 none
          (Repository.tombstone 0 7 note)] := ⟨_, rfl, rfl⟩
  have herased := hclaim [note] s note_unique note_sound (run_of_exec hexec)
  rw [hcommitted] at herased
  have hcontent := (herased _ (List.mem_singleton_self _) rfl).1
  exact absurd hcontent (by decide)

end Ekip.Core.Memory.LifecycleRace
