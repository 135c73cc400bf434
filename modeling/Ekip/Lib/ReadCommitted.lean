import Ekip.Lib.Table
import Mathlib.Logic.Basic

/-!
# Transactions under read-committed isolation

Rows of any type `ρ` under keys of type `κ`; transactions are named by `τ`. A
statement reads the rows committed when it starts, overlaid with what its own
transaction wrote. An uncommitted row image holds the write lock on its key:
another transaction that wants to write under that key waits, which here means
that its step is not enabled. There are no read locks and no version checks.
-/
namespace Ekip.Lib.ReadCommitted

open Ekip.Lib.Table

structure Store (τ ρ : Type) where
  committed : List ρ
  /-- Uncommitted row images, oldest first. -/
  pending : List (τ × ρ) := []

namespace Store

variable {τ ρ κ : Type} {key : ρ → κ} {s : Store τ ρ} {t t' : τ}

/-- Distinct transactions never hold uncommitted images under one key. -/
def Exclusive (key : ρ → κ) (s : Store τ ρ) : Prop :=
  ∀ p ∈ s.pending, ∀ q ∈ s.pending, key p.2 = key q.2 → p.1 = q.1

def write (s : Store τ ρ) (t : τ) (r : ρ) : Store τ ρ :=
  { s with pending := s.pending ++ [(t, r)] }

@[simp] theorem write_committed (s : Store τ ρ) (t : τ) (r : ρ) :
    (s.write t r).committed = s.committed := rfl

variable [DecidableEq τ]

/-- What `t` has written and not yet committed. -/
def images (s : Store τ ρ) (t : τ) : List ρ :=
  (s.pending.filter fun p => p.1 = t).map (·.2)

def rollback (s : Store τ ρ) (t : τ) : Store τ ρ :=
  { s with pending := s.pending.filter fun p => p.1 ≠ t }

@[simp] theorem rollback_committed (s : Store τ ρ) (t : τ) :
    (s.rollback t).committed = s.committed := rfl

@[simp] theorem mem_images {r : ρ} : r ∈ s.images t ↔ (t, r) ∈ s.pending := by
  simp [images]

@[simp] theorem images_write_self (r : ρ) : (s.write t r).images t = s.images t ++ [r] := by
  simp [images, write]

@[simp] theorem images_write_other (h : t' ≠ t) (r : ρ) :
    (s.write t r).images t' = s.images t' := by
  simp [images, write, Ne.symm h]

@[simp] theorem images_rollback_self : (s.rollback t).images t = [] := by
  simp [images, rollback, List.filter_filter]

@[simp] theorem images_rollback_other (h : t' ≠ t) : (s.rollback t).images t' = s.images t' := by
  simp only [images, rollback, List.filter_filter]
  congr 1
  apply List.filter_congr
  intro p _
  by_cases hp : p.1 = t' <;> simp [hp, h]

theorem Exclusive.rollback (h : s.Exclusive key) : (s.rollback t).Exclusive key := by
  intro p hp q hq
  exact h p (List.mem_filter.mp hp).1 q (List.mem_filter.mp hq).1

variable [DecidableEq κ] (key)

/-- What a statement of `t` sees. -/
def view (s : Store τ ρ) (t : τ) : List ρ := (s.images t).foldl (upsert key) s.committed

/-- No other transaction holds the write lock on `k`. -/
def free (s : Store τ ρ) (t : τ) (k : κ) : Bool :=
  s.pending.all fun p => p.1 = t ∨ key p.2 ≠ k

def commit (s : Store τ ρ) (t : τ) : Store τ ρ :=
  { committed := s.view key t, pending := s.pending.filter fun p => p.1 ≠ t }

variable {key}

@[simp] theorem commit_committed : (s.commit key t).committed = s.view key t := rfl

@[simp] theorem commit_pending : (s.commit key t).pending = (s.rollback t).pending := rfl

theorem free_iff {k : κ} :
    s.free key t k = true ↔ ∀ p ∈ s.pending, key p.2 = k → p.1 = t := by
  simp only [free, List.all_eq_true, decide_eq_true_eq]
  constructor
  · intro h p hp hk
    exact (h p hp).resolve_right (not_not_intro hk)
  · intro h p hp
    by_cases hk : key p.2 = k
    · exact .inl (h p hp hk)
    · exact .inr hk

theorem view_of_images_nil (h : s.images t = []) : s.view key t = s.committed := by
  simp [view, h]

theorem view_write_self (r : ρ) : (s.write t r).view key t = upsert key (s.view key t) r := by
  simp [view]

/-- Every row a transaction sees is committed or its own. -/
theorem mem_of_mem_view {r : ρ} (h : r ∈ s.view key t) : r ∈ s.committed ∨ r ∈ s.images t :=
  mem_of_mem_foldl_upsert h

/-- A row under a key that the transaction has not written is the committed one. -/
theorem mem_view_of_unwritten {r : ρ} (hr : ∀ w ∈ s.images t, key w ≠ key r) :
    r ∈ s.view key t ↔ r ∈ s.committed :=
  mem_foldl_upsert_of_unwritten hr

/-- A row under a key that the transaction has written is one of its images. -/
theorem mem_images_of_written {r w : ρ} (hr : r ∈ s.view key t) (hw : w ∈ s.images t)
    (hk : key w = key r) : r ∈ s.images t :=
  mem_of_foldl_upsert_written hr hw hk

/-- Writing never removes a key from what a transaction sees. -/
theorem view_covers {r : ρ} (h : r ∈ s.committed ∨ r ∈ s.images t) :
    ∃ r' ∈ s.view key t, key r' = key r :=
  foldl_upsert_covers h

/-- The only image under its key is what the transaction sees. -/
theorem mem_view_of_image {w : ρ} (hw : w ∈ s.images t)
    (honly : ∀ w' ∈ s.images t, key w' = key w → w' = w) : w ∈ s.view key t := by
  obtain ⟨r, hr, hk⟩ := (view_covers (.inr hw) : ∃ r ∈ s.view key t, key r = key w)
  have himage : r ∈ s.images t := mem_images_of_written hr hw hk.symm
  rw [← honly r himage hk]
  exact hr

theorem keyUnique_view (h : KeyUnique key s.committed) : KeyUnique key (s.view key t) :=
  keyUnique_foldl_upsert h _

/-- Taking a free lock keeps the locks exclusive. -/
theorem Exclusive.write (h : s.Exclusive key) {r : ρ} (hf : s.free key t (key r) = true) :
    (s.write t r).Exclusive key := by
  have hfree := free_iff.mp hf
  intro p hp q hq hk
  simp only [Store.write, List.mem_append, List.mem_singleton] at hp hq
  rcases hp with hp | rfl <;> rcases hq with hq | rfl
  · exact h p hp q hq hk
  · exact hfree p hp hk
  · exact (hfree q hq hk.symm).symm
  · rfl

theorem Exclusive.commit (h : s.Exclusive key) : (s.commit key t).Exclusive key := by
  intro p hp q hq
  exact h p (List.mem_filter.mp hp).1 q (List.mem_filter.mp hq).1

end Store

end Ekip.Lib.ReadCommitted

/-!
## One row under read-committed isolation

A transaction that updates the row holds its lock until it ends; another one that
wants to update it waits, which means that its step is not enabled. A statement
sees the committed row, or what its own transaction has made of it.
-/
namespace Ekip.Lib

structure LockedRow (τ ρ : Type) where
  committed : ρ
  /-- Who holds the lock, and the row as that transaction has left it. -/
  pending : Option (τ × ρ) := none

namespace LockedRow

variable {τ ρ : Type} (r : LockedRow τ ρ) (t : τ) (row : ρ)

def write : LockedRow τ ρ := { r with pending := some (t, row) }

variable [DecidableEq τ]

/-- What `t` itself has made of the row. -/
def image : Option ρ := r.pending.bind fun p => if p.1 = t then some p.2 else none

def view : ρ := (r.image t).getD r.committed

/-- No other transaction holds the lock. -/
def free : Bool := r.pending.all fun p => p.1 = t

def rollback : LockedRow τ ρ := { r with pending := r.pending.filter fun p => p.1 ≠ t }

def commit : LockedRow τ ρ := { r.rollback t with committed := r.view t }

variable {r} {t t' : τ} {row : ρ}

theorem image_eq_some : r.image t = some row ↔ r.pending = some (t, row) := by
  unfold image
  cases hpending : r.pending with
  | none => simp
  | some p =>
    obtain ⟨holder, image⟩ := p
    by_cases hholder : holder = t
    · simp [hholder]
    · simp [hholder]

theorem view_of_image (h : r.pending = some (t, row)) : r.view t = row := by
  unfold view
  rw [image_eq_some.mpr h]
  rfl

/-- A transaction that has not updated the row sees the committed one. -/
theorem view_of_no_image (h : ∀ row, r.pending ≠ some (t, row)) : r.view t = r.committed := by
  unfold view
  cases himage : r.image t with
  | none => rfl
  | some row => exact absurd (image_eq_some.mp himage) (h row)

theorem view_write : (r.write t row).view t = row := view_of_image rfl

theorem free_iff : r.free t = true ↔ ∀ holder row, r.pending = some (holder, row) → holder = t := by
  unfold free
  cases hpending : r.pending with
  | none => simp
  | some p =>
    obtain ⟨holder, image⟩ := p
    simp

theorem rollback_pending (h : (r.rollback t).pending = some (t', row)) :
    r.pending = some (t', row) ∧ t' ≠ t := by
  obtain ⟨hpending, hother⟩ := Option.filter_eq_some_iff.mp h
  exact ⟨hpending, by simpa using hother⟩

theorem pending_rollback (h : r.pending = some (t', row)) (hne : t' ≠ t) :
    (r.rollback t).pending = some (t', row) := by
  unfold rollback
  simp [h, hne]

/-- The transaction that may write is the only one that can have written. -/
theorem pending_of_free (hfree : r.free t = true) (hnone : ∀ row, r.pending ≠ some (t, row)) :
    r.pending = none := by
  cases hpending : r.pending with
  | none => rfl
  | some p =>
    obtain rfl := free_iff.mp hfree p.1 p.2 hpending
    exact absurd hpending (hnone p.2)

end LockedRow

end Ekip.Lib
