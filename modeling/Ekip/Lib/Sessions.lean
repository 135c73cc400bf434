import Ekip.Lib.ReadCommitted
import Ekip.Lib.Run

/-!
# Parties that each work in a transaction of their own

A party has a program counter and reads and writes a read-committed store. Where
every writer first takes one and the same lock, only one party at a time has
uncommitted rows, and `Solo` reduces an invariant of the committed rows to what
the writer sees of them. Where each row has its own lock, `Owned` relates what a
party has written to the rows under the keys that it holds.
-/
namespace Ekip.Lib

open ReadCommitted Table

structure Sessions (τ ρ φ : Type) where
  store : Store τ ρ
  phase : τ → φ

namespace Sessions

variable {τ ρ φ κ : Type} [DecidableEq τ]

def goto (s : Sessions τ ρ φ) (t : τ) (p : φ) : Sessions τ ρ φ :=
  { s with phase := Function.update s.phase t p }

def write (s : Sessions τ ρ φ) (t : τ) (r : ρ) (p : φ) : Sessions τ ρ φ :=
  { store := s.store.write t r, phase := Function.update s.phase t p }

def rollback (s : Sessions τ ρ φ) (t : τ) (p : φ) : Sessions τ ρ φ :=
  { store := s.store.rollback t, phase := Function.update s.phase t p }

variable [DecidableEq κ] (key : ρ → κ)

/-- What a statement of `t` reads. -/
def rows (s : Sessions τ ρ φ) (t : τ) : List ρ := s.store.view key t

def commit (s : Sessions τ ρ φ) (t : τ) (p : φ) : Sessions τ ρ φ :=
  { store := s.store.commit key t, phase := Function.update s.phase t p }

/-- A row image is written once its key is free. -/
def writeFree (s : Sessions τ ρ φ) (t : τ) (r : ρ) (p : φ) : Option (Sessions τ ρ φ) :=
  if s.store.free key t (key r) then some (s.write t r p) else none

variable {key} {s s' : Sessions τ ρ φ} {t : τ} {p : φ} {r : ρ}

theorem writeFree_some (h : s.writeFree key t r p = some s') :
    s.store.free key t (key r) = true ∧ s' = s.write t r p := by
  unfold writeFree at h
  split at h
  case isFalse => cases h
  case isTrue hfree => exact ⟨hfree, (Option.some.inj h).symm⟩

@[simp] theorem rows_write_self : (s.write t r p).rows key t = upsert key (s.rows key t) r :=
  Store.view_write_self r

theorem rows_of_images_nil (h : s.store.images t = []) : s.rows key t = s.store.committed :=
  Store.view_of_images_nil h

theorem rows_write_of_ne {t' : τ} (hne : t' ≠ t) : (s.write t r p).rows key t' = s.rows key t' := by
  show ((s.store.write t r).images t').foldl (upsert key) s.store.committed = s.rows key t'
  rw [Store.images_write_other hne]
  rfl

theorem rows_rollback_of_ne {t' : τ} (hne : t' ≠ t) : (s.rollback t p).rows key t' = s.rows key t' := by
  show ((s.store.rollback t).images t').foldl (upsert key) s.store.committed = s.rows key t'
  rw [Store.images_rollback_other hne]
  rfl

/-! ## One lock for all writers -/

/-- `quiet` phases come before the first write and after the end. A writer holds
the lock on `k` and sees rows that fit its phase; the committed rows satisfy `I`. -/
structure Solo (key : ρ → κ) (k : κ) (quiet : φ → Bool) (I : List ρ → Prop)
    (V : List ρ → φ → Prop) (s : Sessions τ ρ φ) : Prop where
  exclusive : s.store.Exclusive key
  idle : ∀ t, quiet (s.phase t) = true → s.store.images t = []
  guarded : ∀ t, quiet (s.phase t) = false → ∃ w ∈ s.store.images t, key w = k
  committed : I s.store.committed
  sees : ∀ t, quiet (s.phase t) = false → V (s.rows key t) (s.phase t)

namespace Solo

variable {k : κ} {quiet : φ → Bool} {I : List ρ → Prop} {V : List ρ → φ → Prop}
  (h : Solo key k quiet I V s)

include h

/-- While a party writes, no other does. -/
theorem alone {t' : τ} (ht : quiet (s.phase t) = false) (hne : t' ≠ t) :
    quiet (s.phase t') = true := by
  by_contra hquiet
  obtain ⟨w, hw, hk⟩ := h.guarded t ht
  obtain ⟨w', hw', hk'⟩ := h.guarded t' (by simpa using hquiet)
  exact hne (h.exclusive _ (Store.mem_images.mp hw') _ (Store.mem_images.mp hw) (hk'.trans hk.symm))

theorem goto (hquiet : quiet p = quiet (s.phase t))
    (hsees : quiet p = false → V (s.rows key t) p) : Solo key k quiet I V (s.goto t p) where
  exclusive := h.exclusive
  idle t' ht' := by
    rcases of_update ht' (P := fun q => quiet q = true) with ⟨rfl, hp⟩ | ⟨-, hold⟩
    · exact h.idle t' (hquiet.symm.trans hp)
    · exact h.idle t' hold
  guarded t' ht' := by
    rcases of_update ht' (P := fun q => quiet q = false) with ⟨rfl, hp⟩ | ⟨-, hold⟩
    · exact h.guarded t' (hquiet.symm.trans hp)
    · exact h.guarded t' hold
  committed := h.committed
  sees t' ht' := by
    by_cases ht : t' = t
    · subst ht
      have hphase : (s.goto t' p).phase t' = p := Function.update_self ..
      rw [hphase] at ht' ⊢
      exact hsees ht'
    · have hphase : (s.goto t p).phase t' = s.phase t' := Function.update_of_ne ht ..
      rw [hphase] at ht' ⊢
      exact h.sees t' ht'

theorem write (hfree : s.store.free key t (key r) = true)
    (hguard : quiet (s.phase t) = true → key r = k) (hquiet : quiet p = false)
    (hsees : V (upsert key (s.rows key t) r) p) : Solo key k quiet I V (s.write t r p) where
  exclusive := h.exclusive.write hfree
  idle t' ht' := by
    rcases of_update ht' (P := fun q => quiet q = true) with ⟨-, hp⟩ | ⟨hne, hold⟩
    · rw [hquiet] at hp
      cases hp
    · exact (Store.images_write_other hne r).trans (h.idle t' hold)
  guarded t' ht' := by
    rcases of_update ht' (P := fun q => quiet q = false) with ⟨rfl, -⟩ | ⟨hne, hold⟩
    · show ∃ w ∈ (s.store.write t' r).images t', key w = k
      rw [Store.images_write_self]
      by_cases hbefore : quiet (s.phase t') = true
      · exact ⟨r, List.mem_append_right _ (List.mem_singleton_self r), hguard hbefore⟩
      · obtain ⟨w, hw, hk⟩ := h.guarded t' (by simpa using hbefore)
        exact ⟨w, List.mem_append_left _ hw, hk⟩
    · show ∃ w ∈ (s.store.write t r).images t', key w = k
      rw [Store.images_write_other hne]
      exact h.guarded t' hold
  committed := h.committed
  sees t' ht' := by
    by_cases ht : t' = t
    · subst ht
      have hphase : (s.write t' r p).phase t' = p := Function.update_self ..
      rw [hphase, rows_write_self]
      exact hsees
    · have hphase : (s.write t r p).phase t' = s.phase t' := Function.update_of_ne ht ..
      rw [hphase] at ht' ⊢
      rw [rows_write_of_ne ht]
      exact h.sees t' ht'

theorem rollback (hquiet : quiet p = true) : Solo key k quiet I V (s.rollback t p) where
  exclusive := h.exclusive.rollback
  idle t' ht' := by
    rcases of_update ht' (P := fun q => quiet q = true) with ⟨rfl, -⟩ | ⟨hne, hold⟩
    · exact Store.images_rollback_self
    · exact (Store.images_rollback_other hne).trans (h.idle t' hold)
  guarded t' ht' := by
    rcases of_update ht' (P := fun q => quiet q = false) with ⟨-, hp⟩ | ⟨hne, hold⟩
    · rw [hquiet] at hp
      cases hp
    · show ∃ w ∈ (s.store.rollback t).images t', key w = k
      rw [Store.images_rollback_other hne]
      exact h.guarded t' hold
  committed := h.committed
  sees t' ht' := by
    by_cases ht : t' = t
    · subst ht
      have hphase : (s.rollback t' p).phase t' = p := Function.update_self ..
      rw [hphase, hquiet] at ht'
      cases ht'
    · have hphase : (s.rollback t p).phase t' = s.phase t' := Function.update_of_ne ht ..
      rw [hphase] at ht' ⊢
      rw [rows_rollback_of_ne ht]
      exact h.sees t' ht'

/-- The writer's view becomes the committed rows; nobody else is writing. -/
theorem commit (hquiet : quiet p = true) (hcommitted : I (s.rows key t)) :
    Solo key k quiet I V (s.commit key t p) where
  exclusive := h.exclusive.commit
  idle := (h.rollback hquiet (t := t)).idle
  guarded := (h.rollback hquiet (t := t)).guarded
  committed := hcommitted
  sees t' ht' := by
    by_cases ht : t' = t
    · subst ht
      have hphase : (s.commit key t' p).phase t' = p := Function.update_self ..
      rw [hphase, hquiet] at ht'
      cases ht'
    · have hphase : (s.commit key t p).phase t' = s.phase t' := Function.update_of_ne ht ..
      rw [hphase] at ht' ⊢
      have hunwritten : s.store.images t = [] := h.idle t (h.alone ht' (Ne.symm ht))
      have hsame : (s.commit key t p).rows key t' = s.rows key t' := by
        show ((s.store.rollback t).images t').foldl (upsert key) (s.rows key t) = s.rows key t'
        rw [Store.images_rollback_other ht, rows_of_images_nil hunwritten]
        rfl
      rw [hsame]
      exact h.sees t' ht'

end Solo

/-! ## A lock for each row -/

/-- `W` looks at the committed rows only under the keys of the images. -/
def Local (key : ρ → κ) (W : List ρ → φ → List ρ → Prop) : Prop :=
  ∀ c c' p images, (∀ w ∈ images, ∀ r, key r = key w → (r ∈ c ↔ r ∈ c')) → W c p images →
    W c' p images

structure Owned (key : ρ → κ) (I : List ρ → Prop) (W : List ρ → φ → List ρ → Prop)
    (s : Sessions τ ρ φ) : Prop where
  exclusive : s.store.Exclusive key
  unique : KeyUnique key s.store.committed
  committed : I s.store.committed
  wrote : ∀ t, W s.store.committed (s.phase t) (s.store.images t)

namespace Owned

variable {I : List ρ → Prop} {W : List ρ → φ → List ρ → Prop} (h : Owned key I W s)

include h

theorem rows_unique (t : τ) : KeyUnique key (s.rows key t) := Store.keyUnique_view h.unique

omit [DecidableEq κ] in
theorem goto (hwrote : W s.store.committed p (s.store.images t)) : Owned key I W (s.goto t p) where
  exclusive := h.exclusive
  unique := h.unique
  committed := h.committed
  wrote t' := by
    by_cases ht : t' = t
    · subst ht
      have hphase : (s.goto t' p).phase t' = p := Function.update_self ..
      rw [hphase]
      exact hwrote
    · have hphase : (s.goto t p).phase t' = s.phase t' := Function.update_of_ne ht ..
      rw [hphase]
      exact h.wrote t'

theorem write (hfree : s.store.free key t (key r) = true)
    (hwrote : W s.store.committed p (s.store.images t ++ [r])) :
    Owned key I W (s.write t r p) where
  exclusive := h.exclusive.write hfree
  unique := h.unique
  committed := h.committed
  wrote t' := by
    by_cases ht : t' = t
    · subst ht
      have hphase : (s.write t' r p).phase t' = p := Function.update_self ..
      have himages : (s.write t' r p).store.images t' = s.store.images t' ++ [r] :=
        Store.images_write_self r
      rw [hphase, himages]
      exact hwrote
    · have hphase : (s.write t r p).phase t' = s.phase t' := Function.update_of_ne ht ..
      have himages : (s.write t r p).store.images t' = s.store.images t' :=
        Store.images_write_other ht r
      rw [hphase, himages]
      exact h.wrote t'

omit [DecidableEq κ] in
theorem rollback (hwrote : W s.store.committed p []) : Owned key I W (s.rollback t p) where
  exclusive := h.exclusive.rollback
  unique := h.unique
  committed := h.committed
  wrote t' := by
    by_cases ht : t' = t
    · subst ht
      have hphase : (s.rollback t' p).phase t' = p := Function.update_self ..
      have himages : (s.rollback t' p).store.images t' = [] := Store.images_rollback_self
      rw [hphase, himages]
      exact hwrote
    · have hphase : (s.rollback t p).phase t' = s.phase t' := Function.update_of_ne ht ..
      have himages : (s.rollback t p).store.images t' = s.store.images t' :=
        Store.images_rollback_other ht
      rw [hphase, himages]
      exact h.wrote t'

/-- Under a key that another party holds, a commit changes nothing. -/
theorem mem_rows_of_locked {t' : τ} (hne : t' ≠ t) {w : ρ} (hw : w ∈ s.store.images t')
    (hk : key r = key w) : r ∈ s.store.committed ↔ r ∈ s.rows key t := by
  refine (Store.mem_view_of_unwritten ?_).symm
  intro other hother hsame
  exact hne (h.exclusive _ (Store.mem_images.mp hw) _ (Store.mem_images.mp hother)
    (hk.symm.trans hsame.symm))

theorem commit (hlocal : Local key W) (hcommitted : I (s.rows key t))
    (hwrote : W (s.rows key t) p []) : Owned key I W (s.commit key t p) where
  exclusive := h.exclusive.commit
  unique := h.rows_unique t
  committed := hcommitted
  wrote t' := by
    by_cases ht : t' = t
    · subst ht
      have hphase : (s.commit key t' p).phase t' = p := Function.update_self ..
      have himages : (s.commit key t' p).store.images t' = [] := Store.images_rollback_self
      rw [hphase, himages]
      exact hwrote
    · have hphase : (s.commit key t p).phase t' = s.phase t' := Function.update_of_ne ht ..
      have himages : (s.commit key t p).store.images t' = s.store.images t' :=
        Store.images_rollback_other ht
      rw [hphase, himages]
      exact hlocal _ _ _ _ (fun w hw r hk => h.mem_rows_of_locked ht hw hk) (h.wrote t')

end Owned

end Sessions

end Ekip.Lib
