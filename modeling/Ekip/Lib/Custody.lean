import Mathlib.Data.List.Nodup

/-!
# Tickets that are passed on and spent once

A ticket is issued to a holder, passed from one holder to the next, lost or
spent. While it always has one holder at most, and is spent only by the one who
holds it, it is spent at most once. What a holder is, and what a step of the
system does, is left to the system that is described.
-/
namespace Ekip.Lib.Custody

variable {τ η : Type}

/-- Who holds which ticket, and what has been issued and spent so far. -/
structure Ledger (τ η : Type) where
  holds : τ → η → Prop
  issued : List τ
  spent : List τ

structure Sound (l : Ledger τ η) : Prop where
  exclusive : ∀ x h h', l.holds x h → l.holds x h' → h = h'
  held : ∀ x h, l.holds x h → x ∈ l.issued ∧ x ∉ l.spent
  issuedOnce : l.issued.Nodup
  spentOnce : l.spent.Nodup
  spentIssued : ∀ x ∈ l.spent, x ∈ l.issued

/-- What a step may do with the tickets. Any step may lose some. -/
inductive Step (l l' : Ledger τ η) : Prop
  | keep (hissued : l'.issued = l.issued) (hspent : l'.spent = l.spent)
      (hholds : ∀ x h, l'.holds x h → l.holds x h)
  | issue (x : τ) (h : η) (hnew : x ∉ l.issued) (hissued : l'.issued = l.issued ++ [x])
      (hspent : l'.spent = l.spent)
      (hholds : ∀ y k, l'.holds y k → l.holds y k ∨ (y = x ∧ k = h))
  | pass (x : τ) (h h' : η) (hheld : l.holds x h) (hissued : l'.issued = l.issued)
      (hspent : l'.spent = l.spent)
      (hholds : ∀ y k, l'.holds y k → (y ≠ x ∧ l.holds y k) ∨ (y = x ∧ k = h'))
  | spend (x : τ) (h : η) (hheld : l.holds x h) (hissued : l'.issued = l.issued)
      (hspent : l'.spent = l.spent ++ [x])
      (hholds : ∀ y k, l'.holds y k → y ≠ x ∧ l.holds y k)

/-- Nothing is issued yet and nobody holds anything. -/
theorem sound_empty {l : Ledger τ η} (hissued : l.issued = []) (hspent : l.spent = [])
    (hholds : ∀ x h, ¬ l.holds x h) : Sound l where
  exclusive := fun x h _ hx _ => absurd hx (hholds x h)
  held := fun x h hx => absurd hx (hholds x h)
  issuedOnce := hissued ▸ List.nodup_nil
  spentOnce := hspent ▸ List.nodup_nil
  spentIssued := fun x hx => by rw [hspent] at hx; cases hx

theorem nodup_append_new {xs : List τ} {x : τ} (hxs : xs.Nodup) (hx : x ∉ xs) :
    (xs ++ [x]).Nodup := by
  refine List.nodup_append.mpr ⟨hxs, List.nodup_singleton x, ?_⟩
  intro y hy z hz heq
  rw [List.mem_singleton.mp hz] at heq
  exact hx (heq ▸ hy)

theorem Sound.step {l l' : Ledger τ η} (hl : Sound l) (hstep : Step l l') : Sound l' := by
  cases hstep with
  | keep hissued hspent hholds =>
    refine ⟨fun x h h' hx hx' => hl.exclusive x h h' (hholds x h hx) (hholds x h' hx'), ?_, ?_, ?_,
      ?_⟩
    · intro x h hx
      rw [hissued, hspent]
      exact hl.held x h (hholds x h hx)
    · exact hissued ▸ hl.issuedOnce
    · exact hspent ▸ hl.spentOnce
    · rw [hissued, hspent]
      exact hl.spentIssued
  | issue x h₀ hnew hissued hspent hholds =>
    have hold : ∀ y k, l.holds y k → y ≠ x := by
      rintro y k hy rfl
      exact hnew (hl.held y k hy).1
    refine ⟨?_, ?_, ?_, hspent ▸ hl.spentOnce, ?_⟩
    · intro y h h' hy hy'
      rcases hholds y h hy with hy | ⟨rfl, rfl⟩ <;> rcases hholds y h' hy' with hy' | ⟨heq, rfl⟩
      · exact hl.exclusive y h h' hy hy'
      · exact absurd heq (hold y h hy)
      · exact absurd rfl (hold y h' hy')
      · rfl
    · intro y h hy
      rw [hissued, hspent]
      rcases hholds y h hy with hy | ⟨rfl, _⟩
      · exact ⟨List.mem_append_left _ (hl.held y h hy).1, (hl.held y h hy).2⟩
      · exact ⟨List.mem_append_right _ (List.mem_singleton_self _), fun hs =>
          hnew (hl.spentIssued _ hs)⟩
    · rw [hissued]
      exact nodup_append_new hl.issuedOnce hnew
    · intro y hy
      rw [hspent] at hy
      rw [hissued]
      exact List.mem_append_left _ (hl.spentIssued y hy)
  | pass x h₀ h₁ hheld hissued hspent hholds =>
    refine ⟨?_, ?_, hissued ▸ hl.issuedOnce, hspent ▸ hl.spentOnce, ?_⟩
    · intro y h h' hy hy'
      rcases hholds y h hy with ⟨hne, hy⟩ | ⟨rfl, rfl⟩ <;>
        rcases hholds y h' hy' with ⟨hne', hy'⟩ | ⟨heq, rfl⟩
      · exact hl.exclusive y h h' hy hy'
      · exact absurd heq hne
      · exact absurd rfl hne'
      · rfl
    · intro y h hy
      rw [hissued, hspent]
      rcases hholds y h hy with ⟨_, hy⟩ | ⟨rfl, _⟩
      · exact hl.held y h hy
      · exact hl.held y h₀ hheld
    · rw [hissued, hspent]
      exact hl.spentIssued
  | spend x h₀ hheld hissued hspent hholds =>
    refine ⟨fun y h h' hy hy' => hl.exclusive y h h' (hholds y h hy).2 (hholds y h' hy').2, ?_,
      hissued ▸ hl.issuedOnce, ?_, ?_⟩
    · intro y h hy
      obtain ⟨hne, hy⟩ := hholds y h hy
      rw [hissued, hspent]
      refine ⟨(hl.held y h hy).1, fun hs => ?_⟩
      rcases List.mem_append.mp hs with hs | hs
      · exact (hl.held y h hy).2 hs
      · exact hne (List.mem_singleton.mp hs)
    · rw [hspent]
      exact nodup_append_new hl.spentOnce (hl.held x h₀ hheld).2
    · intro y hy
      rw [hspent] at hy
      rw [hissued]
      rcases List.mem_append.mp hy with hy | hy
      · exact hl.spentIssued y hy
      · rw [List.mem_singleton.mp hy]
        exact (hl.held x h₀ hheld).1

end Ekip.Lib.Custody
