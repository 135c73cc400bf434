import Mathlib.Logic.Basic

/-!
# Feeds that are walked page by page and resumed by a token

A feed has items at places, and places are written as time goes on. A walk begins
where a token says and is continued from a cursor, and the places that lie ahead
of it are those it still comes to. A reader that is interrupted begins again from
whatever token and cursor it has stored. `Advance` is what one page does to the
places ahead, `Accounted` says that another token passes over nothing unsettled.
-/
namespace Ekip.Lib

variable {π ι τ κ : Type}

structure Feed (π ι τ κ : Type) where
  holds : π → ι → Prop
  /-- The place has been written by that time. -/
  written : Nat → π → Prop
  written_mono : ∀ {t t' p}, t ≤ t' → written t p → written t' p
  /-- The token of a reader that has none yet. -/
  root : τ
  /-- The cursor of a walk that has not begun. -/
  start : κ
  /-- A walk that stands at the cursor, with the token, still comes to the place. -/
  ahead : τ → κ → π → Prop
  /-- Where a walk stands at this cursor does not depend on its token. -/
  anchored : κ → Prop

namespace Feed

variable (F : Feed π ι τ κ) (admits : ι → Prop)

/-- By the time `t` the item is written somewhere ahead. -/
def Ahead (t : Nat) (T : τ) (c : κ) (x : ι) : Prop :=
  ∃ p, F.holds p x ∧ F.written t p ∧ F.ahead T c p

/-- The walk will return the item, under the filter it applies. -/
def Due (t : Nat) (T : τ) (c : κ) (x : ι) : Prop := admits x ∧ F.Ahead t T c x

/-- At the time `t` a reader with token `T` at cursor `c` receives a page of
`items`, after which its token is `T'` and its cursor `next`. -/
structure Advance (t : Nat) (T : τ) (c : κ) (items : List ι) (T' : τ) (next : Option κ) :
    Prop where
  covers : ∀ p x, F.holds p x → F.written t p → admits x → F.ahead T c p →
    x ∈ items ∨ ∃ c', next = some c' ∧ F.ahead T' c' p
  sound : ∀ x ∈ items, F.Due admits t T c x
  onward : ∀ c', next = some c' → ∀ p, F.ahead T' c' p → F.ahead T c p
  /-- What a walk begun with the new token would skip is on the page. -/
  passed : ∀ p x, F.holds p x → admits x → F.ahead T c p → F.ahead T F.start p →
    F.ahead T' F.start p ∨ x ∈ items
  anchored : F.anchored c → ∀ p, F.ahead T' c p ↔ F.ahead T c p

/-- Of what a walk with token `T` at `c` still comes to, a walk begun with the
token `T₀` would skip only what is settled. -/
def Accounted (settled : ι → Prop) (T₀ T : τ) (c : κ) : Prop :=
  ∀ p x, F.holds p x → admits x → F.ahead T c p → F.ahead T₀ F.start p ∨ settled x

variable {F admits} {settled settled' : ι → Prop} {t t' : Nat} {T T' T₀ : τ} {c c' : κ}
  {items : List ι} {next : Option κ} {x : ι}

theorem Ahead.later (h : F.Ahead t T c x) (ht : t ≤ t') : F.Ahead t' T c x := by
  obtain ⟨p, hp, hwritten, hahead⟩ := h
  exact ⟨p, hp, F.written_mono ht hwritten, hahead⟩

theorem Due.later (h : F.Due admits t T c x) (ht : t ≤ t') : F.Due admits t' T c x :=
  ⟨h.1, h.2.later ht⟩

/-- A walk that stands still. -/
theorem Advance.refl : F.Advance admits t T c [] T (some c) where
  covers := fun _ _ _ _ _ hahead => .inr ⟨c, rfl, hahead⟩
  sound := fun _ hx => absurd hx List.not_mem_nil
  onward := by
    intro c' hc' p hahead
    obtain rfl := Option.some.inj hc'
    exact hahead
  passed := fun _ _ _ _ _ hstart => .inl hstart
  anchored := fun _ _ => Iff.rfl

namespace Advance

variable (h : F.Advance admits t T c items T' next)
include h

theorem due (hx : F.Due admits t T c x) :
    x ∈ items ∨ ∃ c', next = some c' ∧ F.Due admits t T' c' x := by
  obtain ⟨hadmits, p, hp, hwritten, hahead⟩ := hx
  rcases h.covers p x hp hwritten hadmits hahead with hitem | ⟨c', hc', hahead'⟩
  · exact .inl hitem
  · exact .inr ⟨c', hc', hadmits, p, hp, hwritten, hahead'⟩

theorem due_of_next (hc' : next = some c') (hx : F.Due admits t T' c' x) :
    F.Due admits t T c x := by
  obtain ⟨hadmits, p, hp, hwritten, hahead⟩ := hx
  exact ⟨hadmits, p, hp, hwritten, h.onward c' hc' p hahead⟩

theorem due_anchored (hc : F.anchored c) (hx : F.Due admits t T c x) : F.Due admits t T' c x := by
  obtain ⟨hadmits, p, hp, hwritten, hahead⟩ := hx
  exact ⟨hadmits, p, hp, hwritten, (h.anchored hc p).mpr hahead⟩

end Advance

namespace Accounted

theorem mono (h : F.Accounted admits settled T₀ T c) (hs : ∀ x, settled x → settled' x) :
    F.Accounted admits settled' T₀ T c := by
  intro p x hp hadmits hahead
  exact (h p x hp hadmits hahead).imp_right (hs x)

/-- A walk that begins with its token skips nothing it would come to. -/
theorem start : F.Accounted admits settled T T F.start :=
  fun _ _ _ _ hahead => .inl hahead

theorem advance (h : F.Accounted admits settled T₀ T c)
    (hpage : F.Advance admits t T c items T' next) (hc' : next = some c') :
    F.Accounted admits settled T₀ T' c' := by
  intro p x hp hadmits hahead
  exact h p x hp hadmits (hpage.onward c' hc' p hahead)

/-- The token may be replaced by the one that came with the page once the items
of the page are settled. -/
theorem replace (h : F.Accounted admits settled T T c)
    (hpage : F.Advance admits t T c items T' next) (hitems : ∀ x ∈ items, settled x) :
    F.Accounted admits settled T' T c := by
  intro p x hp hadmits hahead
  rcases h p x hp hadmits hahead with hstart | hsettled
  · exact (hpage.passed p x hp hadmits hahead hstart).imp_right (hitems x)
  · exact .inr hsettled

theorem anchored (h : F.Accounted admits settled T₀ T c)
    (hpage : F.Advance admits t T c items T' next) (hc : F.anchored c) :
    F.Accounted admits settled T₀ T' c := by
  intro p x hp hadmits hahead
  exact h p x hp hadmits ((hpage.anchored hc p).mp hahead)

theorem ahead (h : F.Accounted admits settled T₀ T c) (hx : F.Due admits t T c x) :
    F.Ahead t T₀ F.start x ∨ settled x := by
  obtain ⟨hadmits, p, hp, hwritten, hahead⟩ := hx
  exact (h p x hp hadmits hahead).imp_left fun hstart => ⟨p, hp, hwritten, hstart⟩

end Accounted

end Feed

end Ekip.Lib
