import Mathlib.Algebra.Order.Field.Basic
import Mathlib.Tactic.Linarith
import Mathlib.Tactic.Ring
import Ekip.Lib.Run

/-!
# What a token bucket grants

Callers ask a limiter for tokens, either at once or by passing again and again with
sleep between. A limiter that never finds more in a bucket than its capacity, nor more
than came in since the last time, grants in any window at most its capacity and what
came in meanwhile.
-/
namespace Ekip.Lib.TokenBucket

/-! ## Callers of a limiter -/

/-- A limiter with the state `σ`, called at instants in `I` and keyed by `κ`. -/
structure Limiter (σ κ I K : Type) where
  tryAcquire : σ → κ → I → Bool × σ
  /-- One pass of the loop: the time to sleep, unless a token was there. -/
  acquire : σ → κ → I → Option K × σ
  time : I → K

inductive Call (κ : Type)
  | tryAcquire (key : κ)
  | acquire (caller : Nat) (key : κ)
  | wake (caller : Nat)

structure Attempt (κ I : Type) where
  key : κ
  instant : I
  granted : Bool

/-- The limiter, who sleeps on which key until when, and the attempts, the last one first. -/
structure World (σ κ I K : Type) where
  state : σ
  asleep : Nat → Option (κ × K) := fun _ => none
  log : List (Attempt κ I) := []

namespace World

variable {σ κ I K : Type} [LinearOrder K] [Add K]

/-- A pass of `acquire`. -/
def pass (limiter : Limiter σ κ I K) (world : World σ κ I K) (caller : Nat) (key : κ)
    (instant : I) : World σ κ I K :=
  let (wait, state) := limiter.acquire world.state key instant
  { state
    asleep := Function.update world.asleep caller
      (wait.map fun seconds => (key, limiter.time instant + seconds))
    log := { key, instant, granted := wait.isNone } :: world.log }

/-- Time does not go back, and a sleeper sleeps its time. -/
def step (limiter : Limiter σ κ I K) (world : World σ κ I K) (move : I × Call κ) :
    Option (World σ κ I K) :=
  if ∀ last ∈ world.log.head?, limiter.time last.instant ≤ limiter.time move.1 then
    match move.2 with
    | .tryAcquire key =>
      let (granted, state) := limiter.tryAcquire world.state key move.1
      some { world with state, log := { key, instant := move.1, granted } :: world.log }
    | .acquire caller key =>
      match world.asleep caller with
      | some _ => none
      | none => some (world.pass limiter caller key move.1)
    | .wake caller =>
      match world.asleep caller with
      | some (key, wakes) =>
        if wakes ≤ limiter.time move.1 then some (world.pass limiter caller key move.1)
        else none
      | none => none
  else none

/-- However it came about, a step is one attempt on one key. -/
theorem step_cases {limiter : Limiter σ κ I K}
    (htry : ∀ state key instant, limiter.tryAcquire state key instant =
      ((limiter.acquire state key instant).1.isNone, (limiter.acquire state key instant).2))
    {world world' : World σ κ I K} {move : I × Call κ} (h : world.step limiter move = some world') :
    (∀ last ∈ world.log.head?, limiter.time last.instant ≤ limiter.time move.1) ∧
      ∃ key, world'.state = (limiter.acquire world.state key move.1).2 ∧
        world'.log =
          ⟨key, move.1, (limiter.acquire world.state key move.1).1.isNone⟩ :: world.log := by
  unfold step at h
  split at h
  case isFalse => cases h
  case isTrue hclock =>
    refine ⟨hclock, ?_⟩
    split at h
    case h_1 key _ =>
      rw [htry] at h
      obtain rfl := Option.some.inj h
      exact ⟨key, rfl, rfl⟩
    case h_2 caller key _ =>
      split at h
      · cases h
      · obtain rfl := Option.some.inj h
        exact ⟨key, rfl, rfl⟩
    case h_3 caller _ =>
      split at h
      · rename_i key wakes _
        split at h
        · obtain rfl := Option.some.inj h
          exact ⟨key, rfl, rfl⟩
        · cases h
      · cases h

end World

/-! ## Grants in a window -/

section

variable {κ I K : Type} [DecidableEq κ] [LinearOrder K]

/-- The attempts on a key that found a token in a window. -/
def grantsIn (stamp : I → K) (key : κ) (start stop : K) (log : List (Attempt κ I)) : Nat :=
  log.countP fun attempt =>
    attempt.key = key ∧ attempt.granted = true ∧ start ≤ stamp attempt.instant ∧
      stamp attempt.instant ≤ stop

theorem grantsIn_cons (stamp : I → K) (key : κ) (start stop : K) (attempt : Attempt κ I)
    (log : List (Attempt κ I)) :
    grantsIn stamp key start stop (attempt :: log) = grantsIn stamp key start stop log +
      if attempt.key = key ∧ attempt.granted = true ∧ start ≤ stamp attempt.instant ∧
        stamp attempt.instant ≤ stop then 1 else 0 := by
  unfold grantsIn
  rw [List.countP_cons]
  simp only [decide_eq_true_eq]

end

/-! ## The budget of a window -/

variable {K : Type} [Field K] [LinearOrder K] [IsStrictOrderedRing K]

/-- The grants in a window, with what is left in the bucket, keep to the budget. -/
structure Within (capacity rate start stop : K) (grants : Nat) (tokens last : K) : Prop where
  early : last < start → grants = 0
  inside : start ≤ last → last ≤ stop → (grants : K) + tokens ≤ capacity + rate * (last - start)
  total : (grants : K) ≤ capacity + rate * (stop - start)

section

variable {capacity rate start stop tokens last level now : K} {grants : Nat}

theorem within_none (hcapacity : 0 ≤ capacity) (hrate : 0 ≤ rate) (hwindow : start ≤ stop)
    (hlevel : level ≤ capacity) : Within capacity rate start stop 0 level now := by
  have hspan : 0 ≤ rate * (stop - start) := mul_nonneg hrate (sub_nonneg.mpr hwindow)
  constructor
  · intro _
    rfl
  · intro hstart _
    have hpassed : 0 ≤ rate * (now - start) := mul_nonneg hrate (sub_nonneg.mpr hstart)
    rw [Nat.cast_zero]
    linarith
  · rw [Nat.cast_zero]
    linarith

/-- The bucket fills up to the present. -/
theorem Within.fill (h : Within capacity rate start stop grants tokens last) (hrate : 0 ≤ rate)
    (hlast : last ≤ now) (hcapacity : level ≤ capacity)
    (hlevel : level ≤ tokens + rate * (now - last)) :
    Within capacity rate start stop grants level now := by
  constructor
  · intro hnow
    exact h.early (lt_of_le_of_lt hlast hnow)
  · intro hstart hstop
    rcases lt_or_ge last start with hearly | hinside
    · have hpassed : 0 ≤ rate * (now - start) := mul_nonneg hrate (sub_nonneg.mpr hstart)
      rw [h.early hearly, Nat.cast_zero]
      linarith
    · have hbefore := h.inside hinside (le_trans hlast hstop)
      have hsplit : rate * (now - start) = rate * (now - last) + rate * (last - start) := by ring
      linarith
  · exact h.total

/-- A token out of the bucket is a grant, in the window or outside. -/
theorem Within.take (h : Within capacity rate start stop grants level now) (hrate : 0 ≤ rate)
    (hlevel : 1 ≤ level) :
    Within capacity rate start stop (grants + if start ≤ now ∧ now ≤ stop then 1 else 0)
      (level - 1) now := by
  by_cases hnow : start ≤ now ∧ now ≤ stop
  · rw [if_pos hnow]
    have hinside := h.inside hnow.1 hnow.2
    have hlater : rate * (now - start) ≤ rate * (stop - start) :=
      mul_le_mul_of_nonneg_left (sub_le_sub_right hnow.2 start) hrate
    constructor
    · intro hearly
      exact absurd hnow.1 (not_le_of_gt hearly)
    · intro _ _
      push_cast
      linarith
    · push_cast
      linarith
  · rw [if_neg hnow, Nat.add_zero]
    refine ⟨h.early, ?_, h.total⟩
    intro hstart hstop
    exact absurd ⟨hstart, hstop⟩ hnow

end

/-! ## Limiters that keep to a budget -/

section

variable {σ κ I : Type} [DecidableEq κ]

/-- The tokens that an attempt may find in a bucket of `capacity` that fills at `rate`,
which had some at a time; and the bucket that it leaves. -/
structure Draws (capacity rate now : K) (bucket : Option (K × K)) (granted : Bool)
    (bucket' : Option (K × K)) (level : K) : Prop where
  le_capacity : level ≤ capacity
  le_filled : ∀ tokens last, bucket = some (tokens, last) → level ≤ tokens + rate * (now - last)
  nonneg : 0 ≤ level
  enough : granted = true → 1 ≤ level
  left : bucket' = some (if granted then level - 1 else level, now)

/-- A limiter whose buckets, as `view` shows them with the time stamps of their last
attempts, are drawn from within their budgets. `good` is what it keeps of its state. -/
structure Meters (limiter : Limiter σ κ I K) (good : σ → Prop) (view : σ → κ → Option (K × K))
    (stamp : I → K) (capacity rate : κ → K) : Prop where
  try_eq : ∀ state key instant, limiter.tryAcquire state key instant =
    ((limiter.acquire state key instant).1.isNone, (limiter.acquire state key instant).2)
  stamp_mono : ∀ i j, limiter.time i ≤ limiter.time j → stamp i ≤ stamp j
  budget : ∀ key, 0 ≤ capacity key ∧ 0 ≤ rate key
  stays_good : ∀ state key instant, good state → good (limiter.acquire state key instant).2
  others : ∀ state key instant other, other ≠ key →
    view (limiter.acquire state key instant).2 other = view state other
  draws : ∀ state key instant, good state →
    (∀ tokens last, view state key = some (tokens, last) → 0 ≤ tokens ∧ last ≤ stamp instant) →
      ∃ level, Draws (capacity key) (rate key) (stamp instant) (view state key)
        (limiter.acquire state key instant).1.isNone
        (view (limiter.acquire state key instant).2 key) level

/-- What a run of a limiter keeps of a key. -/
structure Spent (view : σ → κ → Option (K × K)) (stamp : I → K) (capacity rate : κ → K)
    (world : World σ κ I K) (key : κ) : Prop where
  tokens : ∀ tokens last, view world.state key = some (tokens, last) →
    0 ≤ tokens ∧ tokens ≤ capacity key
  past : ∀ tokens last, view world.state key = some (tokens, last) →
    ∃ attempt, world.log.head? = some attempt ∧ last ≤ stamp attempt.instant
  unused : view world.state key = none → ∀ start stop, grantsIn stamp key start stop world.log = 0
  within : ∀ tokens last, view world.state key = some (tokens, last) → ∀ start stop, start ≤ stop →
    Within (capacity key) (rate key) start stop (grantsIn stamp key start stop world.log) tokens last

variable {limiter : Limiter σ κ I K} {good : σ → Prop} {view : σ → κ → Option (K × K)}
  {stamp : I → K} {capacity rate : κ → K}

/-- The key of an attempt. -/
theorem Spent.draw {world world' : World σ κ I K} {key : κ} {instant : I} {granted : Bool} {level : K}
    (h : Spent view stamp capacity rate world key)
    (hcapacity : 0 ≤ capacity key) (hrate : 0 ≤ rate key)
    (hpast : ∀ tokens last, view world.state key = some (tokens, last) → last ≤ stamp instant)
    (hdraws : Draws (capacity key) (rate key) (stamp instant) (view world.state key) granted
      (view world'.state key) level)
    (hlog : world'.log = ⟨key, instant, granted⟩ :: world.log) :
    Spent view stamp capacity rate world' key := by
  -- what the bucket had come to before a token was taken
  have hfilled : ∀ start stop, start ≤ stop →
      Within (capacity key) (rate key) start stop (grantsIn stamp key start stop world.log) level
        (stamp instant) := by
    intro start stop hwindow
    cases hview : view world.state key with
    | none =>
      rw [h.unused hview start stop]
      exact within_none hcapacity hrate hwindow hdraws.le_capacity
    | some bucket =>
      obtain ⟨tokens, last⟩ := bucket
      exact (h.within tokens last hview start stop hwindow).fill hrate (hpast tokens last hview)
        hdraws.le_capacity (hdraws.le_filled tokens last hview)
  constructor
  · intro tokens last hview
    rw [hdraws.left] at hview
    obtain ⟨rfl, -⟩ := Prod.mk.inj (Option.some.inj hview)
    have hlevel := hdraws.le_capacity
    cases granted with
    | true =>
      have henough := hdraws.enough rfl
      constructor
      · exact sub_nonneg.mpr henough
      · show level - 1 ≤ capacity key
        linarith
    | false => exact ⟨hdraws.nonneg, hlevel⟩
  · intro tokens last hview
    rw [hdraws.left] at hview
    obtain ⟨-, rfl⟩ := Prod.mk.inj (Option.some.inj hview)
    rw [hlog]
    exact ⟨_, rfl, le_refl _⟩
  · intro hnone
    rw [hdraws.left] at hnone
    cases hnone
  · intro tokens last hview start stop hwindow
    rw [hdraws.left] at hview
    obtain ⟨rfl, rfl⟩ := Prod.mk.inj (Option.some.inj hview)
    rw [hlog, grantsIn_cons]
    cases granted with
    | true =>
      have htake := (hfilled start stop hwindow).take hrate (hdraws.enough rfl)
      simpa using htake
    | false => simpa using hfilled start stop hwindow

omit [IsStrictOrderedRing K] in
/-- A key that the attempt was not on. -/
theorem Spent.other {world world' : World σ κ I K} {key other : κ} {instant : I} {granted : Bool}
    (h : Spent view stamp capacity rate world other) (hother : other ≠ key)
    (hpast : ∀ tokens last, view world.state other = some (tokens, last) → last ≤ stamp instant)
    (hview : view world'.state other = view world.state other)
    (hlog : world'.log = ⟨key, instant, granted⟩ :: world.log) :
    Spent view stamp capacity rate world' other := by
  have hgrants : ∀ start stop, grantsIn stamp other start stop world'.log =
      grantsIn stamp other start stop world.log := by
    intro start stop
    rw [hlog, grantsIn_cons, if_neg, Nat.add_zero]
    rintro ⟨hkey, -⟩
    exact hother hkey.symm
  constructor
  · rw [hview]
    exact h.tokens
  · intro tokens last hbucket
    rw [hview] at hbucket
    rw [hlog]
    exact ⟨_, rfl, hpast tokens last hbucket⟩
  · rw [hview]
    simp only [hgrants]
    exact h.unused
  · rw [hview]
    simp only [hgrants]
    exact h.within

theorem Meters.step_spent (h : Meters limiter good view stamp capacity rate)
    {world world' : World σ κ I K} {move : I × Call κ} (hgood : good world.state)
    (hspent : ∀ key, Spent view stamp capacity rate world key)
    (hstep : world.step limiter move = some world') :
    good world'.state ∧ ∀ key, Spent view stamp capacity rate world' key := by
  obtain ⟨hclock, key, hstate, hlog⟩ := World.step_cases h.try_eq hstep
  have hpast : ∀ other tokens last, view world.state other = some (tokens, last) →
      last ≤ stamp move.1 := by
    intro other tokens last hview
    obtain ⟨attempt, hhead, hle⟩ := (hspent other).past tokens last hview
    exact le_trans hle (h.stamp_mono _ _ (hclock attempt hhead))
  constructor
  · rw [hstate]
    exact h.stays_good _ _ _ hgood
  · intro other
    by_cases hother : other = key
    · rw [hother]
      have hknown : ∀ tokens last, view world.state key = some (tokens, last) →
          0 ≤ tokens ∧ last ≤ stamp move.1 := by
        intro tokens last hview
        exact ⟨((hspent key).tokens tokens last hview).1, hpast key tokens last hview⟩
      obtain ⟨level, hdraws⟩ := h.draws world.state key move.1 hgood hknown
      rw [← hstate] at hdraws
      exact (hspent key).draw (h.budget key).1 (h.budget key).2 (hpast key) hdraws hlog
    · have hview := h.others world.state key move.1 other hother
      rw [← hstate] at hview
      exact (hspent other).other hother (hpast other) hview hlog

/-- The bound on every window of every run. -/
theorem Meters.run_spent (h : Meters limiter good view stamp capacity rate) {state : σ}
    (hgood : good state) (hempty : ∀ key, view state key = none) {world : World σ κ I K}
    (hrun : Run (World.step limiter) anyStep { state } world) (key : κ) :
    (∀ tokens last, view world.state key = some (tokens, last) →
      0 ≤ tokens ∧ tokens ≤ capacity key) ∧
    ∀ start stop, start ≤ stop →
      (grantsIn stamp key start stop world.log : K) ≤ capacity key + rate key * (stop - start) := by
  have hstart : good state ∧ ∀ key, Spent view stamp capacity rate
      ({ state } : World σ κ I K) key := by
    refine ⟨hgood, fun key => ⟨?_, ?_, fun _ _ _ => rfl, ?_⟩⟩
    · intro tokens last hview
      rw [hempty] at hview
      cases hview
    · intro tokens last hview
      rw [hempty] at hview
      cases hview
    · intro tokens last hview
      rw [hempty] at hview
      cases hview
  obtain ⟨-, hspent⟩ := Run.invariant (I := fun world : World σ κ I K =>
      good world.state ∧ ∀ key, Spent view stamp capacity rate world key)
    (fun _ _ _ hinv _ hstep => h.step_spent hinv.1 hinv.2 hstep) hrun hstart
  refine ⟨(hspent key).tokens, ?_⟩
  intro start stop hwindow
  cases hview : view world.state key with
  | none =>
    have hspan : 0 ≤ rate key * (stop - start) :=
      mul_nonneg (h.budget key).2 (sub_nonneg.mpr hwindow)
    have hcapacity := (h.budget key).1
    rw [(hspent key).unused hview, Nat.cast_zero]
    linarith
  | some bucket =>
    obtain ⟨tokens, last⟩ := bucket
    exact ((hspent key).within tokens last hview start stop hwindow).total

end

end Ekip.Lib.TokenBucket
