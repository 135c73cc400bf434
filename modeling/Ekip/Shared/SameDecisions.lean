import Mathlib.Data.List.Chain
import Ekip.Shared.OverGrants

/-!
# Both limiters decide alike

At whole milliseconds, and as long as Redis does not let the key go, the hash of a key
is its bucket: the two hold the same tokens, counted at the same time. After a denial
the wait that the script answers is shorter than the time to live, and long enough.
-/
namespace Ekip.Shared.RateLimiter

open Ekip.Lib Ekip.Lib.TokenBucket

variable {κ : Type} [DecidableEq κ]

/-- The answers of `try_acquire` in the process. -/
def processDecisions (budget : Budget) (key : κ) : TokenBucketRateLimiter κ → List Instant → List Bool
  | _, [] => []
  | limiter, instant :: rest =>
    let (granted, limiter) :=
      limiter.tryAcquire key budget.rate budget.capacity ((instant.micros : ℚ) / 1000000)
    granted :: processDecisions budget key limiter rest

/-- The answers of `try_acquire` from Redis. -/
def redisDecisions (budget : Budget) (key : κ) : Redis κ → List Instant → List Bool
  | _, [] => []
  | redis, instant :: rest =>
    let (granted, redis) := redis.tryAcquire key budget.rate budget.capacity true instant
    granted :: redisDecisions budget key redis rest

/-- Neither knows the key, or both hold the same of it since an instant after which
`next` is no later than the time to live allows. -/
def Agree (budget : Budget) (key : κ) (limiter : TokenBucketRateLimiter κ) (redis : Redis κ)
    (next : Option Instant) : Prop :=
  (limiter.buckets key = none ∧ redis.hashes key = none) ∨
    ∃ tokens last, limiter.buckets key = some ⟨tokens, Instant.stamp last⟩ ∧
      redis.hashes key =
        some ⟨tokens, last.nowMs, last.nowMs + Redis.ttlMs budget.rate budget.effective⟩ ∧
      ∀ instant ∈ next, last.nowMs ≤ instant.nowMs ∧
        instant.nowMs < last.nowMs + Redis.ttlMs budget.rate budget.effective

theorem time_of_whole {instant : Instant} (h : 1000 ∣ instant.micros) :
    (instant.micros : ℚ) / 1000000 = instant.stamp := by
  have hmicros : instant.micros = instant.nowMs * 1000 := (Nat.div_mul_cancel h).symm
  unfold Instant.stamp
  rw [hmicros]
  push_cast
  ring

theorem stamp_le {i j : Instant} (h : i.nowMs ≤ j.nowMs) : (i.nowMs : ℚ) / 1000 ≤ j.stamp := by
  unfold Instant.stamp
  rw [div_le_div_iff_of_pos_right (by norm_num)]
  exact_mod_cast h

/-- They find the same tokens. -/
theorem Agree.level {budget : Budget} {key : κ} {limiter : TokenBucketRateLimiter κ}
    {redis : Redis κ} {instant : Instant} (h : Agree budget key limiter redis (some instant)) :
    limiter.level key budget instant.stamp = redis.level key budget instant := by
  rcases h with ⟨hbucket, hhash⟩ | ⟨tokens, last, hbucket, hhash, hnext⟩
  · rw [TokenBucketRateLimiter.level_of_none hbucket]
    unfold Redis.level Redis.live
    rw [hhash]
    rfl
  · obtain ⟨hlast, halive⟩ := hnext instant rfl
    have hlive : redis.live key instant =
        some ⟨tokens, last.nowMs, last.nowMs + Redis.ttlMs budget.rate budget.effective⟩ := by
      rcases redis.live_cases key instant with ⟨hash, hsome, hfound⟩ | ⟨-, hdue⟩
      · rw [hfound, ← hsome, hhash]
      · have hexpired := hdue _ hhash
        dsimp only at hexpired
        omega
    rw [TokenBucketRateLimiter.level_of_some hbucket]
    unfold Redis.level
    rw [hlive]
    dsimp only
    rw [Redis.elapsed_eq (stamp_le hlast)]
    rfl

theorem tryAcquire_process (limiter : TokenBucketRateLimiter κ) (key : κ) (budget : Budget) (now : ℚ) :
    limiter.tryAcquire key budget.rate budget.capacity now =
      (decide (1 ≤ limiter.level key budget now),
        limiter.store key ⟨if 1 ≤ limiter.level key budget now then limiter.level key budget now - 1
          else limiter.level key budget now, now⟩) := by
  rw [TokenBucketRateLimiter.tryAcquire_eq, TokenBucketRateLimiter.acquire_eq]
  by_cases hlevel : 1 ≤ limiter.level key budget now
  · simp [hlevel]
  · simp [hlevel]

theorem tryAcquire_redis (redis : Redis κ) (key : κ) (budget : Budget) (instant : Instant) :
    redis.tryAcquire key budget.rate budget.capacity true instant =
      (decide (1 ≤ redis.level key budget instant),
        redis.store key budget (if 1 ≤ redis.level key budget instant then
          redis.level key budget instant - 1 else redis.level key budget instant) instant) := by
  obtain ⟨hallowed, hstored⟩ := redis.acquire_eq key budget instant
  rw [Redis.tryAcquire_eq, hallowed, hstored]

theorem decisions_eq {budget : Budget} {key : κ} {instants : List Instant} :
    ∀ {limiter : TokenBucketRateLimiter κ} {redis : Redis κ},
      Agree budget key limiter redis instants.head? →
      (∀ instant ∈ instants, 1000 ∣ instant.micros) →
      (instants.IsChain fun i j => i.micros ≤ j.micros ∧
        j.nowMs < i.nowMs + Redis.ttlMs budget.rate budget.effective) →
      processDecisions budget key limiter instants = redisDecisions budget key redis instants := by
  induction instants with
  | nil =>
    intro limiter redis _ _ _
    rfl
  | cons instant rest ih =>
    intro limiter redis hagree hwhole htimes
    have hlevel := Agree.level hagree
    have htime := time_of_whole (hwhole instant List.mem_cons_self)
    rw [processDecisions, redisDecisions, htime, tryAcquire_process, tryAcquire_redis, hlevel]
    dsimp only
    congr 1
    apply ih
    · refine .inr ⟨_, instant, Function.update_self .., Function.update_self .., ?_⟩
      intro next hnext
      cases rest with
      | nil => cases hnext
      | cons second rest =>
        obtain rfl := Option.some.inj hnext
        obtain ⟨hlater, halive⟩ := (List.isChain_cons_cons.mp htimes).1
        exact ⟨Nat.div_le_div_right hlater, halive⟩
    · intro later hlater
      exact hwhole later (List.mem_cons_of_mem _ hlater)
    · exact htimes.tail

/-! ## The wait -/

/-- To wait for one token takes less than the time to live. -/
theorem wait_lt_ttl (budget : Budget) {level : ℚ} (hlevel : 0 ≤ level) :
    ⌈(1 - level) / budget.rate * 1000⌉₊ < Redis.ttlMs budget.rate budget.effective := by
  have hrate := budget.rate_pos
  have hwait : (1 - level) / budget.rate ≤ budget.effective / budget.rate := by
    have hone := budget.one_le_effective
    rw [div_le_div_iff_of_pos_right hrate]
    linarith
  have hsixty : (60 : ℚ) ≤ max 60 (budget.effective / budget.rate * 2) := le_max_left _ _
  have htwice : budget.effective / budget.rate * 2 ≤ max 60 (budget.effective / budget.rate * 2) :=
    le_max_right _ _
  have httl : max 60 (budget.effective / budget.rate * 2) * 1000 ≤
      (Redis.ttlMs budget.rate budget.effective : ℚ) := Nat.le_ceil _
  have hlt : (⌈(1 - level) / budget.rate * 1000⌉₊ : ℚ) <
      Redis.ttlMs budget.rate budget.effective := by
    by_cases hneg : (1 - level) / budget.rate * 1000 ≤ 0
    · rw [Nat.ceil_eq_zero.mpr hneg, Nat.cast_zero]
      linarith
    · have hceil := Nat.ceil_lt_add_one (le_of_lt (lt_of_not_ge hneg))
      linarith
  exact_mod_cast hlt

omit [DecidableEq κ] in
theorem level_nonneg {budget : Budget} {key : κ} {redis : Redis κ} (instant : Instant)
    (h : ∀ hash, redis.hashes key = some hash → 0 ≤ hash.tokens) :
    0 ≤ redis.level key budget instant := by
  have hcapacity := budget.one_le_effective
  unfold Redis.level
  rcases redis.live_cases key instant with ⟨hash, hhash, hfound⟩ | ⟨hgone, -⟩
  · have helapsed : (0 : ℚ) ≤ ((max 0 ((instant.nowMs : ℤ) - hash.updatedMs) : ℤ) : ℚ) := by
      exact_mod_cast le_max_left 0 _
    have hfilled : 0 ≤ ((max 0 ((instant.nowMs : ℤ) - hash.updatedMs) : ℤ) : ℚ) / 1000 * budget.rate :=
      mul_nonneg (div_nonneg helapsed (by norm_num)) (le_of_lt budget.rate_pos)
    rw [hfound]
    exact le_min (by linarith) (add_nonneg (h hash hhash) hfilled)
  · rw [hgone]
    exact le_of_lt budget.initial_pos

/-- After the wait there is a token. -/
theorem level_after_wait {budget : Budget} {key : κ} {redis : Redis κ} {instant next : Instant}
    {level : ℚ} (hlevel : 0 ≤ level)
    (hnext : next.nowMs = instant.nowMs + ⌈(1 - level) / budget.rate * 1000⌉₊) :
    1 ≤ (redis.store key budget level instant).level key budget next := by
  have hshort := wait_lt_ttl budget hlevel
  have hstored : (redis.store key budget level instant).hashes key =
      some ⟨level, instant.nowMs, instant.nowMs + Redis.ttlMs budget.rate budget.effective⟩ :=
    Function.update_self ..
  rcases (redis.store key budget level instant).live_cases key next with
    ⟨hash, hhash, hfound⟩ | ⟨-, hdue⟩
  · rw [hstored] at hhash
    obtain rfl := Option.some.inj hhash
    unfold Redis.level
    rw [hfound]
    dsimp only
    have hlater : instant.nowMs ≤ next.nowMs := by omega
    rw [Redis.elapsed_eq (stamp_le hlater)]
    have hwaited : next.stamp - (instant.nowMs : ℚ) / 1000 =
        (⌈(1 - level) / budget.rate * 1000⌉₊ : ℚ) / 1000 := by
      unfold Instant.stamp
      rw [hnext]
      push_cast
      ring
    have hceil : (1 - level) / budget.rate * 1000 ≤ (⌈(1 - level) / budget.rate * 1000⌉₊ : ℚ) :=
      Nat.le_ceil _
    have htime : (1 - level) / budget.rate ≤ (⌈(1 - level) / budget.rate * 1000⌉₊ : ℚ) / 1000 := by
      rw [le_div_iff₀ (by norm_num)]
      exact hceil
    have htoken := mul_le_mul_of_nonneg_right htime (le_of_lt budget.rate_pos)
    rw [div_mul_cancel₀ _ (ne_of_gt budget.rate_pos)] at htoken
    rw [hwaited]
    exact le_min budget.one_le_effective (by linarith)
  · have hexpired := hdue _ hstored
    dsimp only at hexpired
    omega

/-- Both limiters answer the same calls alike; and a caller of Redis that was denied,
waits as long as it was told and is alone gets its token. -/
theorem same_decisions (budget : κ → Budget) (key : κ) {instants : List Instant}
    (hwhole : ∀ instant ∈ instants, 1000 ∣ instant.micros)
    (htimes : instants.IsChain fun i j => i.micros ≤ j.micros ∧
      j.nowMs < i.nowMs + Redis.ttlMs (budget key).rate (budget key).effective) :
    processDecisions (budget key) key {} instants = redisDecisions (budget key) key {} instants ∧
    ∀ remote : World (Redis κ) κ Instant ℚ,
      Run (World.step (inRedis budget)) anyStep { state := {} } remote →
      ∀ (instant next : Instant) (waitMs : ℕ),
        (remote.state.evalBucket key (budget key).rate (budget key).effective (budget key).initial
          instant).1 = (0, waitMs) →
        next.micros = instant.micros + waitMs * 1000 →
        ((remote.state.tryAcquire key (budget key).rate (budget key).capacity true
          instant).2.tryAcquire key (budget key).rate (budget key).capacity true next).1 = true := by
  constructor
  · exact decisions_eq (.inl ⟨rfl, rfl⟩) hwhole htimes
  · intro remote hremote instant next waitMs hdenied hnext
    have htimed : Redis.Timed budget {} := by
      intro key hash hhash
      cases hhash
    have hspent := ((inRedis_meters budget).run_spent htimed (fun _ => rfl) hremote key).1
    have htokens : ∀ hash, remote.state.hashes key = some hash → 0 ≤ hash.tokens := by
      intro hash hhash
      have hview : remote.state.view key = some (hash.tokens, (hash.updatedMs : ℚ) / 1000) := by
        unfold Redis.view
        rw [hhash]
        rfl
      exact (hspent _ _ hview).1
    rw [Redis.evalBucket_eq] at hdenied
    by_cases hlevel : 1 ≤ remote.state.level key (budget key) instant
    · rw [if_pos hlevel] at hdenied
      cases hdenied
    · rw [if_neg hlevel] at hdenied
      obtain ⟨-, rfl⟩ := Prod.mk.inj hdenied
      have hms : next.nowMs = instant.nowMs +
          ⌈(1 - remote.state.level key (budget key) instant) / (budget key).rate * 1000⌉₊ := by
        unfold Instant.nowMs
        rw [hnext, Nat.add_mul_div_right _ _ (by norm_num)]
      have hafter := @level_after_wait κ _ (budget key) key remote.state instant next _
        (level_nonneg instant htokens) hms
      have hfirst := tryAcquire_redis remote.state key (budget key) instant
      rw [if_neg hlevel] at hfirst
      rw [hfirst, tryAcquire_redis]
      exact decide_eq_true hafter

/-- One token every two seconds, and half of one to begin with. -/
def oneEveryTwo : Unit → Budget := fun _ =>
  { rate := 1 / 2
    capacity := none
    rate_pos := halfRate_pos
    capacity_ge := fun c hc => by cases hc }

theorem same_decisions_cold :
    processDecisions (oneEveryTwo ()) () {} [⟨0, true⟩, ⟨1000000, true⟩, ⟨1500000, true⟩] =
      redisDecisions (oneEveryTwo ()) () {} [⟨0, true⟩, ⟨1000000, true⟩, ⟨1500000, true⟩] ∧
    ((Redis.tryAcquire {} () (oneEveryTwo ()).rate (oneEveryTwo ()).capacity true
      ⟨500, false⟩).2.tryAcquire () (oneEveryTwo ()).rate (oneEveryTwo ()).capacity true
        ⟨1000500, false⟩).1 = true := by
  have hwhole : ∀ instant ∈ [(⟨0, true⟩ : Instant), ⟨1000000, true⟩, ⟨1500000, true⟩],
      1000 ∣ instant.micros := by decide
  have htimes : [(⟨0, true⟩ : Instant), ⟨1000000, true⟩, ⟨1500000, true⟩].IsChain fun i j =>
      i.micros ≤ j.micros ∧
        j.nowMs < i.nowMs + Redis.ttlMs (oneEveryTwo ()).rate (oneEveryTwo ()).effective := by
    decide +kernel
  have hdenied : (Redis.evalBucket {} () (oneEveryTwo ()).rate (oneEveryTwo ()).effective
      (oneEveryTwo ()).initial ⟨500, false⟩).1 = (0, 1000) := by decide +kernel
  obtain ⟨hsame, halone⟩ := same_decisions oneEveryTwo () hwhole htimes
  exact ⟨hsame, halone { state := {} } (.refl _) ⟨500, false⟩ ⟨1000500, false⟩ 1000 hdenied rfl⟩

end Ekip.Shared.RateLimiter
