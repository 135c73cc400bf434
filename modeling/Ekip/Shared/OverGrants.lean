import Ekip.Shared.RateLimiter

/-!
# The limiters do not grant too much

Both limiters are metered: what an attempt finds in a bucket is at most its capacity and
at most what was left with what came in since. A key that Redis let go was idle for so
long that its bucket would be full, and starts with no more than that.
-/
namespace Ekip.Shared.RateLimiter

open Ekip.Lib Ekip.Lib.TokenBucket

variable {κ : Type} [DecidableEq κ]

namespace TokenBucketRateLimiter

/-- The tokens of a key, and when they were counted. -/
def view (limiter : TokenBucketRateLimiter κ) (key : κ) : Option (ℚ × ℚ) :=
  (limiter.buckets key).map fun bucket => (bucket.tokens, bucket.lastRefill)

/-- The tokens that an attempt finds. -/
def level (limiter : TokenBucketRateLimiter κ) (key : κ) (budget : Budget) (now : ℚ) : ℚ :=
  (limiter.refill key budget.rate budget.effective budget.initial now).1

theorem take_store (limiter : TokenBucketRateLimiter κ) (key : κ) (tokens now : ℚ) :
    (limiter.store key ⟨tokens, now⟩).take key = limiter.store key ⟨tokens - 1, now⟩ := by
  unfold take store
  dsimp only
  rw [Function.update_self]
  dsimp only
  rw [Function.update_idem]

theorem acquire_eq (limiter : TokenBucketRateLimiter κ) (key : κ) (budget : Budget) (now : ℚ) :
    limiter.acquire key budget.rate budget.capacity now =
      if 1 ≤ limiter.level key budget now then
        (none, limiter.store key ⟨limiter.level key budget now - 1, now⟩)
      else (some ((1 - limiter.level key budget now) / budget.rate),
        limiter.store key ⟨limiter.level key budget now, now⟩) := by
  have hstored : (limiter.refill key budget.rate budget.effective budget.initial now).2 =
      limiter.store key ⟨limiter.level key budget now, now⟩ := rfl
  unfold acquire
  rw [if_neg (not_le_of_gt budget.rate_pos)]
  show (if 1 ≤ limiter.level key budget now then
      (none, (limiter.refill key budget.rate budget.effective budget.initial now).2.take key)
    else (some ((1 - limiter.level key budget now) / budget.rate),
      (limiter.refill key budget.rate budget.effective budget.initial now).2)) = _
  rw [hstored, take_store]

/-- Both modes do the same. -/
theorem tryAcquire_eq (limiter : TokenBucketRateLimiter κ) (key : κ) (budget : Budget) (now : ℚ) :
    limiter.tryAcquire key budget.rate budget.capacity now =
      ((limiter.acquire key budget.rate budget.capacity now).1.isNone,
        (limiter.acquire key budget.rate budget.capacity now).2) := by
  have hstored : (limiter.refill key budget.rate budget.effective budget.initial now).2 =
      limiter.store key ⟨limiter.level key budget now, now⟩ := rfl
  rw [acquire_eq]
  unfold tryAcquire
  rw [if_neg (not_le_of_gt budget.rate_pos)]
  show (if limiter.level key budget now < 1 then
      (false, (limiter.refill key budget.rate budget.effective budget.initial now).2)
    else (true, (limiter.refill key budget.rate budget.effective budget.initial now).2.take key)) = _
  rw [hstored, take_store]
  by_cases hlevel : 1 ≤ limiter.level key budget now
  · rw [if_neg (not_lt_of_ge hlevel), if_pos hlevel]
    rfl
  · rw [if_pos (lt_of_not_ge hlevel), if_neg hlevel]
    rfl

theorem level_of_some {limiter : TokenBucketRateLimiter κ} {key : κ} {bucket : Bucket}
    (h : limiter.buckets key = some bucket) (budget : Budget) (now : ℚ) :
    limiter.level key budget now =
      min budget.effective (bucket.tokens + (now - bucket.lastRefill) * budget.rate) := by
  unfold level refill
  rw [h]
  rfl

theorem level_of_none {limiter : TokenBucketRateLimiter κ} {key : κ}
    (h : limiter.buckets key = none) (budget : Budget) (now : ℚ) :
    limiter.level key budget now = budget.initial := by
  unfold level refill
  rw [h]
  show min budget.effective (budget.initial + (now - now) * budget.rate) = budget.initial
  rw [sub_self, zero_mul, add_zero, min_eq_right budget.initial_le_effective]

theorem view_store (limiter : TokenBucketRateLimiter κ) (key : κ) (tokens now : ℚ) :
    (limiter.store key ⟨tokens, now⟩).view key = some (tokens, now) := by
  unfold view store
  dsimp only
  rw [Function.update_self]
  rfl

end TokenBucketRateLimiter

open TokenBucketRateLimiter in
theorem inProcess_meters (budget : κ → Budget) :
    Meters (inProcess budget) (fun _ => True) TokenBucketRateLimiter.view (fun now => now)
      (fun key => (budget key).effective) (fun key => (budget key).rate) where
  try_eq limiter key now := limiter.tryAcquire_eq key (budget key) now
  stamp_mono _ _ h := h
  budget key := by
    have hcapacity := (budget key).one_le_effective
    exact ⟨by linarith, le_of_lt (budget key).rate_pos⟩
  stays_good _ _ _ _ := trivial
  others limiter key now other hother := by
    show (limiter.acquire key (budget key).rate (budget key).capacity now).2.view other = _
    have hkept : ∀ bucket, (limiter.store key bucket).view other = limiter.view other := by
      intro bucket
      unfold TokenBucketRateLimiter.view store
      dsimp only
      rw [Function.update_of_ne hother]
    rw [acquire_eq]
    split
    · exact hkept _
    · exact hkept _
  draws limiter key now _ hbefore := by
    refine ⟨limiter.level key (budget key) now, ?_, ?_, ?_, ?_, ?_⟩
    · exact min_le_left _ _
    · intro tokens last hview
      obtain ⟨bucket, hbucket, heq⟩ := Option.map_eq_some_iff.mp hview
      obtain ⟨rfl, rfl⟩ := Prod.mk.inj heq
      rw [level_of_some hbucket, mul_comm (budget key).rate]
      exact min_le_right _ _
    · have hcapacity := (budget key).one_le_effective
      cases hbucket : limiter.buckets key with
      | none =>
        rw [level_of_none hbucket]
        exact le_of_lt (budget key).initial_pos
      | some bucket =>
        have hview : limiter.view key = some (bucket.tokens, bucket.lastRefill) := by
          unfold TokenBucketRateLimiter.view
          rw [hbucket]
          rfl
        obtain ⟨htokens, hlast⟩ := hbefore _ _ hview
        have hpassed : 0 ≤ (now - bucket.lastRefill) * (budget key).rate :=
          mul_nonneg (sub_nonneg.mpr hlast) (le_of_lt (budget key).rate_pos)
        rw [level_of_some hbucket]
        exact le_min (by linarith) (by linarith)
    · intro hgranted
      by_contra hlow
      have hnone : ((inProcess budget).acquire limiter key now).1.isNone = false := by
        show (limiter.acquire key (budget key).rate (budget key).capacity now).1.isNone = false
        rw [acquire_eq, if_neg hlow]
        rfl
      rw [hnone] at hgranted
      cases hgranted
    · show (limiter.acquire key (budget key).rate (budget key).capacity now).2.view key =
        some (if (limiter.acquire key (budget key).rate (budget key).capacity now).1.isNone then _
          else _, now)
      rw [acquire_eq]
      by_cases hlevel : 1 ≤ limiter.level key (budget key) now
      · rw [if_pos hlevel]
        exact view_store _ _ _ _
      · rw [if_neg hlevel]
        exact view_store _ _ _ _

/-! ## Redis -/

namespace Redis

/-- The tokens of a key, and when the script counted them. -/
def view (redis : Redis κ) (key : κ) : Option (ℚ × ℚ) :=
  (redis.hashes key).map fun hash => (hash.tokens, (hash.updatedMs : ℚ) / 1000)

/-- A key expires its time to live after its last script. -/
def Timed (budget : κ → Budget) (redis : Redis κ) : Prop :=
  ∀ key hash, redis.hashes key = some hash →
    hash.expiresMs = hash.updatedMs + ttlMs (budget key).rate (budget key).effective

/-- The tokens that a script finds. -/
def level (redis : Redis κ) (key : κ) (budget : Budget) (instant : Instant) : ℚ :=
  match redis.live key instant with
  | none => budget.initial
  | some hash =>
    min budget.effective
      (hash.tokens + ((max 0 ((instant.nowMs : ℤ) - hash.updatedMs) : ℤ) : ℚ) / 1000 * budget.rate)

/-- What a script stores. -/
def store (redis : Redis κ) (key : κ) (budget : Budget) (tokens : ℚ) (instant : Instant) : Redis κ :=
  { hashes := Function.update redis.hashes key
      (some { tokens, updatedMs := instant.nowMs,
              expiresMs := instant.nowMs + ttlMs budget.rate budget.effective }) }

theorem evalBucket_eq (redis : Redis κ) (key : κ) (budget : Budget) (instant : Instant) :
    redis.evalBucket key budget.rate budget.effective budget.initial instant =
      if 1 ≤ redis.level key budget instant then
        ((1, 0), redis.store key budget (redis.level key budget instant - 1) instant)
      else ((0, ⌈(1 - redis.level key budget instant) / budget.rate * 1000⌉₊),
        redis.store key budget (redis.level key budget instant) instant) := rfl

theorem acquire_eq (redis : Redis κ) (key : κ) (budget : Budget) (instant : Instant) :
    ((redis.acquire key budget.rate budget.capacity instant).1.isNone =
      decide (1 ≤ redis.level key budget instant)) ∧
    (redis.acquire key budget.rate budget.capacity instant).2 =
      redis.store key budget (if 1 ≤ redis.level key budget instant then
        redis.level key budget instant - 1 else redis.level key budget instant) instant := by
  have heval := redis.evalBucket_eq key budget instant
  unfold acquire
  rw [if_neg (not_le_of_gt budget.rate_pos)]
  show (if (redis.evalBucket key budget.rate budget.effective budget.initial instant).1.1 ≠ 0 then
      none else some _).isNone = _ ∧
    (redis.evalBucket key budget.rate budget.effective budget.initial instant).2 = _
  rw [heval]
  by_cases hlevel : 1 ≤ redis.level key budget instant
  · simp [hlevel]
  · simp [hlevel]

theorem tryAcquire_eq (redis : Redis κ) (key : κ) (budget : Budget) (instant : Instant) :
    redis.tryAcquire key budget.rate budget.capacity true instant =
      ((redis.acquire key budget.rate budget.capacity instant).1.isNone,
        (redis.acquire key budget.rate budget.capacity instant).2) := by
  unfold tryAcquire acquire
  rw [if_neg (not_le_of_gt budget.rate_pos), if_neg (not_le_of_gt budget.rate_pos), if_pos rfl]
  dsimp only
  split <;> simp_all

theorem view_store (redis : Redis κ) (key : κ) (budget : Budget) (tokens : ℚ) (instant : Instant) :
    (redis.store key budget tokens instant).view key = some (tokens, instant.stamp) := by
  unfold view store
  dsimp only
  rw [Function.update_self]
  rfl

theorem view_store_of_ne (redis : Redis κ) {key other : κ} (hother : other ≠ key) (budget : Budget)
    (tokens : ℚ) (instant : Instant) :
    (redis.store key budget tokens instant).view other = redis.view other := by
  unfold view store
  dsimp only
  rw [Function.update_of_ne hother]

theorem Timed.store {budget : κ → Budget} {redis : Redis κ} (h : redis.Timed budget) (key : κ)
    (tokens : ℚ) (instant : Instant) : (redis.store key (budget key) tokens instant).Timed budget := by
  intro other hash hhash
  by_cases hother : other = key
  · subst hother
    unfold Redis.store at hhash
    dsimp only at hhash
    rw [Function.update_self] at hhash
    obtain rfl := Option.some.inj hhash
    rfl
  · unfold Redis.store at hhash
    dsimp only at hhash
    rw [Function.update_of_ne hother] at hhash
    exact h other hash hhash

omit [DecidableEq κ] in
/-- A key that is not there was never there, or was due. -/
theorem live_cases (redis : Redis κ) (key : κ) (instant : Instant) :
    (∃ hash, redis.hashes key = some hash ∧ redis.live key instant = some hash) ∨
      (redis.live key instant = none ∧ ∀ hash, redis.hashes key = some hash →
        hash.expiresMs ≤ instant.nowMs) := by
  unfold live
  cases hhash : redis.hashes key with
  | none =>
    refine .inr ⟨rfl, ?_⟩
    intro hash hsome
    cases hsome
  | some hash =>
    by_cases hgone : (instant.purged && hash.expiresMs ≤ instant.nowMs) = true
    · refine .inr ⟨by simp [Option.filter, hgone], ?_⟩
      intro other hsome
      obtain rfl := Option.some.inj hsome
      rw [Bool.and_eq_true] at hgone
      exact of_decide_eq_true hgone.2
    · exact .inl ⟨hash, rfl, by simp [Option.filter, hgone]⟩

/-- In its time to live a bucket fills twice. -/
theorem effective_le_ttl (budget : Budget) :
    budget.effective * 2 ≤ budget.rate * ((ttlMs budget.rate budget.effective : ℚ) / 1000) := by
  have hceil : max 60 (budget.effective / budget.rate * 2) * 1000 ≤
      (ttlMs budget.rate budget.effective : ℚ) := Nat.le_ceil _
  have hmax : budget.effective / budget.rate * 2 ≤ max 60 (budget.effective / budget.rate * 2) :=
    le_max_right _ _
  have htime : budget.effective / budget.rate * 2 ≤
      (ttlMs budget.rate budget.effective : ℚ) / 1000 := by
    rw [le_div_iff₀ (by norm_num)]
    linarith
  calc budget.effective * 2 = budget.rate * (budget.effective / budget.rate * 2) := by
        rw [← mul_assoc, mul_div_cancel₀ _ (ne_of_gt budget.rate_pos)]
    _ ≤ _ := mul_le_mul_of_nonneg_left htime (le_of_lt budget.rate_pos)

omit [DecidableEq κ] in
theorem level_le (redis : Redis κ) (key : κ) (budget : Budget) (instant : Instant) :
    redis.level key budget instant ≤ budget.effective := by
  unfold level
  split
  · exact budget.initial_le_effective
  · exact min_le_left _ _

theorem elapsed_eq {updatedMs : ℕ} {instant : Instant}
    (h : (updatedMs : ℚ) / 1000 ≤ instant.stamp) :
    ((max 0 ((instant.nowMs : ℤ) - updatedMs) : ℤ) : ℚ) / 1000 =
      instant.stamp - (updatedMs : ℚ) / 1000 := by
  have hle : (updatedMs : ℚ) ≤ instant.nowMs := by
    unfold Instant.stamp at h
    rwa [div_le_div_iff_of_pos_right (by norm_num)] at h
  have hnat : updatedMs ≤ instant.nowMs := by exact_mod_cast hle
  rw [max_eq_right (by omega)]
  unfold Instant.stamp
  push_cast
  ring

end Redis

open Redis in
theorem inRedis_meters (budget : κ → Budget) :
    Meters (inRedis budget) (Timed budget) Redis.view Instant.stamp
      (fun key => (budget key).effective) (fun key => (budget key).rate) where
  try_eq redis key instant := redis.tryAcquire_eq key (budget key) instant
  stamp_mono i j h := by
    have hmicros : i.micros ≤ j.micros := by
      have hle : (i.micros : ℚ) / 1000000 ≤ j.micros / 1000000 := h
      rw [div_le_div_iff_of_pos_right (by norm_num)] at hle
      exact_mod_cast hle
    have hms : i.nowMs ≤ j.nowMs := Nat.div_le_div_right hmicros
    unfold Instant.stamp
    rw [div_le_div_iff_of_pos_right (by norm_num)]
    exact_mod_cast hms
  budget key := by
    have hcapacity := (budget key).one_le_effective
    exact ⟨by linarith, le_of_lt (budget key).rate_pos⟩
  stays_good redis key instant h := by
    show Timed budget (redis.acquire key (budget key).rate (budget key).capacity instant).2
    rw [(redis.acquire_eq key (budget key) instant).2]
    exact h.store key _ instant
  others redis key instant other hother := by
    show (redis.acquire key (budget key).rate (budget key).capacity instant).2.view other = _
    rw [(redis.acquire_eq key (budget key) instant).2]
    exact redis.view_store_of_ne hother _ _ _
  draws redis key instant htimed hbefore := by
    have hcapacity := (budget key).one_le_effective
    have hrate := (budget key).rate_pos
    have hview : ∀ hash, redis.hashes key = some hash →
        redis.view key = some (hash.tokens, (hash.updatedMs : ℚ) / 1000) := by
      intro hash hhash
      unfold Redis.view
      rw [hhash]
      rfl
    refine ⟨redis.level key (budget key) instant, redis.level_le key (budget key) instant,
      ?_, ?_, ?_, ?_⟩
    · intro tokens last hbucket
      obtain ⟨hash, hhash, heq⟩ := Option.map_eq_some_iff.mp hbucket
      obtain ⟨rfl, rfl⟩ := Prod.mk.inj heq
      obtain ⟨htokens, hlast⟩ := hbefore _ _ hbucket
      rcases redis.live_cases key instant with ⟨live, hlive, hfound⟩ | ⟨hgone, hdue⟩
      · obtain rfl : hash = live := Option.some.inj (hhash.symm.trans hlive)
        unfold level
        rw [hfound]
        dsimp only
        rw [elapsed_eq hlast, mul_comm (instant.stamp - _)]
        exact min_le_right _ _
      · -- the key was idle for its time to live
        have hexpired := hdue hash hhash
        rw [htimed key hash hhash] at hexpired
        have hidle : (ttlMs (budget key).rate (budget key).effective : ℚ) / 1000 ≤
            instant.stamp - (hash.updatedMs : ℚ) / 1000 := by
          have hcast : (hash.updatedMs : ℚ) + ttlMs (budget key).rate (budget key).effective ≤
              instant.nowMs := by exact_mod_cast hexpired
          unfold Instant.stamp
          linarith
        have hfull := effective_le_ttl (budget key)
        have hfilled := mul_le_mul_of_nonneg_left hidle (le_of_lt hrate)
        have hinitial := (budget key).initial_le_effective
        unfold level
        rw [hgone]
        dsimp only
        linarith
    · rcases redis.live_cases key instant with ⟨live, hlive, hfound⟩ | ⟨hgone, -⟩
      · obtain ⟨htokens, hlast⟩ := hbefore _ _ (hview live hlive)
        have hpassed : 0 ≤ (instant.stamp - (live.updatedMs : ℚ) / 1000) * (budget key).rate :=
          mul_nonneg (sub_nonneg.mpr hlast) (le_of_lt hrate)
        unfold level
        rw [hfound]
        dsimp only
        rw [elapsed_eq hlast]
        exact le_min (by linarith) (by linarith)
      · unfold level
        rw [hgone]
        exact le_of_lt (budget key).initial_pos
    · intro hgranted
      have hallowed := (redis.acquire_eq key (budget key) instant).1
      exact of_decide_eq_true (hallowed.symm.trans hgranted)
    · have hstored := (redis.acquire_eq key (budget key) instant).2
      have hallowed := (redis.acquire_eq key (budget key) instant).1
      show (redis.acquire key (budget key).rate (budget key).capacity instant).2.view key =
        some (if (redis.acquire key (budget key).rate (budget key).capacity instant).1.isNone then _
          else _, instant.stamp)
      rw [hstored, view_store, hallowed]
      simp only [decide_eq_true_eq]

/-! ## Any window -/

/-- In every run of either limiter, whoever calls and however, the tokens stay within
the capacity, and no window sees more grants than the capacity and what comes in. -/
theorem never_over_grants (budget : κ → Budget) {world : World (TokenBucketRateLimiter κ) κ ℚ ℚ}
    {remote : World (Redis κ) κ Instant ℚ}
    (hrun : Run (World.step (inProcess budget)) anyStep { state := {} } world)
    (hremote : Run (World.step (inRedis budget)) anyStep { state := {} } remote) (key : κ) :
    ((∀ bucket, world.state.buckets key = some bucket →
        0 ≤ bucket.tokens ∧ bucket.tokens ≤ (budget key).effective) ∧
      ∀ start stop : ℚ, start ≤ stop →
        (grantsIn (fun now => now) key start stop world.log : ℚ) ≤
          (budget key).effective + (budget key).rate * (stop - start)) ∧
    (∀ hash, remote.state.hashes key = some hash →
        0 ≤ hash.tokens ∧ hash.tokens ≤ (budget key).effective) ∧
      ∀ start stop : ℚ, start ≤ stop →
        (grantsIn Instant.stamp key start stop remote.log : ℚ) ≤
          (budget key).effective + (budget key).rate * (stop - start) := by
  obtain ⟨htokens, hgrants⟩ :=
    (inProcess_meters budget).run_spent trivial (fun _ => rfl) hrun key
  have htimed : Redis.Timed budget {} := by
    intro key hash hhash
    cases hhash
  obtain ⟨hremoteTokens, hremoteGrants⟩ :=
    (inRedis_meters budget).run_spent htimed (fun _ => rfl) hremote key
  refine ⟨⟨?_, hgrants⟩, ?_, hremoteGrants⟩
  · intro bucket hbucket
    apply htokens bucket.tokens bucket.lastRefill
    unfold TokenBucketRateLimiter.view
    rw [hbucket]
    rfl
  · intro hash hhash
    apply hremoteTokens hash.tokens ((hash.updatedMs : ℚ) / 1000)
    unfold Redis.view
    rw [hhash]
    rfl

theorem halfRate_pos : (0 : ℚ) < 1 / 2 := by norm_num

/-- Two tokens at once, and one every two seconds. -/
def pairEveryFour : Unit → Budget := fun _ =>
  { rate := 1 / 2
    capacity := some 2
    rate_pos := halfRate_pos
    capacity_ge := fun c hc => by
      obtain rfl := Option.some.inj hc
      norm_num }

theorem never_over_grants_burst : ∃ (world : World (TokenBucketRateLimiter Unit) Unit ℚ ℚ)
    (remote : World (Redis Unit) Unit Instant ℚ),
    grantsIn (fun now => now) () 0 2 world.log = 3 ∧
    grantsIn Instant.stamp () 0 200 remote.log = 3 ∧
    ((∀ bucket, world.state.buckets () = some bucket →
        0 ≤ bucket.tokens ∧ bucket.tokens ≤ (pairEveryFour ()).effective) ∧
      ∀ start stop : ℚ, start ≤ stop →
        (grantsIn (fun now => now) () start stop world.log : ℚ) ≤
          (pairEveryFour ()).effective + (pairEveryFour ()).rate * (stop - start)) ∧
    (∀ hash, remote.state.hashes () = some hash →
        0 ≤ hash.tokens ∧ hash.tokens ≤ (pairEveryFour ()).effective) ∧
      ∀ start stop : ℚ, start ≤ stop →
        (grantsIn Instant.stamp () start stop remote.log : ℚ) ≤
          (pairEveryFour ()).effective + (pairEveryFour ()).rate * (stop - start) := by
  obtain ⟨world, hworld, hgrants⟩ := @exists_of_exec _ _ (World.step (inProcess pairEveryFour))
    { state := {} }
    [(0, .tryAcquire ()), (0, .acquire 7 ()), (1, .acquire 8 ()), (2, .wake 8)]
    (fun world => grantsIn (fun now => now) () 0 2 world.log = 3) _ (by decide +kernel)
  obtain ⟨remote, hremote, hremoteGrants⟩ := @exists_of_exec _ _
    (World.step (inRedis pairEveryFour)) { state := {} }
    [(⟨0, false⟩, .tryAcquire ()), (⟨200, false⟩, .acquire 7 ()),
      (⟨100000000, true⟩, .tryAcquire ())]
    (fun remote => grantsIn Instant.stamp () 0 200 remote.log = 3) _ (by decide +kernel)
  exact ⟨world, remote, hgrants, hremoteGrants,
    never_over_grants pairEveryFour (run_of_exec hworld) (run_of_exec hremote) ()⟩

end Ekip.Shared.RateLimiter
