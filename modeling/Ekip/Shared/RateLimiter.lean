import Mathlib.Data.Rat.Floor
import Ekip.Lib.TokenBucket

/-!
# The rate limiters: `shared/rate_limiter.py`, `shared/distributed_rate_limiter.py`

A token bucket for each key, in the process or in Redis. Times and tokens are exact
fractions. The in-process limiter reads a clock in seconds; the script reads the clock
of Redis in microseconds and rounds it down to milliseconds.
-/
namespace Ekip.Shared.RateLimiter

open Ekip.Lib Ekip.Lib.TokenBucket

variable {κ : Type} [DecidableEq κ]

/-- `max(rate, 1.0) if capacity is None else capacity`. -/
def effectiveCapacity (rate : ℚ) (capacity : Option ℚ) : ℚ := capacity.getD (max rate 1)

/-- What a key starts with that was never seen. -/
def initialTokens (rate : ℚ) (capacity : Option ℚ) : ℚ := capacity.getD rate

/-- A rate that throttles, and a capacity that lets a token in. -/
structure Budget where
  rate : ℚ
  capacity : Option ℚ
  rate_pos : 0 < rate
  capacity_ge : ∀ c ∈ capacity, 1 ≤ c

namespace Budget

variable (budget : Budget)

def effective : ℚ := effectiveCapacity budget.rate budget.capacity

def initial : ℚ := initialTokens budget.rate budget.capacity

theorem one_le_effective : 1 ≤ budget.effective := by
  unfold effective effectiveCapacity
  cases hcapacity : budget.capacity with
  | none => exact le_max_right _ _
  | some c => exact budget.capacity_ge c hcapacity

theorem initial_le_effective : budget.initial ≤ budget.effective := by
  unfold initial effective initialTokens effectiveCapacity
  cases budget.capacity with
  | none => exact le_max_left _ _
  | some c => exact le_refl c

theorem initial_pos : 0 < budget.initial := by
  unfold initial initialTokens
  cases hcapacity : budget.capacity with
  | none => exact budget.rate_pos
  | some c => exact lt_of_lt_of_le zero_lt_one (budget.capacity_ge c hcapacity)

end Budget

/-! ## In the process -/

structure Bucket where
  tokens : ℚ
  lastRefill : ℚ

/-- `_buckets`. -/
structure TokenBucketRateLimiter (κ : Type) where
  buckets : κ → Option Bucket := fun _ => none

namespace TokenBucketRateLimiter

def store (limiter : TokenBucketRateLimiter κ) (key : κ) (bucket : Bucket) :
    TokenBucketRateLimiter κ :=
  { buckets := Function.update limiter.buckets key (some bucket) }

/-- `_refill`, at `now`. -/
def refill (limiter : TokenBucketRateLimiter κ) (key : κ) (rate capacity initial now : ℚ) :
    ℚ × TokenBucketRateLimiter κ :=
  let bucket := (limiter.buckets key).getD ⟨initial, now⟩
  let elapsed := now - bucket.lastRefill
  let tokens := min capacity (bucket.tokens + elapsed * rate)
  (tokens, limiter.store key ⟨tokens, now⟩)

/-- What both modes do with the stored bucket when it has a token. -/
def take (limiter : TokenBucketRateLimiter κ) (key : κ) : TokenBucketRateLimiter κ :=
  match limiter.buckets key with
  | some bucket => limiter.store key { bucket with tokens := bucket.tokens - 1 }
  | none => limiter

/-- One pass of the loop of `acquire`: the seconds to sleep, unless it returned. -/
def acquire (limiter : TokenBucketRateLimiter κ) (key : κ) (rate : ℚ) (capacity : Option ℚ)
    (now : ℚ) : Option ℚ × TokenBucketRateLimiter κ :=
  if rate ≤ 0 then (none, limiter)
  else
    let (tokens, limiter) :=
      limiter.refill key rate (effectiveCapacity rate capacity) (initialTokens rate capacity) now
    if 1 ≤ tokens then (none, limiter.take key) else (some ((1 - tokens) / rate), limiter)

def tryAcquire (limiter : TokenBucketRateLimiter κ) (key : κ) (rate : ℚ) (capacity : Option ℚ)
    (now : ℚ) : Bool × TokenBucketRateLimiter κ :=
  if rate ≤ 0 then (true, limiter)
  else
    let (tokens, limiter) :=
      limiter.refill key rate (effectiveCapacity rate capacity) (initialTokens rate capacity) now
    if tokens < 1 then (false, limiter) else (true, limiter.take key)

end TokenBucketRateLimiter

/-! ## In Redis -/

/-- The hash of a key, and when the key expires. -/
structure Hash where
  tokens : ℚ
  updatedMs : ℕ
  expiresMs : ℕ
deriving DecidableEq

/-- When a script runs, and whether Redis holds keys that are due for gone. -/
structure Instant where
  micros : ℕ
  purged : Bool

def Instant.nowMs (instant : Instant) : ℕ := instant.micros / 1000

structure Redis (κ : Type) where
  hashes : κ → Option Hash := fun _ => none

namespace Redis

/-- `HMGET`: a key that is due may be gone. -/
def live (redis : Redis κ) (key : κ) (instant : Instant) : Option Hash :=
  (redis.hashes key).filter fun hash => !(instant.purged && hash.expiresMs ≤ instant.nowMs)

/-- `_TOKEN_BUCKET_SCRIPT`. -/
def script (redis : Redis κ) (key : κ) (rate capacity initial : ℚ) (ttlMs : ℕ)
    (instant : Instant) : (ℕ × ℕ) × Redis κ :=
  let nowMs := instant.nowMs
  let tokens :=
    match redis.live key instant with
    | none => initial
    | some hash =>
      let elapsedSeconds := ((max 0 ((nowMs : ℤ) - hash.updatedMs) : ℤ) : ℚ) / 1000
      min capacity (hash.tokens + elapsedSeconds * rate)
  let store (tokens : ℚ) : Redis κ :=
    { hashes := Function.update redis.hashes key
        (some { tokens, updatedMs := nowMs, expiresMs := nowMs + ttlMs }) }
  if 1 ≤ tokens then ((1, 0), store (tokens - 1))
  else ((0, ⌈(1 - tokens) / rate * 1000⌉₊), store tokens)

/-- The time to live of `_eval_bucket`. -/
def ttlMs (rate capacity : ℚ) : ℕ := ⌈max 60 (capacity / rate * 2) * 1000⌉₊

def evalBucket (redis : Redis κ) (key : κ) (rate capacity initial : ℚ) (instant : Instant) :
    (ℕ × ℕ) × Redis κ :=
  redis.script key rate capacity initial (ttlMs rate capacity) instant

/-- One pass of the loop of `acquire`: the seconds to sleep, unless it returned. -/
def acquire (redis : Redis κ) (key : κ) (rate : ℚ) (capacity : Option ℚ) (instant : Instant) :
    Option ℚ × Redis κ :=
  if rate ≤ 0 then (none, redis)
  else
    let ((allowed, waitMs), redis) := redis.evalBucket key rate (effectiveCapacity rate capacity)
      (initialTokens rate capacity) instant
    (if allowed ≠ 0 then none else some ((max waitMs 1 : ℕ) / 1000), redis)

/-- A Redis that cannot be reached lets everything through. -/
def tryAcquire (redis : Redis κ) (key : κ) (rate : ℚ) (capacity : Option ℚ) (reachable : Bool)
    (instant : Instant) : Bool × Redis κ :=
  if rate ≤ 0 then (true, redis)
  else if reachable then
    let ((allowed, _), redis) := redis.evalBucket key rate (effectiveCapacity rate capacity)
      (initialTokens rate capacity) instant
    (allowed ≠ 0, redis)
  else (true, redis)

end Redis

/-! ## The limiters with their clocks -/

/-- A budget for each key. -/
def inProcess (budget : κ → Budget) : Limiter (TokenBucketRateLimiter κ) κ ℚ ℚ where
  tryAcquire limiter key now := limiter.tryAcquire key (budget key).rate (budget key).capacity now
  acquire limiter key now := limiter.acquire key (budget key).rate (budget key).capacity now
  time now := now

/-- A Redis that answers. -/
def inRedis (budget : κ → Budget) : Limiter (Redis κ) κ Instant ℚ where
  tryAcquire redis key instant :=
    redis.tryAcquire key (budget key).rate (budget key).capacity true instant
  acquire redis key instant := redis.acquire key (budget key).rate (budget key).capacity instant
  time instant := instant.micros / 1000000

/-- The time that the script sees, in seconds. -/
def Instant.stamp (instant : Instant) : ℚ := (instant.nowMs : ℚ) / 1000

end Ekip.Shared.RateLimiter
