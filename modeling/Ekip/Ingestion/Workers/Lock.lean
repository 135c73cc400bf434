import Ekip.Lib.Run

/-!
# `ingestion/workers/tasks.py`: one sync of a connector at a time

`_acquire_connector_lock` is `SET key token NX EX ttl` and `_release_connector_lock` a script
that deletes the key if the token is its own. Attempts of any number of workers take their
steps in any order while the clock of the store goes on. An attempt may die between any two
steps, and a command may take effect and its answer be lost.
-/
namespace Ekip.Ingestion.Workers.Lock

open Ekip.Lib

def maxBackoffSeconds : Nat := 300

def ttl (ingestionJobTimeoutSeconds : Nat) : Nat := ingestionJobTimeoutSeconds + maxBackoffSeconds

structure Entry where
  token : Nat
  expiresAt : Nat

/-- What an attempt keeps of its lock. -/
structure Held (κ : Type) where
  key : κ
  token : Nat
  since : Nat

variable {ω κ : Type}

structure St (ω κ : Type) where
  now : Nat := 0
  store : κ → Option Entry := fun _ => none
  holds : ω → Option (Held κ) := fun _ => none
  /-- So many tokens were drawn; no `uuid4` comes twice. -/
  drawn : Nat := 0

inductive Label (ω κ : Type)
  /-- Without an answer the attempt raises, and the command has taken effect. -/
  | acquire (attempt : ω) (key : κ) (answered : Bool)
  /-- Unless the script is reached, the key is left to its time to live. -/
  | release (attempt : ω) (reached : Bool)
  | tick (seconds : Nat)

/-- A key is gone once its time is over. -/
def St.live (s : St ω κ) (key : κ) : Option Entry := (s.store key).filter fun entry => s.now < entry.expiresAt

variable [DecidableEq ω] [DecidableEq κ] (timeout : Nat)

def step (s : St ω κ) : Label ω κ → Option (St ω κ)
  | .acquire attempt key answered =>
    if (s.holds attempt).isSome then none
    else if (s.live key).isSome then some { s with drawn := s.drawn + 1 }
    else some
      { s with
        store := fun k => if k = key then some ⟨s.drawn, s.now + ttl timeout⟩ else s.store k
        holds := fun a => if a = attempt ∧ answered then some ⟨key, s.drawn, s.now⟩ else s.holds a
        drawn := s.drawn + 1 }
  | .release attempt reached =>
    match s.holds attempt with
    | none => none
    | some held => some
      { s with
        store := fun k =>
          if k = held.key ∧ reached ∧ (s.live k).any (·.token = held.token) then none else s.store k
        holds := fun a => if a = attempt then none else s.holds a }
  | .tick seconds => some { s with now := s.now + seconds }

section Invariant

variable {timeout} {s s' : St ω κ} {label : Label ω κ}

/-- Tokens tell attempts apart, and a lock stands in the store until its time is over. -/
structure Inv (timeout : Nat) (s : St ω κ) : Prop where
  drawn : ∀ attempt held, s.holds attempt = some held → held.token < s.drawn
  distinct : ∀ a b held held', s.holds a = some held → s.holds b = some held' → held.token = held'.token → a = b
  stored : ∀ key entry, s.store key = some entry → entry.token < s.drawn ∧ entry.expiresAt ≤ s.now + ttl timeout
  stands : ∀ attempt held, s.holds attempt = some held → s.now < held.since + ttl timeout →
    s.store held.key = some ⟨held.token, held.since + ttl timeout⟩

theorem inv_step (h : Inv timeout s) (hstep : step timeout s label = some s') : Inv timeout s' := by
  obtain ⟨hdrawn, hdistinct, hstored, hstands⟩ := h
  cases label with
  | acquire attempt key answered =>
    dsimp only [step] at hstep
    repeat' split at hstep
    · cases hstep
    · obtain rfl := Option.some.inj hstep
      exact
        { drawn := fun a held hheld => Nat.lt_succ_of_lt (hdrawn a held hheld)
          distinct := hdistinct
          stored := fun k entry hk => ⟨Nat.lt_succ_of_lt (hstored k entry hk).1, (hstored k entry hk).2⟩
          stands := hstands }
    · rename_i hdead
      obtain rfl := Option.some.inj hstep
      -- whoever still has time would be found in the store
      have hover : ∀ entry, s.store key = some entry → ¬ s.now < entry.expiresAt := by
        intro entry hentry hlive
        exact hdead (by simp [St.live, hentry, hlive])
      refine ⟨?drawn, ?distinct, ?stored, ?stands⟩
      case drawn =>
        intro a held hheld
        dsimp only at hheld
        split at hheld
        · obtain rfl := Option.some.inj hheld
          exact Nat.lt_succ_self _
        · exact Nat.lt_succ_of_lt (hdrawn a held hheld)
      case distinct =>
        intro a b held held' ha hb htoken
        dsimp only at ha hb
        split at ha <;> split at hb
        · rename_i ha' hb'
          rw [ha'.1, hb'.1]
        -- the token drawn now was not drawn before
        · obtain rfl := Option.some.inj ha
          exact absurd htoken.symm (Nat.ne_of_lt (hdrawn b held' hb))
        · obtain rfl := Option.some.inj hb
          exact absurd htoken (Nat.ne_of_lt (hdrawn a held ha))
        · exact hdistinct a b held held' ha hb htoken
      case stored =>
        intro k entry hk
        dsimp only at hk
        split at hk
        · obtain rfl := Option.some.inj hk
          exact ⟨Nat.lt_succ_self _, Nat.le_refl _⟩
        · exact ⟨Nat.lt_succ_of_lt (hstored k entry hk).1, (hstored k entry hk).2⟩
      case stands =>
        intro a held hheld htime
        dsimp only at hheld
        split at hheld
        · obtain rfl := Option.some.inj hheld
          exact if_pos rfl
        · have hentry := hstands a held hheld htime
          have hkey : held.key ≠ key := by
            intro hkey
            rw [hkey] at hentry
            exact hover _ hentry htime
          exact (if_neg hkey).trans hentry
  | release attempt reached =>
    dsimp only [step] at hstep
    split at hstep
    · cases hstep
    · rename_i released hreleased
      obtain rfl := Option.some.inj hstep
      have hholds : ∀ a held, (if a = attempt then none else s.holds a) = some held →
          a ≠ attempt ∧ s.holds a = some held := by
        intro a held hheld
        split at hheld
        · cases hheld
        · exact ⟨‹_›, hheld⟩
      refine ⟨?drawn, ?distinct, ?stored, ?stands⟩
      case drawn => exact fun a held hheld => hdrawn a held (hholds a held hheld).2
      case distinct =>
        intro a b held held' ha hb htoken
        exact hdistinct a b held held' (hholds a held ha).2 (hholds b held' hb).2 htoken
      case stored =>
        intro k entry hk
        dsimp only at hk
        split at hk
        · cases hk
        · exact hstored k entry hk
      case stands =>
        intro a held hheld htime
        obtain ⟨hne, hheld⟩ := hholds a held hheld
        have hentry := hstands a held hheld htime
        dsimp only
        split
        · rename_i hdeleted
          -- the script deletes only what has its own token
          have htoken : held.token = released.token := by
            simpa [St.live, hentry, htime] using hdeleted.2.2
          exact absurd (hdistinct a attempt held released hheld hreleased htoken) hne
        · exact hentry
  | tick seconds =>
    obtain rfl := Option.some.inj hstep
    exact
      { drawn := hdrawn
        distinct := hdistinct
        stored := fun k entry hk => ⟨(hstored k entry hk).1, by have := (hstored k entry hk).2; dsimp only; omega⟩
        stands := fun a held hheld htime =>
          hstands a held hheld (Nat.lt_of_le_of_lt (Nat.le_add_right _ _) htime) }

theorem inv_of_run (h : Run (step timeout) anyStep ({} : St ω κ) s) : Inv timeout s :=
  h.invariant (fun _ _ _ hinv _ hstep => inv_step hinv hstep) (by constructor <;> simp)

end Invariant

variable {timeout} {s s' : St ω κ} {a b : ω} {held held' : Held κ}

/-- Whoever syncs, dies or loses an answer at whatever time, two attempts are at the same
connector only after one of them has outlived the time to live: a worker cancels its jobs
`maxBackoffSeconds` earlier. -/
theorem syncs_apart (h : Run (step timeout) anyStep ({} : St ω κ) s) (ha : s.holds a = some held)
    (hb : s.holds b = some held') (hkey : held.key = held'.key) (hne : a ≠ b) :
    held.since + ttl timeout ≤ s.now ∨ held'.since + ttl timeout ≤ s.now := by
  have hinv := inv_of_run h
  by_contra hboth
  obtain ⟨hfirst, hsecond⟩ := not_or.mp hboth
  have hstore := hinv.stands a held ha (Nat.lt_of_not_le hfirst)
  have hstore' := hinv.stands b held' hb (Nat.lt_of_not_le hsecond)
  rw [← hkey, hstore] at hstore'
  exact hne (hinv.distinct a b held held' ha hb (Entry.mk.inj (Option.some.inj hstore')).1)

/-- An attempt that gives back its lock, however late, leaves the lock of any other; and what
stands in the store after a crash is gone after the time to live, so that anyone can begin. -/
theorem release_and_recovery (h : Run (step timeout) anyStep ({} : St ω κ) s) :
    (∀ reached s', step timeout s (.release a reached : Label ω κ) = some s' → s.holds b = some held → a ≠ b →
      s.now < held.since + ttl timeout → s'.holds b = some held ∧
        s'.live held.key = some ⟨held.token, held.since + ttl timeout⟩) ∧
    ∀ key, s.holds a = none → ∃ s', exec (step timeout) s [.tick (ttl timeout), .acquire a key true] = some s' ∧
      s'.holds a = some ⟨key, s.drawn, s'.now⟩ := by
  have hinv := inv_of_run h
  refine ⟨fun reached s' hstep hb hne htime => ?_, fun key hidle => ?_⟩
  · have hstands := hinv.stands b held hb htime
    have hdistinct := hinv.distinct
    dsimp only [step] at hstep
    split at hstep
    · cases hstep
    · obtain rfl := Option.some.inj hstep
      grind [St.live]
  · have hgone : ({ s with now := s.now + ttl timeout } : St ω κ).live key = none := by
      unfold St.live
      cases hentry : s.store key with
      | none => rfl
      | some entry =>
        have hends := (hinv.stored key entry hentry).2
        exact Option.filter_eq_none_iff.mpr fun found hfound => by grind
    have hacquire : step timeout { s with now := s.now + ttl timeout } (.acquire a key true) = some
        { now := s.now + ttl timeout
          store := fun k => if k = key then some ⟨s.drawn, s.now + ttl timeout + ttl timeout⟩ else s.store k
          holds := fun other => if other = a then some ⟨key, s.drawn, s.now + ttl timeout⟩ else s.holds other
          drawn := s.drawn + 1 } := by
      simp [step, hidle, hgone]
    have hruns := Option.bind_eq_some_iff.mpr ⟨_, hacquire, rfl⟩
    exact ⟨_, Option.bind_eq_some_iff.mpr ⟨_, rfl, hruns⟩, if_pos rfl⟩

/-- The first attempt overruns its time, and a second begins. -/
def overrun : List (Label Bool Unit) :=
  [.acquire true () true, .tick (ttl 300), .acquire false () true]

theorem overrun_run : ∃ (s : St Bool Unit) (held held' : Held Unit), exec (step 300) {} overrun = some s ∧
    s.holds true = some held ∧ s.holds false = some held' ∧ s.now < held'.since + ttl 300 ∧
      ∃ s', step 300 s (.release true true : Label Bool Unit) = some s' ∧ s'.holds true = none :=
  ⟨_, _, _, rfl, rfl, rfl, by decide, _, rfl, rfl⟩

theorem syncs_apart_overrun : ∃ (s : St Bool Unit) (held held' : Held Unit), s.holds true = some held ∧
    s.holds false = some held' ∧ (held.since + ttl 300 ≤ s.now ∨ held'.since + ttl 300 ≤ s.now) := by
  obtain ⟨s, held, held', hrun, htrue, hfalse, -⟩ := overrun_run
  exact ⟨s, held, held', htrue, hfalse, syncs_apart (run_of_exec hrun) htrue hfalse rfl (by decide)⟩

theorem release_and_recovery_overrun : ∃ (s s' : St Bool Unit) (held' : Held Unit),
    step 300 s (.release true true : Label Bool Unit) = some s' ∧
      s'.live held'.key = some ⟨held'.token, held'.since + ttl 300⟩ := by
  obtain ⟨s, held, held', hrun, htrue, hfalse, htime, s', hstep, -⟩ := overrun_run
  have hlate := (release_and_recovery (run_of_exec hrun)).1 true s' hstep hfalse (by decide) htime
  exact ⟨s, s', held', hstep, hlate.2⟩

end Ekip.Ingestion.Workers.Lock
