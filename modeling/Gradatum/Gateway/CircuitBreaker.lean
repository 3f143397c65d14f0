import Mathlib.Algebra.Order.Ring.Nat

/-!
# Circuit breakers

Closed lets everything through and counts failures, open refuses until the cooldown has elapsed, half-open
lets one request through.  Instants and durations are nanoseconds.
-/

namespace Gradatum.Gateway

/-! ## 1. Errors of a backend -/

abbrev ProviderId := String

inductive LlmError
  | network (source : String)
  | timeout (elapsedSecs : Nat)
  | http (status : Nat) (body : String)
  | invalidRequest (message : String)
  | unauthorized (message : String)
  | forbidden (message : String)
  | notFound (message : String)
  | rateLimited (retryAfterSecs : Option Nat) (message : String)
  | quotaExceeded (message : String)
  | upstreamError (status : Nat) (message : String)
  | providerUnavailable (provider : ProviderId) (reason : String)
  | allProvidersFailed (attempts : List String)
  | serialization (source : String)
  | toolValidation (toolName reason : String)
  | custom (message : String)
  deriving DecidableEq

def countsAsCircuitFailure : LlmError → Bool
  | .network _ | .timeout _ | .rateLimited _ _ | .upstreamError _ _ => true
  | _ => false

/-! ## 2. One breaker -/

inductive CircuitState
  | closed
  | open
  | halfOpen
  deriving DecidableEq

structure CircuitBreakerConfig where
  threshold : Nat
  window : Nat
  cooldown : Nat

def CircuitBreakerConfig.default : CircuitBreakerConfig :=
  { threshold := 5, window := 60 * 10 ^ 9, cooldown := 30 * 10 ^ 9 }

/-- `Inner`, what the mutex of a breaker protects. -/
structure CircuitBreaker where
  state : CircuitState
  failureTimestamps : List Nat
  openedAt : Option Nat
  halfOpenProbeInFlight : Bool
  deriving DecidableEq

namespace CircuitBreaker

def new : CircuitBreaker :=
  { state := .closed, failureTimestamps := [], openedAt := none, halfOpenProbeInFlight := false }

variable (config : CircuitBreakerConfig) (now : Nat) (b : CircuitBreaker)

def evaluateStateTransition : CircuitBreaker :=
  match b.state, b.openedAt with
  | .open, some openedAt =>
    if config.cooldown ≤ now - openedAt then
      { b with state := .halfOpen, halfOpenProbeInFlight := false }
    else b
  | _, _ => b

def shouldAllow : Bool × CircuitBreaker :=
  let b := b.evaluateStateTransition config now
  match b.state with
  | .closed => (true, b)
  | .open => (false, b)
  | .halfOpen =>
    if b.halfOpenProbeInFlight then (false, b)
    else (true, { b with halfOpenProbeInFlight := true })

def recordSuccess : CircuitBreaker :=
  match b.state with
  | .closed => { b with failureTimestamps := [] }
  | .halfOpen => new
  | .open => b

def evictStaleFailures (timestamps : List Nat) : List Nat :=
  timestamps.filter fun ts => now - ts < config.window

def recordFailure (error : LlmError) (b : CircuitBreaker) : CircuitBreaker :=
  if !countsAsCircuitFailure error then b
  else
    match b.state with
    | .closed =>
      let timestamps := evictStaleFailures config now (b.failureTimestamps ++ [now])
      if config.threshold ≤ timestamps.length then
        { b with state := .open, openedAt := some now, failureTimestamps := [] }
      else { b with failureTimestamps := timestamps }
    | .halfOpen =>
      { state := .open, openedAt := some now, halfOpenProbeInFlight := false
        failureTimestamps := [] }
    | .open => { b with openedAt := some now }

/-! ## 3. What the calls do to the state -/

variable {config now}

theorem shouldAllow_cases (config : CircuitBreakerConfig) (now : Nat) (b : CircuitBreaker) :
    (b.shouldAllow config now = (true, b) ∧ b.state = .closed) ∨
      (∃ b', b.shouldAllow config now = (false, b') ∧ ((b' = b ∧ b.state = .open) ∨
          (b' = b ∧ b.state = .halfOpen ∧ b.halfOpenProbeInFlight = true))) ∨
      ∃ b', b.shouldAllow config now = (true, b') ∧ b'.state = .halfOpen ∧
        b'.halfOpenProbeInFlight = true := by
  unfold shouldAllow evaluateStateTransition
  rcases b with ⟨state, timestamps, openedAt, probe⟩
  cases state with
  | closed => exact .inl ⟨rfl, rfl⟩
  | «open» =>
    cases openedAt with
    | none => exact .inr (.inl ⟨_, rfl, .inl ⟨rfl, rfl⟩⟩)
    | some at' =>
      dsimp only
      by_cases hcool : config.cooldown ≤ now - at'
      · rw [if_pos hcool]
        exact .inr (.inr ⟨_, rfl, rfl, rfl⟩)
      · rw [if_neg hcool]
        exact .inr (.inl ⟨_, rfl, .inl ⟨rfl, rfl⟩⟩)
  | halfOpen =>
    cases probe with
    | false => exact .inr (.inr ⟨_, rfl, rfl, rfl⟩)
    | true => exact .inr (.inl ⟨_, rfl, .inr ⟨rfl, rfl, rfl⟩⟩)

/-- What `should_allow` lets through: everything but an open breaker that still cools down and a
half-open one with its probe in flight. -/
theorem shouldAllow_of_cooled {b : CircuitBreaker}
    (hopen : b.state = .open → ∃ at', b.openedAt = some at' ∧ at' + config.cooldown ≤ now)
    (hprobe : b.state = .halfOpen → b.halfOpenProbeInFlight = false) :
    (b.shouldAllow config now).1 = true := by
  unfold shouldAllow evaluateStateTransition
  rcases b with ⟨state, timestamps, openedAt, probe⟩
  cases state with
  | closed => rfl
  | «open» =>
    obtain ⟨at', hat, hcool⟩ := hopen rfl
    cases hat
    have helapsed : config.cooldown ≤ now - at' := by omega
    simp [helapsed]
  | halfOpen =>
    have hprobe' := hprobe rfl
    dsimp only at hprobe'
    subst hprobe'
    rfl

theorem recordSuccess_state {b : CircuitBreaker} (h : b.state ≠ .open) :
    b.recordSuccess.state = .closed := by
  rcases b with ⟨state, timestamps, openedAt, probe⟩
  cases state with
  | closed => rfl
  | «open» => exact absurd rfl h
  | halfOpen => rfl

theorem recordSuccess_ne_halfOpen : b.recordSuccess.state ≠ .halfOpen := by
  rcases b with ⟨state, timestamps, openedAt, probe⟩
  intro h
  cases state with
  | closed | «open» | halfOpen => cases h

theorem recordSuccess_of_open {b : CircuitBreaker} (h : b.recordSuccess.state = .open) :
    b.recordSuccess = b := by
  rcases b with ⟨state, timestamps, openedAt, probe⟩
  cases state with
  | closed => cases h
  | «open» => rfl
  | halfOpen => cases h

theorem recordFailure_of_uncounted {b : CircuitBreaker} (h : countsAsCircuitFailure e = false) :
    b.recordFailure config now e = b := by
  simp [recordFailure, h]

theorem recordFailure_of_counted (config : CircuitBreakerConfig) (now : Nat) (b : CircuitBreaker)
    (h : countsAsCircuitFailure e = true) : (b.recordFailure config now e).state = .closed ∨
      ((b.recordFailure config now e).state = .open ∧
        (b.recordFailure config now e).openedAt = some now) := by
  unfold recordFailure
  rw [h]
  rcases b with ⟨state, timestamps, openedAt, probe⟩
  cases state with
  | closed =>
    dsimp only
    split
    · contradiction
    · split
      · exact .inr ⟨rfl, rfl⟩
      · exact .inl rfl
  | «open» | halfOpen => exact .inr ⟨rfl, rfl⟩

end CircuitBreaker

end Gradatum.Gateway
