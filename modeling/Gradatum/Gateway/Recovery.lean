import Gradatum.Gateway.Reports

/-!
# Recovery from the circuit breakers

The gateway as a pool of requests over the registry of breakers, with a clock.  What a request remembers and
the time of the last counted failure are ghosts.  In every run a half-open breaker with its probe in flight
is owed a report by some request.
-/

open Reasoning

namespace Gradatum.Gateway

open Function List CircuitBreaker

/-! ## 1. The gateway -/

/-- The configuration: the breakers, slot passthrough, the providers of the pool, and the timeouts of the
providers that are configured. -/
structure Config where
  circuit : CircuitBreakerConfig
  enableSlotPassthrough : Bool
  pool : ProviderId → Bool
  providers : ProviderId → Option Nat

/-- `CircuitBreakerRegistry` with the clock; a breaker that is not there yet is a new one.
`lastFailure` is the time of the last counted failure. -/
structure Registry where
  now : Nat
  breakers : ProviderId → CircuitBreaker
  lastFailure : ProviderId → Option Nat

namespace Registry

variable (circuit : CircuitBreakerConfig) (r : Registry) (p : ProviderId)

def shouldAllow : Bool × Registry :=
  let (allowed, b) := (r.breakers p).shouldAllow circuit r.now
  (allowed, { r with breakers := update r.breakers p b })

def recordSuccess : Registry :=
  { r with breakers := update r.breakers p (r.breakers p).recordSuccess }

def recordFailure (e : LlmError) : Registry :=
  { r with
    breakers := update r.breakers p ((r.breakers p).recordFailure circuit r.now e)
    lastFailure :=
      if countsAsCircuitFailure e then update r.lastFailure p (some r.now)
      else r.lastFailure }

end Registry

/-- A request that was let through to a provider, as its half-open probe or not. -/
structure Attempt where
  provider : ProviderId
  probe : Bool
  deriving DecidableEq

/-- What the backends answer to the call that a request makes next. -/
structure Backend where
  complete : Except LlmError (Option Usage)
  stream : Except LlmError Unit
  post : PostOutcome

variable (g : Config) (s : System)

def exec : Exec Op Op.Answer Registry (Option Attempt) Backend
  | _, .shouldAllow p, r, _ =>
    let (allowed, r') := r.shouldAllow g.circuit p
    (allowed, r', if allowed then some ⟨p, decide ((r'.breakers p).state = .halfOpen)⟩ else none)
  | _, .recordSuccess p, r, memo => ((), r.recordSuccess p, memo)
  | _, .recordFailure p e, r, memo => ((), r.recordFailure g.circuit p e, memo)
  | _, .poolGet p, r, memo => (g.pool p, r, memo)
  | _, .configGet p, r, memo => (g.providers p, r, memo)
  | backend, .complete _ _, r, memo => (backend.complete, r, memo)
  | backend, .stream _ _, r, memo => (backend.stream, r, memo)
  | backend, .post _ _ _, r, memo => (backend.post, r, memo)

abbrev Request := Thread Op Op.Answer (Option Attempt) Handled

abbrev System := Pool Op Op.Answer Registry (Option Attempt) Handled

inductive Event
  | tick (elapsed : Nat)
  | request (call : Call)
  | advance (i : Nat) (backend : Backend)
  /-- The body of the stream that request `i` was answered with yields an error. -/
  | chunkError (i : Nat) (e : LlmError)

def step : Event → System
  | .tick elapsed => { s with shared := { s.shared with now := s.shared.now + elapsed } }
  | .request call => s.spawn none (call.handle g.enableSlotPassthrough)
  | .advance i backend => s.advance (exec g) i backend
  | .chunkError i e =>
    match s.threads[i]? with
    | some ⟨_, .done ⟨_, some p⟩⟩ => { s with shared := s.shared.recordFailure g.circuit p e }
    | _ => s

def System.start (now : Nat) : System :=
  { shared := { now := now, breakers := fun _ => .new, lastFailure := fun _ => none }, threads := [] }

/-! ## 2. Recovery -/

/-- The request was let through to `p` and has not ended. -/
def inFlightTo (p : ProviderId) (t : Request) : Bool :=
  t.rest.result?.isNone && t.memo.map Attempt.provider == some p

/-- The request was let through as the half-open probe of `p` and has not ended. -/
def probeOf (p : ProviderId) (t : Request) : Bool :=
  t.rest.result?.isNone && t.memo == some ⟨p, true⟩

/-- If nothing is in flight to a provider and the cooldown has elapsed since its last counted failure,
the provider is allowed. -/
def Recovers : Prop :=
  ∀ p, (∀ t ∈ s.threads, inFlightTo p t = false) →
    (∀ failedAt, s.shared.lastFailure p = some failedAt →
      failedAt + g.circuit.cooldown ≤ s.shared.now) →
    (s.shared.shouldAllow g.circuit p).1 = true

/-- A step with which a request that was let through as the probe of `p` ends with a response leaves the
breaker of `p` closed. -/
def ProbeCloses (e : Event) : Prop :=
  ∀ (i : Nat) (p : ProviderId) (t : Request) (handled : Handled),
    s.threads[i]? = some t → t.rest.result? = none →
    (step g s e).threads[i]? = some (⟨some ⟨p, true⟩, .done handled⟩ : Request) →
    handled.result.isOk = true → ((step g s e).shared.breakers p).state = .closed

def noOtherProbe (i : Nat) (p : ProviderId) : Bool :=
  (s.threads.eraseIdx i).all fun t => !probeOf p t

/-- The condition on a step: the lookups and the backend give a probe an answer that settles it, and no
counted failure is reported for a provider while another request is its probe. -/
def orderly : Event → Bool
  | .advance i backend =>
    match s.threads[i]? with
    | some ⟨memo, .call op _⟩ =>
      (!memo.any Attempt.probe || op.settles (exec g backend op s.shared memo).1) &&
        match op with
        | .recordFailure p e => !countsAsCircuitFailure e || noOtherProbe s i p
        | _ => true
    | _ => true
  | .chunkError i e =>
    match s.threads[i]? with
    | some ⟨_, .done ⟨_, some p⟩⟩ => !countsAsCircuitFailure e || noOtherProbe s i p
    | _ => true
  | _ => true

/-! ## 3. The invariant -/

/-- `phases` says where each request stands.  A half-open breaker with its probe in flight is owed a
report by that probe; an open one was opened, or kept open, by its last counted failure; and a breaker
whose probe is in flight is not open. -/
structure Owed (phases : Nat → Phase) (s : System) : Prop where
  conforms : ∀ i (t : Request), s.threads[i]? = some t →
    t.rest.Conforms protocol (fun q handled => Reported q handled.result) (phases i)
  attends : ∀ i (t : Request) p, s.threads[i]? = some t → phases i = .owes p →
    t.memo.map Attempt.provider = some p
  probe : ∀ p, (s.shared.breakers p).state = .halfOpen →
    (s.shared.breakers p).halfOpenProbeInFlight = true →
      ∃ i, ∃ t : Request, s.threads[i]? = some t ∧ t.memo = some ⟨p, true⟩ ∧ phases i = .owes p
  opened : ∀ p, (s.shared.breakers p).state = .open →
    ∃ failedAt, (s.shared.breakers p).openedAt = some failedAt ∧
      s.shared.lastFailure p = some failedAt
  shut : ∀ i (t : Request) p, s.threads[i]? = some t → t.memo = some ⟨p, true⟩ → phases i = .owes p →
    (s.shared.breakers p).state ≠ .open

theorem owed_start (now : Nat) : Owed (fun _ => .idle) (System.start now) where
  conforms _ _ h := by simp [System.start] at h
  attends _ _ _ h := by simp [System.start] at h
  probe _ h := by simp [System.start, CircuitBreaker.new] at h
  opened _ h := by simp [System.start, CircuitBreaker.new] at h
  shut _ _ _ h := by simp [System.start] at h

theorem result?_of_owes {x : Dispatch Handled}
    (h : x.Conforms protocol (fun q handled => Reported q handled.result) (.owes p)) :
    x.result? = none := by
  cases x with
  | call op next => rfl
  | done handled =>
    rcases handled with ⟨_ | _, _⟩
    · cases h
    · obtain ⟨_, h⟩ := h
      cases h

variable {g : Config} {phases : Nat → Phase} {s : System} {p : ProviderId} {e : LlmError}

section

variable (h : Owed phases s)

include h

theorem Owed.probeOf (ht : s.threads[i]? = some t)
    (hmemo : t.memo = some ⟨p, true⟩) (hphase : phases i = .owes p) : probeOf p t = true := by
  have hrun := result?_of_owes (hphase ▸ h.conforms i t ht)
  simp [Gateway.probeOf, hrun, hmemo]

theorem Owed.eq_of_noOtherProbe (hsole : noOtherProbe s i p = true)
    (ht : s.threads[j]? = some t) (hmemo : t.memo = some ⟨p, true⟩) (hphase : phases j = .owes p) :
    j = i := by
  by_contra hj
  have hmem : t ∈ s.threads.eraseIdx i := mem_eraseIdx_iff_getElem?.2 ⟨j, hj, ht⟩
  have hnot := all_eq_true.1 hsole t hmem
  rw [h.probeOf ht hmemo hphase] at hnot
  cases hnot

/-- Recovery from the invariant: with nothing in flight to the provider no probe is, and an open breaker
was opened by its last counted failure. -/
theorem Owed.recovers : Recovers g s := by
  intro p hquiet hcool
  show ((s.shared.breakers p).shouldAllow g.circuit s.shared.now).1 = true
  apply shouldAllow_of_cooled
  · intro hopen
    obtain ⟨failedAt, hat, hlast⟩ := h.opened p hopen
    exact ⟨failedAt, hat, hcool failedAt hlast⟩
  intro hhalf
  by_contra hflag
  obtain ⟨i, t, ht, hmemo, hphase⟩ := h.probe p hhalf (by simpa using hflag)
  have hrun := result?_of_owes (hphase ▸ h.conforms i t ht)
  have hquiet' := hquiet t (mem_of_getElem? ht)
  simp [inFlightTo, hrun, hmemo] at hquiet'

theorem Owed.probe_other (hi : phases i ≠ .owes p)
    (hhalf : (s.shared.breakers p).state = .halfOpen)
    (hflag : (s.shared.breakers p).halfOpenProbeInFlight = true) :
    ∃ j, ∃ t : Request, j ≠ i ∧ s.threads[j]? = some t ∧ t.memo = some ⟨p, true⟩ ∧
      phases j = .owes p := by
  obtain ⟨j, t, ht, hmemo, hphase⟩ := h.probe p hhalf hflag
  refine ⟨j, t, ?_, ht, hmemo, hphase⟩
  rintro rfl
  exact hi hphase

/-- The step rule of the invariant for a request `i` that makes a call about the provider `p`: what has to
be shown of the breaker of `p` and of the request itself. -/
theorem Owed.set (hi : s.threads[i]? = some ⟨memo, rest⟩)
    (hconf : rest'.Conforms protocol (fun q handled => Reported q handled.result) q')
    (hbef : ∀ p', phases i = .owes p' → p' = p)
    (hatt : ∀ p', q' = .owes p' → p' = p ∧ memo'.map Attempt.provider = some p)
    (hother : ∀ p', p' ≠ p → r'.breakers p' = s.shared.breakers p' ∧
      r'.lastFailure p' = s.shared.lastFailure p')
    (hprobe : (r'.breakers p).state = .halfOpen → (r'.breakers p).halfOpenProbeInFlight = true →
      memo' = some ⟨p, true⟩ ∧ q' = .owes p ∨
        ∃ j, ∃ t : Request, j ≠ i ∧ s.threads[j]? = some t ∧ t.memo = some ⟨p, true⟩ ∧ phases j = .owes p)
    (hopene : (r'.breakers p).state = .open →
      ∃ failedAt, (r'.breakers p).openedAt = some failedAt ∧ r'.lastFailure p = some failedAt)
    (hself : memo' = some ⟨p, true⟩ → q' = .owes p → (r'.breakers p).state ≠ .open)
    (hoth : ∀ j (t : Request), j ≠ i → s.threads[j]? = some t → t.memo = some ⟨p, true⟩ →
      phases j = .owes p → (r'.breakers p).state ≠ .open) :
    Owed (update phases i q') ⟨r', s.threads.set i ⟨memo', rest'⟩⟩ := by
  have hlt : i < s.threads.length := (List.getElem?_eq_some_iff.1 hi).1
  have hself? : (s.threads.set i ⟨memo', rest'⟩)[i]? = some ⟨memo', rest'⟩ := by simp [hlt]
  have hother? : ∀ j t, j ≠ i → ((s.threads.set i ⟨memo', rest'⟩)[j]? = some t ↔
      s.threads[j]? = some t) := by
    intro j t hj
    rw [getElem?_set_ne (Ne.symm hj)]
  constructor
  · intro j t ht
    by_cases hj : j = i
    · subst hj
      cases hself?.symm.trans ht
      simpa using hconf
    · rw [update_of_ne hj]
      exact h.conforms j t ((hother? j t hj).1 ht)
  · intro j t p' ht hphase
    by_cases hj : j = i
    · subst hj
      cases hself?.symm.trans ht
      obtain ⟨rfl, hmemo⟩ := hatt p' (by simpa using hphase)
      exact hmemo
    · rw [update_of_ne hj] at hphase
      exact h.attends j t p' ((hother? j t hj).1 ht) hphase
  · intro p' hhalf hflag
    suffices hprobe' : memo' = some ⟨p', true⟩ ∧ q' = .owes p' ∨ ∃ j, ∃ t : Request, j ≠ i ∧
        s.threads[j]? = some t ∧ t.memo = some ⟨p', true⟩ ∧ phases j = .owes p' by
      rcases hprobe' with ⟨hmemo, hq⟩ | ⟨j, t, hj, ht, hmemo, hphase⟩
      · exact ⟨i, _, hself?, hmemo, by simpa using hq⟩
      · exact ⟨j, t, (hother? j t hj).2 ht, hmemo, by rwa [update_of_ne hj]⟩
    by_cases hp : p' = p
    · subst hp
      exact hprobe hhalf hflag
    rw [(hother p' hp).1] at hhalf hflag
    exact .inr (h.probe_other (fun howes => hp (hbef p' howes)) hhalf hflag)
  · intro p' hopen
    by_cases hp : p' = p
    · subst hp
      exact hopene hopen
    rw [(hother p' hp).1] at hopen ⊢
    rw [(hother p' hp).2]
    exact h.opened p' hopen
  · intro j t p' ht hmemo hphase
    by_cases hj : j = i
    · subst hj
      cases hself?.symm.trans ht
      rw [update_self] at hphase
      obtain ⟨rfl, -⟩ := hatt p' hphase
      exact hself hmemo hphase
    rw [update_of_ne hj] at hphase
    replace ht := (hother? j t hj).1 ht
    by_cases hp : p' = p
    · subst hp
      exact hoth j t hj ht hmemo hphase
    · rw [(hother p' hp).1]
      exact h.shut j t p' ht hmemo hphase

/-- The rule where the request owes nothing and the registry stays as it is. -/
theorem Owed.keep (hi : s.threads[i]? = some ⟨memo, rest⟩)
    (hconf : rest'.Conforms protocol (fun q handled => Reported q handled.result) q')
    (hidle : ∀ p', phases i ≠ .owes p')
    (hatt : ∀ p', q' = .owes p' → p' = p ∧ memo'.map Attempt.provider = some p)
    (hself : memo' = some ⟨p, true⟩ → q' = .owes p → (s.shared.breakers p).state ≠ .open) :
    Owed (update phases i q') ⟨s.shared, s.threads.set i ⟨memo', rest'⟩⟩ :=
  h.set hi hconf (fun p' howes => absurd howes (hidle p')) hatt (fun _ _ => ⟨rfl, rfl⟩)
    (fun hhalf hflag => .inr (h.probe_other (hidle p) hhalf hflag)) (h.opened p) hself
    fun j t _ => h.shut j t p

end

/-! ## 4. The steps -/

section Steps

variable {i : Nat}

section

variable (h : Owed phases s)

include h

theorem Owed.asks (hi : s.threads[i]? = some ⟨memo, .call op resume⟩)
    (hphase : phases i = .owes p)
    (hconf : (resume ans).Conforms protocol (fun q handled => Reported q handled.result)
      (if op.settles ans then .owes p else .idle))
    (hset : ∀ p, memo = some ⟨p, true⟩ → op.settles ans = true) :
    Owed (update phases i (if op.settles ans then .owes p else .idle))
      ⟨s.shared, s.threads.set i ⟨memo, resume ans⟩⟩ := by
  refine h.set hi hconf (fun p' howes => (Phase.owes.inj (hphase.symm.trans howes)).symm) ?_
    (fun _ _ => ⟨rfl, rfl⟩) ?_ (h.opened p) (fun hmemo _ => h.shut i _ p hi hmemo hphase)
    fun j t _ => h.shut j t p
  · intro p' hq
    cases hans : op.settles ans with
    | false => simp [hans] at hq
    | true =>
      rw [if_pos hans] at hq
      cases hq
      exact ⟨rfl, h.attends i _ p hi hphase⟩
  · intro hhalf hflag
    obtain ⟨j, t, ht, hmemo, hj⟩ := h.probe p hhalf hflag
    by_cases hji : j = i
    · subst hji
      cases hi.symm.trans ht
      exact .inl ⟨hmemo, by simp [hset p hmemo]⟩
    · exact .inr ⟨j, t, hji, ht, hmemo, hj⟩

theorem Owed.recordSuccess
    (hi : s.threads[i]? = some ⟨memo, .call (.recordSuccess p) resume⟩) (hphase : phases i = .owes p)
    (hconf : (resume ()).Conforms protocol (fun q handled => Reported q handled.result)
      (.succeeded p)) : Owed (update phases i (.succeeded p))
      ⟨s.shared.recordSuccess p, s.threads.set i ⟨memo, resume ()⟩⟩ := by
  have hself : (s.shared.recordSuccess p).breakers p = (s.shared.breakers p).recordSuccess :=
    update_self ..
  refine h.set hi hconf (fun p' howes => (Phase.owes.inj (hphase.symm.trans howes)).symm)
    (fun _ hq => nomatch hq) (fun p' hp => ⟨update_of_ne hp _ _, rfl⟩) ?_ ?_ (fun _ hq => nomatch hq) ?_
  · intro hhalf _
    rw [hself] at hhalf
    exact absurd hhalf (recordSuccess_ne_halfOpen _)
  · intro hopen
    rw [hself] at hopen ⊢
    have hsame := recordSuccess_of_open hopen
    rw [hsame] at hopen ⊢
    exact h.opened p hopen
  · intro j t hj ht hmemo hphase'
    rw [hself, recordSuccess_state (h.shut j t p ht hmemo hphase')]
    decide

/-- A failure is reported by a request that owes nothing, or just this report, and that owes nothing
afterwards. -/
theorem Owed.recordFailure (hi : s.threads[i]? = some ⟨memo, rest⟩)
    (hphase : ∀ p', phases i = .owes p' → p' = p ∧ countsAsCircuitFailure e = true)
    (hnext : ∀ p', q' ≠ .owes p')
    (hconf : rest'.Conforms protocol (fun q handled => Reported q handled.result) q')
    (hsole : countsAsCircuitFailure e = true → noOtherProbe s i p = true) : Owed (update phases i q')
      ⟨s.shared.recordFailure g.circuit p e, s.threads.set i ⟨memo, rest'⟩⟩ := by
  have hself : (s.shared.recordFailure g.circuit p e).breakers p =
      (s.shared.breakers p).recordFailure g.circuit s.shared.now e := update_self ..
  have hlast : ∀ p', p' ≠ p →
      (s.shared.recordFailure g.circuit p e).lastFailure p' = s.shared.lastFailure p' := by
    intro p' hp
    simp only [Registry.recordFailure]
    split
    · exact update_of_ne hp _ _
    · rfl
  cases hcnts : countsAsCircuitFailure e with
  | false =>
    -- a failure that is not counted leaves the registry as it is
    have hsame : s.shared.recordFailure g.circuit p e = s.shared := by
      simp [Registry.recordFailure, recordFailure_of_uncounted hcnts, hcnts]
    rw [hsame]
    refine h.keep (p := p) hi hconf (fun p' howes => ?_) (fun p' hq => absurd hq (hnext p'))
      fun _ hq => absurd hq (hnext p)
    cases hcnts.symm.trans (hphase p' howes).2
  | true =>
    have hstate := recordFailure_of_counted g.circuit s.shared.now
      (s.shared.breakers p) hcnts
    rw [← hself] at hstate
    refine h.set hi hconf (fun p' howes => (hphase p' howes).1) (fun p' hq => absurd hq (hnext p'))
      (fun p' hp => ⟨update_of_ne hp _ _, hlast p' hp⟩) ?_ ?_ (fun _ hq => absurd hq (hnext p)) ?_
    · intro hhalf _
      rcases hstate with hclos | ⟨hopen, -⟩
      · cases hclos.symm.trans hhalf
      · cases hopen.symm.trans hhalf
    · intro hopen
      rcases hstate with hclos | ⟨-, hat⟩
      · cases hclos.symm.trans hopen
      · exact ⟨_, hat, by simp [Registry.recordFailure, hcnts]⟩
    · intro j t hj ht hmemo howes
      exact absurd (h.eq_of_noOtherProbe (hsole hcnts) ht hmemo howes) hj

theorem Owed.shouldAllow {next : Bool → Dispatch Handled}
    (hi : s.threads[i]? = some ⟨memo, .call (.shouldAllow p) next⟩) (hphase : phases i = .idle)
    (hconf : ∀ allowed, (next allowed).Conforms protocol
      (fun q handled => Reported q handled.result) (if allowed then .owes p else .idle)) :
    let (allowed, r') := s.shared.shouldAllow g.circuit p
    Owed (update phases i (if allowed then .owes p else .idle)) ⟨r', s.threads.set i
        ⟨if allowed then some ⟨p, decide ((r'.breakers p).state = .halfOpen)⟩ else none,
          next allowed⟩⟩ := by
  have hidle : ∀ p', phases i ≠ .owes p' := fun p' howes => nomatch hphase.symm.trans howes
  have howes : ∀ probe p', Phase.owes p = .owes p' →
      p' = p ∧ (some (Attempt.mk p probe)).map Attempt.provider = some p := by
    rintro probe _ ⟨⟩
    exact ⟨rfl, rfl⟩
  rcases shouldAllow_cases g.circuit s.shared.now (s.shared.breakers p) with
    ⟨hallow, hclos⟩ | ⟨b', hallow, hrefus⟩ | ⟨b', hallow, hhalf, hflag⟩
  · have hreg : s.shared.shouldAllow g.circuit p = (true, s.shared) := by
      simp [Registry.shouldAllow, hallow]
    rw [hreg]
    exact h.keep hi (hconf true) hidle (howes _) fun _ _ => by simp [hclos]
  · have hsame : b' = s.shared.breakers p := by
      rcases hrefus with ⟨hb, -⟩ | ⟨hb, -⟩
      · exact hb
      · exact hb
    have hreg : s.shared.shouldAllow g.circuit p = (false, s.shared) := by
      simp [Registry.shouldAllow, hallow, hsame]
    rw [hreg]
    exact h.keep (p := p) hi (hconf false) hidle (fun _ hq => nomatch hq) fun hmemo => nomatch hmemo
  · -- the request is the probe
    have hreg : s.shared.shouldAllow g.circuit p =
        (true, { s.shared with breakers := update s.shared.breakers p b' }) := by
      simp [Registry.shouldAllow, hallow]
    rw [hreg]
    refine h.set hi (hconf true) (fun p' hq => absurd hq (hidle p')) (howes _)
      (fun p' hp => ⟨update_of_ne hp _ _, rfl⟩) (fun _ _ => .inl ⟨by simp [hhalf], rfl⟩) ?_ ?_ ?_
    all_goals simp [hhalf]

theorem Owed.advance (hord : orderly g s (.advance i backend) = true) :
    ∃ phases', Owed phases' (s.advance (exec g) i backend) := by
  rcases Pool.advance_cases (exec g) s i backend with hsame | ⟨memo, op, next, hi, hstep⟩
  · rw [hsame]
    exact ⟨phases, h⟩
  rw [hstep]
  simp only [orderly, hi, Bool.and_eq_true, Bool.or_eq_true, Bool.not_eq_true'] at hord
  obtain ⟨hset, hsole⟩ := hord
  have hset : ∀ p, memo = some ⟨p, true⟩ →
      op.settles (exec g backend op s.shared memo).1 = true := by
    rintro p rfl
    simpa using hset
  have hconf := h.conforms i _ hi
  have hidle : ∀ p', Phase.idle ≠ .owes p' := fun p' hq => nomatch hq
  cases hphase : phases i with
  | idle =>
    rw [hphase] at hconf
    cases op with
    | shouldAllow p =>
      refine ⟨_, h.shouldAllow hi hphase fun allowed => ?_⟩
      cases allowed with
      | false => obtain ⟨_, ⟨⟩, hnext⟩ := hconf false; exact hnext
      | true => obtain ⟨_, ⟨⟩, hnext⟩ := hconf true; exact hnext
    | recordFailure p e =>
      obtain ⟨_, ⟨⟩, hnext⟩ := hconf ()
      exact ⟨_, h.recordFailure hi (fun p' howes => nomatch hphase.symm.trans howes) hidle
        hnext fun hcnts => by simpa [hcnts] using hsole⟩
    | recordSuccess p => obtain ⟨_, ⟨⟩, _⟩ := hconf ()
    | poolGet p => obtain ⟨_, ⟨⟩, _⟩ := hconf true
    | configGet p => obtain ⟨_, ⟨⟩, _⟩ := hconf none
    | complete p m => obtain ⟨_, ⟨⟩, _⟩ := hconf (.ok none)
    | stream p m => obtain ⟨_, ⟨⟩, _⟩ := hconf (.ok ())
    | post p m embeds => obtain ⟨_, ⟨⟩, _⟩ := hconf .timedOut
  | owes p =>
    rw [hphase] at hconf
    cases op with
    | shouldAllow q => obtain ⟨_, ⟨⟩, _⟩ := hconf true
    | recordSuccess q =>
      obtain ⟨q', hq', hnext⟩ := hconf ()
      simp only [protocol, Option.ite_none_right_eq_some, Option.some.injEq] at hq'
      obtain ⟨rfl, rfl⟩ := hq'
      exact ⟨_, h.recordSuccess hi hphase hnext⟩
    | recordFailure q e =>
      obtain ⟨q', hq', hnext⟩ := hconf ()
      simp only [protocol, Option.ite_none_right_eq_some, Option.some.injEq] at hq'
      obtain ⟨⟨rfl, hcnts⟩, rfl⟩ := hq'
      refine ⟨_, h.recordFailure hi (fun p' howes => ?_) hidle hnext fun hcnts => by
        simpa [hcnts] using hsole⟩
      exact ⟨(Phase.owes.inj (hphase.symm.trans howes)).symm, hcnts⟩
    | poolGet q =>
      obtain ⟨_, ⟨⟩, hnext⟩ := hconf (g.pool q)
      exact ⟨_, h.asks hi hphase hnext hset⟩
    | configGet q =>
      obtain ⟨_, ⟨⟩, hnext⟩ := hconf (g.providers q)
      exact ⟨_, h.asks hi hphase hnext hset⟩
    | complete q m =>
      obtain ⟨_, ⟨⟩, hnext⟩ := hconf backend.complete
      exact ⟨_, h.asks hi hphase hnext hset⟩
    | stream q m =>
      obtain ⟨_, ⟨⟩, hnext⟩ := hconf backend.stream
      exact ⟨_, h.asks hi hphase hnext hset⟩
    | post q m embeds =>
      obtain ⟨_, ⟨⟩, hnext⟩ := hconf backend.post
      exact ⟨_, h.asks hi hphase hnext hset⟩
  | succeeded p =>
    -- nothing follows the report of a success
    rw [hphase] at hconf
    cases op with
    | shouldAllow | poolGet => obtain ⟨_, ⟨⟩, _⟩ := hconf true
    | recordSuccess | recordFailure => obtain ⟨_, ⟨⟩, _⟩ := hconf ()
    | configGet q => obtain ⟨_, ⟨⟩, _⟩ := hconf none
    | complete q m => obtain ⟨_, ⟨⟩, _⟩ := hconf (.ok none)
    | stream q m => obtain ⟨_, ⟨⟩, _⟩ := hconf (.ok ())
    | post q m embeds => obtain ⟨_, ⟨⟩, _⟩ := hconf .timedOut

theorem Owed.chunkError (hord : orderly g s (.chunkError i e) = true) :
    ∃ phases', Owed phases' (step g s (.chunkError i e)) := by
  simp only [step]
  split
  · next memo result p hi =>
      -- the request has ended, so it is in the pool as it was
      have hset : s.threads.set i ⟨memo, .done ⟨result, some p⟩⟩ = s.threads := by
        obtain ⟨hlt, hget⟩ := List.getElem?_eq_some_iff.1 hi
        rw [← hget]
        exact set_getElem_self hlt
      have hconf := h.conforms i _ hi
      have hphase : ∀ p', phases i ≠ .owes p' := by
        intro p' howes
        rw [howes] at hconf
        cases result?_of_owes hconf
      have hsole : countsAsCircuitFailure e = true → noOtherProbe s i p = true := by
        intro hcnts
        simpa [orderly, hi, hcnts] using hord
      have howed := h.recordFailure (g := g) hi (fun p' howes => absurd howes (hphase p')) hphase
        hconf hsole
      rw [hset] at howed
      exact ⟨_, howed⟩
  · exact ⟨phases, h⟩

theorem Owed.spawn (hx : x.Conforms protocol (fun q handled => Reported q handled.result) .idle) :
    ∃ phases', Owed phases' (s.spawn none x) := by
  refine ⟨update phases s.threads.length .idle, ?_, ?_, ?_, h.opened, ?_⟩
  · intro j t ht
    rcases Pool.spawn_cases ht with ⟨hj, ht⟩ | ⟨rfl, rfl⟩
    · rw [update_of_ne hj]
      exact h.conforms j t ht
    · rw [update_self]
      exact hx
  · intro j t p ht hphase
    rcases Pool.spawn_cases ht with ⟨hj, ht⟩ | ⟨rfl, rfl⟩
    · rw [update_of_ne hj] at hphase
      exact h.attends j t p ht hphase
    · rw [update_self] at hphase
      cases hphase
  · intro p hhalf hflag
    obtain ⟨j, t, ht, hmemo, hphase⟩ := h.probe p hhalf hflag
    have hlt : j < s.threads.length := (List.getElem?_eq_some_iff.1 ht).1
    refine ⟨j, t, Pool.getElem?_spawn ht, hmemo, ?_⟩
    rw [update_of_ne (by omega)]
    exact hphase
  · intro j t p ht hmemo hphase
    rcases Pool.spawn_cases ht with ⟨hj, ht⟩ | ⟨rfl, rfl⟩
    · rw [update_of_ne hj] at hphase
      exact h.shut j t p ht hmemo hphase
    · cases hmemo

theorem Owed.after (hord : orderly g s event = true) :
    ∃ phases', Owed phases' (step g s event) := by
  cases event with
  | tick elapsed => exact ⟨phases, h.conforms, h.attends, h.probe, h.opened, h.shut⟩
  | request call => exact h.spawn (conforms_handle _ call)
  | advance i backend => exact h.advance hord
  | chunkError i e => exact h.chunkError hord

theorem reported_last (hi : s.threads[i]? = some ⟨memo, .call op resume⟩)
    (hnext : resume ans = .done handled) (hok : handled.result.isOk = true) :
    ∃ p, op = .recordSuccess p ∧ phases i = .owes p := by
  obtain ⟨q', hq', hrep⟩ := h.conforms i _ hi ans
  rw [hnext] at hrep
  rcases handled with ⟨_ | _, streamsFrom⟩
  · cases hok
  obtain ⟨p, rfl⟩ := hrep
  exact ⟨p, protocol_eq_succeeded hq'⟩

theorem Owed.probeCloses (event : Event) : ProbeCloses g s event := by
  intro i p t handled ht hrun hended hok
  cases event with
  | tick elapsed =>
    cases ht.symm.trans hended
    cases hrun
  | request call =>
    cases (Pool.getElem?_spawn ht).symm.trans hended
    cases hrun
  | chunkError j e =>
    have hsame : (step g s (.chunkError j e)).threads = s.threads := by
      simp only [step]
      split <;> rfl
    rw [hsame] at hended
    cases ht.symm.trans hended
    cases hrun
  | advance j backend =>
    simp only [step] at hended ⊢
    rcases Pool.advance_cases (exec g) s j backend with hsame | ⟨memo, op, next, hj, hstep⟩
    · rw [hsame] at hended
      cases ht.symm.trans hended
      cases hrun
    rw [hstep] at hended ⊢
    dsimp only at hended ⊢
    by_cases hij : i = j
    · subst hij
      have hlt : i < s.threads.length := (List.getElem?_eq_some_iff.1 ht).1
      rw [getElem?_set_self hlt] at hended
      obtain ⟨hmemo, hnext⟩ := Thread.mk.inj (Option.some.inj hended)
      -- the last call is the report of the success, on the provider of the probe
      obtain ⟨p', rfl, hphase⟩ := reported_last h hj hnext hok
      have hatt := h.attends i _ p' hj hphase
      simp only [exec] at hmemo
      subst hmemo
      cases hatt
      show (update s.shared.breakers p (s.shared.breakers p).recordSuccess p).state = _
      rw [update_self]
      exact recordSuccess_state (h.shut i _ p hj rfl hphase)
    · rw [getElem?_set_ne (Ne.symm hij)] at hended
      cases ht.symm.trans hended
      cases hrun

end

end Steps

/-! ## 5. Runs -/

def oneProvider : Config :=
  { circuit := .default, enableSlotPassthrough := false
    pool := fun p => p == "main"
    providers := fun p => if p == "main" then some 30 else none }

def chatCall : Call := .chat ⟨"main", "qwen", none, none⟩ false false false

def answers (answer : Except LlmError (Option Usage)) : Backend :=
  { complete := answer, stream := .ok (), post := .timedOut }

/-- Request `i` is answered and runs to its end: it is let through, looked up, answered and, if it fails,
reported twice. -/
def failedCall (i : Nat) (e : LlmError) : List Event :=
  .request chatCall :: List.replicate 5 (.advance i (answers (.error e)))

def tripped : List Event :=
  failedCall 0 (.network "reset") ++ failedCall 1 (.network "reset") ++
    failedCall 2 (.network "reset")

def answeredProbe : List Event :=
  tripped ++ .tick (30 * 10 ^ 9) :: .request chatCall ::
    List.replicate 4 (.advance 3 (answers (.ok none)))

/-- In every run of requests, backend answers and passing time whose steps are orderly, every provider
recovers, and a probe that succeeds closes its breaker. -/
theorem recovers_of_orderly (g : Config) (now : Nat) (events : List Event)
    (h : EachStep (step g) (fun s e => orderly g s e = true) (System.start now) events) :
    Always (step g) (Recovers g) (System.start now) events ∧
      EachStep (step g) (ProbeCloses g) (System.start now) events := by
  let Inv (s : System) : Prop := ∃ phases, Owed phases s
  have hstart : Inv (System.start now) := ⟨_, owed_start now⟩
  have hstep : ∀ s e, Inv s → orderly g s e = true → Inv (step g s e) := by
    rintro s e ⟨phases, howed⟩ hord
    exact howed.after hord
  constructor
  · intro pre hpre
    obtain ⟨phases, howed⟩ := (h.restrict hpre).inv_run hstart hstep
    exact howed.recovers
  refine h.imp_of_inv hstart hstep ?_
  rintro s e ⟨phases, howed⟩ -
  exact howed.probeCloses e

theorem recovers_answeredProbe :
    EachStep (step oneProvider) (fun s e => orderly oneProvider s e = true) (System.start 0)
        answeredProbe ∧
      Always (step oneProvider) (Recovers oneProvider) (System.start 0) answeredProbe ∧
      EachStep (step oneProvider) (ProbeCloses oneProvider) (System.start 0) answeredProbe :=
  ⟨by decide, recovers_of_orderly oneProvider 0 answeredProbe (by decide)⟩

/-- After the cooldown the probe is answered with an error that no breaker counts. -/
def unauthorizedProbe : List Event :=
  tripped ++ [.tick (30 * 10 ^ 9)] ++ failedCall 3 (.unauthorized "expired key") ++
    [.tick (30 * 10 ^ 9)]

/-- A request that was let through before the breaker opened, and the probe of the half-open breaker. -/
def overtakenProbe : List Event :=
  [.request chatCall, .advance 0 (answers (.ok none)), .advance 0 (answers (.ok none))] ++
    failedCall 1 (.network "reset") ++ failedCall 2 (.network "reset") ++
    failedCall 3 (.network "reset") ++
    [.tick (30 * 10 ^ 9), .request chatCall, .advance 4 (answers (.ok none)),
      -- the earlier request fails while the probe is in flight
      .advance 0 (answers (.error (.network "reset"))), .advance 0 (answers (.ok none)),
      .advance 4 (answers (.ok none)), .advance 4 (answers (.ok none))]

/-- Nothing is in flight and the cooldown has elapsed twice, and the provider is refused; a probe
succeeds and its breaker is left open. -/
theorem not_recovers_unauthorizedProbe :
    (¬ Always (step oneProvider) (Recovers oneProvider) (System.start 0) unauthorizedProbe) ∧
      ¬ EachStep (step oneProvider) (ProbeCloses oneProvider) (System.start 0)
        (overtakenProbe ++ [.advance 4 (answers (.ok none))]) := by
  constructor
  · intro h
    have hallow := h unauthorizedProbe prefix_rfl "main" (by decide) (by decide)
    revert hallow
    decide
  · intro h
    have hcloses := (eachStep_append.1 h).2.1
    have hclos := hcloses 4 "main" _ ⟨.ok ⟨200⟩, none⟩ rfl rfl rfl rfl
    revert hclos
    decide

end Gradatum.Gateway
