import Mathlib.Algebra.Order.Ring.Int
import Gradatum.Reasoning.Run

/-!
# Leader election

The workers compete for the one row of `worker_leadership`.  A call reads the clock before it enters the
database, and `try_acquire` is two statements, so a call is several events: it is issued, its statements
run one by one, and its answer reaches the worker.
-/

open Reasoning

namespace Gradatum.Leader

open Function

/-! ## 1. Statements -/

section Statements

variable {ω : Type} [DecidableEq ω]

/-- The row of `worker_leadership`: its holder, and the millisecond at which the claim ends. -/
structure Leadership (ω : Type) where
  holder : ω
  expiresAt : Int
  deriving DecidableEq

/-- `INSERT OR IGNORE`, and whether a row was inserted. -/
def insertOrIgnore (self : ω) (expires : Int) : Option (Leadership ω) → Bool × Option (Leadership ω)
  | none => (true, some ⟨self, expires⟩)
  | some row => (false, some row)

/-- `UPDATE … WHERE slot = 0 AND (expires_at < now OR holder = self)`, and whether a row was updated. -/
def updateClaimable (self : ω) (now expires : Int) :
    Option (Leadership ω) → Bool × Option (Leadership ω)
  | none => (false, none)
  | some row =>
    if row.expiresAt < now ∨ row.holder = self then (true, some ⟨self, expires⟩)
    else (false, some row)

/-- `UPDATE … SET expires_at WHERE slot = 0 AND holder = self`, and whether a row was updated. -/
def updateHeld (self : ω) (expires : Int) : Option (Leadership ω) → Bool × Option (Leadership ω)
  | none => (false, none)
  | some row =>
    if row.holder = self then (true, some { row with expiresAt := expires })
    else (false, some row)

/-- `DELETE … WHERE holder = self`. -/
def deleteHeld (self : ω) (slot : Option (Leadership ω)) : Option (Leadership ω) :=
  slot.filter fun row => decide (row.holder ≠ self)

/-- `try_acquire` with the reading `now`, when nothing comes between its statements. -/
def tryAcquire (expiresAfter : Nat) (self : ω) (now : Int) (slot : Option (Leadership ω)) :
    Bool × Option (Leadership ω) :=
  let expires := now + expiresAfter
  let (inserted, slot') := insertOrIgnore self expires slot
  if inserted then (true, slot') else updateClaimable self now expires slot'

/-! ## 2. Calls as they interleave -/

inductive Operation where
  | tryAcquire
  | renew
  | release

/-- Where a worker is in its call.  `now` is the reading the call took when it was issued. -/
inductive Phase where
  | idle
  | inserting (now : Int)
  | updating (now : Int)
  | renewing (now : Int)
  | releasing
  | returning (answer : Bool) (expires : Int)
  deriving DecidableEq

def Operation.issue (clock : Int) : Operation → Phase
  | .tryAcquire => .inserting clock
  | .renew => .renewing clock
  | .release => .releasing

def Phase.reading : Phase → Option Int
  | .inserting now | .updating now | .renewing now => some now
  | .idle | .releasing | .returning _ _ => none

/-- The next statement of a call: the phase after it, and the row it leaves. -/
def Phase.execute (expiresAfter : Nat) (self : ω) (slot : Option (Leadership ω)) :
    Phase → Phase × Option (Leadership ω)
  | .inserting now =>
    let (inserted, slot') := insertOrIgnore self (now + expiresAfter) slot
    (if inserted then .returning true (now + expiresAfter) else .updating now, slot')
  | .updating now =>
    let (updated, slot') := updateClaimable self now (now + expiresAfter) slot
    (.returning updated (now + expiresAfter), slot')
  | .renewing now =>
    let (updated, slot') := updateHeld self (now + expiresAfter) slot
    (.returning updated (now + expiresAfter), slot')
  | .releasing => (.idle, deleteHeld self slot)
  | .idle => (.idle, slot)
  | .returning answer expires => (.returning answer expires, slot)

end Statements

structure ElectionState (ω : Type) where
  clock : Int
  slot : Option (Leadership ω)
  phase : ω → Phase
  /-- When the worker's claim ends, if its last call returned `true` and it has not released since. -/
  claim : ω → Option Int

inductive ElectionEvent (ω : Type) where
  | tick (ms : Nat)
  /-- An idle worker issues a call, which reads the clock. -/
  | call (w : ω) (op : Operation)
  /-- The next statement of the worker's call runs. -/
  | statement (w : ω)
  | answer (w : ω)
  | error (w : ω)

section Step

variable {ω : Type} [DecidableEq ω] (expiresAfter : ω → Nat)

def Phase.claimAfter (claim : Option Int) : Phase → Option Int
  | .releasing => none
  | _ => claim

def electionStep (s : ElectionState ω) : ElectionEvent ω → ElectionState ω
  | .tick ms => { s with clock := s.clock + ms }
  | .call w op =>
    -- a worker issues its calls one at a time
    if s.phase w = .idle then { s with phase := update s.phase w (op.issue s.clock) } else s
  | .statement w =>
    let (phase', slot') := (s.phase w).execute (expiresAfter w) w s.slot
    { s with
      slot := slot'
      phase := update s.phase w phase'
      claim := update s.claim w ((s.phase w).claimAfter (s.claim w)) }
  | .answer w =>
    match s.phase w with
    | .returning answer expires =>
      { s with
        phase := update s.phase w .idle
        claim := update s.claim w (if answer then some expires else none) }
    | _ => s
  | .error w =>
    if s.phase w = .idle then s
    else
      { s with
        phase := update s.phase w .idle
        claim := update s.claim w none }

/-- Workers that have just started, at any time and with whatever row was left behind. -/
def ElectionState.initial (clock : Int) (slot : Option (Leadership ω)) : ElectionState ω where
  clock := clock
  slot := slot
  phase := fun _ => .idle
  claim := fun _ => none

theorem run_tryAcquire (hidle : s.phase w = .idle) :
    let s' := run (electionStep expiresAfter) s [.call w .tryAcquire, .statement w, .statement w]
    s'.slot = (tryAcquire (expiresAfter w) w s.clock s.slot).2 ∧
      s'.phase w = .returning (tryAcquire (expiresAfter w) w s.clock s.slot).1
        (s.clock + expiresAfter w) := by
  cases hslot : s.slot with
  | none | some =>
    simp [electionStep, hidle, hslot, Operation.issue, Phase.execute, tryAcquire, insertOrIgnore]

end Step

end Gradatum.Leader
