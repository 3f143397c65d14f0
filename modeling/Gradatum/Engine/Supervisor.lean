import Mathlib.Algebra.Order.Ring.Nat
import Gradatum.Reasoning.Run

/-!
# The supervisor of the engine

`supervise_loop` waits for the exit of a child, takes one from a budget of restarts and spawns the next.  The
budget is filled up again after a child that was ready for some time, computed from the last time that any
child got ready.
-/

open Reasoning

namespace Gradatum.Engine

/-- Nanoseconds of a clock. -/
abbrev Instant := Nat

def secs (n : Nat) : Nat := n * 10 ^ 9

structure EngineConfig where
  childRestartMax : Nat
  minStableUptimeSecs : Nat
  startupTimeoutSecs : Nat

def backoffInitMs : Nat := 500

def backoffMaxMs : Nat := 30000

/-! ## 1. Waiting until a child is ready -/

inductive ChildState where
  | ready
  | startupTimeout
  deriving DecidableEq

inductive TryWait where
  | exited
  | running
  | failed
  deriving DecidableEq

/-- What a request to `/health` comes back with. -/
inductive Probe where
  | success
  | otherStatus
  | connectionRefused
  | error
  deriving DecidableEq

structure Poll where
  now : Instant
  tryWait : TryWait
  probe : Probe
  deriving DecidableEq

/-- Each poll is one turn of the loop; after the last one the deadline has passed. -/
def waitReady (deadline : Instant) : List Poll → ChildState
  | [] => .startupTimeout
  | poll :: polls =>
    if poll.now < deadline then
      match poll.tryWait, poll.probe with
      -- a child that is dead is not waited for until the deadline
      | .exited, _ => .startupTimeout
      | _, .success => .ready
      | _, _ => waitReady deadline polls
    else .startupTimeout

/-! ## 2. The loop -/

inductive Attempt where
  | spawnError
  /-- The child is spawned, polled, and the wait ends. -/
  | spawned (startedAt : Instant) (polls : List Poll) (endedAt : Instant)
  deriving DecidableEq

def Attempt.readyAt (config : EngineConfig) : Attempt → Option Instant
  | spawnError => none
  | spawned startedAt polls endedAt =>
    match waitReady (startedAt + secs config.startupTimeoutSecs) polls with
    | .ready => some endedAt
    | .startupTimeout => none

/-- What one turn of the loop meets: the flag of a shutdown where it is read, the child and its exit, and
what comes of the next one. -/
structure Turn where
  stopAtTop : Bool
  noChild : Bool
  exitAt : Instant
  stopAfterWait : Bool
  stopAfterSleep : Bool
  attempt : Attempt
  deriving DecidableEq

inductive Phase where
  | running
  | stopped
  | escalated
  deriving DecidableEq

inductive Event where
  | exited (at_ : Instant)
  | respawn (attempt : Attempt)
  deriving DecidableEq

structure SuperviseLoop where
  restartBudget : Nat
  backoffMs : Nat
  lastReadyAt : Option Instant
  phase : Phase
  trace : List Event
  deriving DecidableEq

namespace SuperviseLoop

variable (config : EngineConfig)

def start (initialReadyAt : Option Instant) : SuperviseLoop :=
  ⟨config.childRestartMax, backoffInitMs, initialReadyAt, .running, []⟩

def stableUptime (since : Option Instant) (now : Instant) : Bool :=
  since.any fun t => secs config.minStableUptimeSecs ≤ now - t

variable (s : SuperviseLoop)

def resetIfStable (now : Instant) : SuperviseLoop :=
  if stableUptime config s.lastReadyAt now then
    { s with restartBudget := config.childRestartMax, backoffMs := backoffInitMs }
  else s

/-- `spawn_child` and `wait_ready`.  The time of the last ready child stays where there is no new one. -/
def respawn (attempt : Attempt) : SuperviseLoop :=
  { s with
    lastReadyAt := (attempt.readyAt config).or s.lastReadyAt
    backoffMs := min (s.backoffMs * 2) backoffMaxMs
    trace := s.trace ++ [.respawn attempt] }

def afterExit (turn : Turn) : SuperviseLoop :=
  let s := resetIfStable config s turn.exitAt
  if s.restartBudget = 0 then { s with phase := .escalated }
  else
    let s := { s with restartBudget := s.restartBudget - 1 }
    if turn.stopAfterSleep then { s with phase := .stopped }
    else respawn config s turn.attempt

def turn (t : Turn) : SuperviseLoop :=
  if s.phase ≠ .running then s
  else if t.stopAtTop || t.noChild then { s with phase := .stopped }
  else
    let s := { s with trace := s.trace ++ [.exited t.exitAt] }
    if t.stopAfterWait then { s with phase := .stopped } else afterExit config s t

end SuperviseLoop

/-! ## 3. What the budget is for -/

/-- The child as it is seen from outside: when it was ready, and the respawns since the last one that was
ready for long enough. -/
structure Ledger where
  readyAt : Option Instant
  respawns : Nat

namespace Ledger

variable (config : EngineConfig)

def note (l : Ledger) : Event → Ledger
  | .exited now =>
    ⟨none, if SuperviseLoop.stableUptime config l.readyAt now then 0 else l.respawns⟩
  | .respawn attempt => ⟨attempt.readyAt config, l.respawns + 1⟩

def ofTrace (initialReadyAt : Option Instant) (trace : List Event) : Ledger :=
  trace.foldl (note config) ⟨initialReadyAt, 0⟩

theorem ofTrace_snoc (initialReadyAt : Option Instant) (trace : List Event) (e : Event) :
    ofTrace config initialReadyAt (trace ++ [e]) = note config (ofTrace config initialReadyAt trace) e := by
  rw [ofTrace, List.foldl_append]
  rfl

end Ledger

namespace SuperviseLoop

variable (config : EngineConfig) (initialReadyAt : Option Instant)

def ledger (s : SuperviseLoop) : Ledger := Ledger.ofTrace config initialReadyAt s.trace

def SeesExit (s : SuperviseLoop) (t : Turn) : Prop :=
  s.phase = .running ∧ t.stopAtTop = false ∧ t.noChild = false ∧ t.stopAfterWait = false

def Timely (s : SuperviseLoop) (t : Turn) : Prop :=
  SeesExit s t → (ledger config initialReadyAt s).readyAt = none →
    stableUptime config s.lastReadyAt t.exitAt = false

structure Accounted (s : SuperviseLoop) : Prop where
  bounded : (ledger config initialReadyAt s).respawns ≤ config.childRestartMax
  budget : s.phase = .running →
    s.restartBudget + (ledger config initialReadyAt s).respawns = config.childRestartMax
  readyAt : (ledger config initialReadyAt s).readyAt = none ∨
    (ledger config initialReadyAt s).readyAt = s.lastReadyAt

variable {config initialReadyAt} {s : SuperviseLoop} {t : Turn}

theorem accounted_start : Accounted config initialReadyAt (start config initialReadyAt) :=
  ⟨Nat.zero_le _, fun _ => rfl, .inr rfl⟩

theorem Accounted.stableUptime_eq (h : Accounted config initialReadyAt s)
    (htime : Timely config initialReadyAt s t) (hsees : SeesExit s t) :
    stableUptime config s.lastReadyAt t.exitAt =
      stableUptime config (ledger config initialReadyAt s).readyAt t.exitAt := by
  rcases h.readyAt with hnone | hsame
  · rw [htime hsees hnone, hnone]
    rfl
  · rw [hsame]

/-! ## 4. One turn -/

def budgetAt (config : EngineConfig) (s : SuperviseLoop) (now : Instant) : Nat :=
  if stableUptime config s.lastReadyAt now then config.childRestartMax else s.restartBudget

theorem resetIfStable_restartBudget (now : Instant) :
    (resetIfStable config s now).restartBudget = budgetAt config s now := by
  unfold resetIfStable budgetAt
  split <;> rfl

theorem resetIfStable_lastReadyAt (now : Instant) :
    (resetIfStable config s now).lastReadyAt = s.lastReadyAt := by
  unfold resetIfStable
  split <;> rfl

theorem resetIfStable_phase (now : Instant) : (resetIfStable config s now).phase = s.phase := by
  unfold resetIfStable
  split <;> rfl

theorem resetIfStable_trace (now : Instant) : (resetIfStable config s now).trace = s.trace := by
  unfold resetIfStable
  split <;> rfl

theorem turn_of_not_seesExit (h : ¬SeesExit s t) :
    turn config s t = s ∨ (turn config s t).phase = .stopped ∧
      (turn config s t).lastReadyAt = s.lastReadyAt ∧
      ((turn config s t).trace = s.trace ∨ (turn config s t).trace = s.trace ++ [.exited t.exitAt]) := by
  unfold turn
  split
  · exact .inl rfl
  rename_i hrun
  split
  · exact .inr ⟨rfl, rfl, .inl rfl⟩
  rename_i htop
  dsimp only
  split
  · exact .inr ⟨rfl, rfl, .inr rfl⟩
  rename_i hwait
  exfalso
  apply h
  simp only [ne_eq, not_not, Bool.or_eq_true, not_or, Bool.not_eq_true] at hrun htop hwait
  exact ⟨hrun, htop.1, htop.2, hwait⟩

variable (config) in
/-- A turn that sees an exit escalates when there is no budget; otherwise it respawns, unless a shutdown
comes first. -/
theorem turn_of_seesExit (h : SeesExit s t) :
    (budgetAt config s t.exitAt = 0 ∧ (turn config s t).phase = .escalated ∧
      (turn config s t).lastReadyAt = s.lastReadyAt ∧
      (turn config s t).trace = s.trace ++ [.exited t.exitAt]) ∨
    (budgetAt config s t.exitAt ≠ 0 ∧ t.stopAfterSleep = true ∧ (turn config s t).phase = .stopped ∧
      (turn config s t).lastReadyAt = s.lastReadyAt ∧
      (turn config s t).trace = s.trace ++ [.exited t.exitAt]) ∨
    (budgetAt config s t.exitAt ≠ 0 ∧ t.stopAfterSleep = false ∧ (turn config s t).phase = .running ∧
      (turn config s t).restartBudget = budgetAt config s t.exitAt - 1 ∧
      (turn config s t).lastReadyAt = (t.attempt.readyAt config).or s.lastReadyAt ∧
      (turn config s t).trace = s.trace ++ [.exited t.exitAt] ++ [.respawn t.attempt]) := by
  obtain ⟨hphase, htop, hchild, hwait⟩ := h
  have hturn : turn config s t = afterExit config { s with trace := s.trace ++ [.exited t.exitAt] } t := by
    simp [turn, hphase, htop, hchild, hwait]
  have hbudget : budgetAt config { s with trace := s.trace ++ [.exited t.exitAt] } t.exitAt =
      budgetAt config s t.exitAt := rfl
  rw [hturn]
  unfold afterExit
  dsimp only
  rw [resetIfStable_restartBudget, hbudget]
  split
  · rename_i hzero
    exact .inl ⟨hzero, rfl, resetIfStable_lastReadyAt _, resetIfStable_trace _⟩
  rename_i hsome
  split
  · rename_i hsleep
    exact .inr (.inl ⟨hsome, hsleep, rfl, resetIfStable_lastReadyAt _, resetIfStable_trace _⟩)
  rename_i hsleep
  refine .inr (.inr ⟨hsome, Bool.eq_false_iff.2 hsleep, ?_, rfl, ?_, ?_⟩)
  · exact (resetIfStable_phase _).trans hphase
  · simp only [respawn, resetIfStable_lastReadyAt]
  · simp only [respawn, resetIfStable_trace]

theorem Accounted.budgetAt_eq (h : Accounted config initialReadyAt s)
    (htime : Timely config initialReadyAt s t) (hsees : SeesExit s t) : budgetAt config s t.exitAt +
      (Ledger.note config (ledger config initialReadyAt s) (.exited t.exitAt)).respawns =
        config.childRestartMax := by
  have hbudg := h.budget hsees.1
  have hstable := h.stableUptime_eq htime hsees
  simp only [budgetAt, Ledger.note, hstable]
  split <;> omega

theorem note_exited_respawns_le (l : Ledger) (now : Instant) :
    (Ledger.note config l (.exited now)).respawns ≤ l.respawns := by
  simp only [Ledger.note]
  split <;> omega

variable (config initialReadyAt) in
theorem ledger_exited (h : s'.trace = s.trace ++ [.exited t.exitAt]) : ledger config initialReadyAt s' =
      Ledger.note config (ledger config initialReadyAt s) (.exited t.exitAt) := by
  rw [ledger, h, Ledger.ofTrace_snoc, ledger]

variable (config initialReadyAt) in
theorem ledger_respawned (h : s'.trace = s.trace ++ [.exited t.exitAt] ++ [.respawn t.attempt]) :
    ledger config initialReadyAt s' = Ledger.note config
      (Ledger.note config (ledger config initialReadyAt s) (.exited t.exitAt)) (.respawn t.attempt) := by
  rw [ledger, h, Ledger.ofTrace_snoc, Ledger.ofTrace_snoc, ledger]

section

variable (h : Accounted config initialReadyAt s)

include h

theorem Accounted.of_ended (hphase : s'.phase ≠ .running)
    (hready : s'.lastReadyAt = s.lastReadyAt)
    (htrace : s'.trace = s.trace ∨ s'.trace = s.trace ++ [.exited t.exitAt]) :
    Accounted config initialReadyAt s' := by
  rcases htrace with hsame | hexited
  · have hledg : ledger config initialReadyAt s' = ledger config initialReadyAt s := by
      rw [ledger, hsame, ledger]
    refine ⟨hledg ▸ h.bounded, fun hrun => absurd hrun hphase, ?_⟩
    rw [hledg, hready]
    exact h.readyAt
  · have hledg := ledger_exited config initialReadyAt hexited
    refine ⟨?_, fun hrun => absurd hrun hphase, .inl (hledg ▸ rfl)⟩
    rw [hledg]
    exact (note_exited_respawns_le _ _).trans h.bounded

theorem Accounted.turn
    (htime : Timely config initialReadyAt s t) : Accounted config initialReadyAt (turn config s t) := by
  by_cases hsees : SeesExit s t
  · rcases turn_of_seesExit config hsees with ⟨-, hphase, hready, htrace⟩ | ⟨-, -, hphase, hready, htrace⟩ |
      ⟨hsome, -, -, hleft, hready, htrace⟩
    · exact h.of_ended (by rw [hphase]; decide) hready (.inr htrace)
    · exact h.of_ended (by rw [hphase]; decide) hready (.inr htrace)
    · have hledg := ledger_respawned config initialReadyAt htrace
      have hbudg := h.budgetAt_eq htime hsees
      have hrespawns : (ledger config initialReadyAt (SuperviseLoop.turn config s t)).respawns =
          (Ledger.note config (ledger config initialReadyAt s) (.exited t.exitAt)).respawns + 1 := by
        rw [hledg]
        rfl
      refine ⟨by omega, fun _ => by omega, ?_⟩
      rw [hledg, hready]
      change t.attempt.readyAt config = none ∨ t.attempt.readyAt config = _
      cases t.attempt.readyAt config with
      | none => exact .inl rfl
      | some now => exact .inr rfl
  · rcases turn_of_not_seesExit hsees with hsame | ⟨hphase, hready, htrace⟩
    · rw [hsame]
      exact h
    · exact h.of_ended (by rw [hphase]; decide) hready htrace

theorem Accounted.escalated_iff (htime : Timely config initialReadyAt s t) (hsees : SeesExit s t) :
    (SuperviseLoop.turn config s t).phase = .escalated ↔
      (Ledger.note config (ledger config initialReadyAt s) (.exited t.exitAt)).respawns =
        config.childRestartMax := by
  have hbudg := h.budgetAt_eq htime hsees
  rcases turn_of_seesExit config hsees with ⟨hzero, hphase, -⟩ | ⟨hsome, -, hphase, -⟩ | ⟨hsome, -, hphase, -⟩
  · exact iff_of_true hphase (by omega)
  · exact iff_of_false (by rw [hphase]; decide) (by omega)
  · exact iff_of_false (by rw [hphase]; decide) (by omega)

end

/-! ## 5. Whole runs -/

def FailsToStart (config : EngineConfig) (t : Turn) : Prop :=
  t.stopAtTop = false ∧ t.noChild = false ∧ t.stopAfterWait = false ∧ t.stopAfterSleep = false ∧
    t.attempt.readyAt config = none

theorem turn_of_escalated (h : s.phase = .escalated) : SuperviseLoop.turn config s t = s := by
  simp [SuperviseLoop.turn, h]

theorem run_of_escalated (h : s.phase = .escalated) (turns : List Turn) :
    run (SuperviseLoop.turn config) s turns = s := by
  induction turns with
  | nil => rfl
  | cons t turns ih => rw [run_cons, turn_of_escalated h, ih]

theorem escalated_of_failsToStart (h : Accounted config initialReadyAt s) (hphase : s.phase = .running)
    (hfail : ∀ t ∈ turns, FailsToStart config t)
    (htime : EachStep (SuperviseLoop.turn config) (Timely config initialReadyAt) s turns)
    (hlen : config.childRestartMax < turns.length +
      if (ledger config initialReadyAt s).readyAt = none then (ledger config initialReadyAt s).respawns else 0) :
    (run (SuperviseLoop.turn config) s turns).phase = .escalated := by
  induction turns generalizing s with
  | nil =>
    have hbounded := h.bounded
    simp only [List.length_nil] at hlen
    split at hlen <;> omega
  | cons t turns ih =>
    obtain ⟨htop, hchild, hwait, hsleep, hnever⟩ := hfail t List.mem_cons_self
    have hsees : SeesExit s t := ⟨hphase, htop, hchild, hwait⟩
    rw [run_cons]
    rcases turn_of_seesExit config hsees with ⟨-, hescalated, -⟩ | ⟨-, hstop, -⟩ |
      ⟨-, -, hrun, -, -, htrace⟩
    · rw [run_of_escalated hescalated]
      exact hescalated
    · rw [hsleep] at hstop
      cases hstop
    · have hledg := ledger_respawned config initialReadyAt htrace
      apply ih (h.turn htime.1) hrun (fun t ht => hfail t (List.mem_cons_of_mem _ ht)) htime.2
      rw [hledg]
      simp only [Ledger.note, hnever, if_true, List.length_cons] at hlen ⊢
      split at hlen
      · rename_i hnone
        have hunstable : stableUptime config none t.exitAt = false := rfl
        simp only [hnone, hunstable, Bool.false_eq_true, if_false]
        omega
      · omega

/-- Between two children that were ready for long enough there are at most `child_restart_max` respawns, the
exit after the last of them escalates, and starts that go on to fail lead there; provided that no child
that did not get ready exits when the last ready one is already long ago. -/
theorem superviseLoop_restart_budget (config : EngineConfig) (initialReadyAt : Option Instant)
    (turns : List Turn)
    (htimely : EachStep (turn config) (Timely config initialReadyAt) (start config initialReadyAt) turns) :
    let s := run (turn config) (start config initialReadyAt) turns
    (ledger config initialReadyAt s).respawns ≤ config.childRestartMax ∧
    (∀ t, SeesExit s t → Timely config initialReadyAt s t →
      ((turn config s t).phase = .escalated ↔
        (Ledger.note config (ledger config initialReadyAt s) (.exited t.exitAt)).respawns =
          config.childRestartMax)) ∧
    ∀ more, s.phase = .running → (∀ t ∈ more, FailsToStart config t) →
      EachStep (turn config) (Timely config initialReadyAt) s more →
      config.childRestartMax < more.length → (run (turn config) s more).phase = .escalated := by
  intro s
  have hacc : Accounted config initialReadyAt s :=
    htimely.inv_run accounted_start fun _ _ h ht => h.turn ht
  refine ⟨hacc.bounded, fun t hsees ht => hacc.escalated_iff ht hsees, ?_⟩
  intro more hphase hfail hmore hlen
  apply escalated_of_failsToStart hacc hphase hfail hmore
  omega

/-- Three restarts, and thirty seconds of uptime that fill the budget up. -/
def defaultConfig : EngineConfig := ⟨3, 30, 60⟩

def failedTurn (exitAt : Instant) : Turn := ⟨false, false, exitAt, false, false, .spawnError⟩

/-- The first child is ready for a second. -/
theorem superviseLoop_restart_budget_flapping :
    let turns := [failedTurn (secs 1), failedTurn (secs 2), failedTurn (secs 4), failedTurn (secs 8)]
    let s := run (turn defaultConfig) (start defaultConfig (some 0)) turns
    EachStep (turn defaultConfig) (Timely defaultConfig (some 0)) (start defaultConfig (some 0)) turns ∧
      (ledger defaultConfig (some 0) s).respawns ≤ 3 := by
  intro turns s
  have htime : EachStep (turn defaultConfig) (Timely defaultConfig (some 0))
      (start defaultConfig (some 0)) turns :=
    ⟨fun _ _ => by decide, fun _ _ => by decide, fun _ _ => by decide, fun _ _ => by decide, trivial⟩
  exact ⟨htime, (superviseLoop_restart_budget defaultConfig (some 0) turns htime).1⟩

/-- The first child is ready for a minute, and then no child can be spawned: every exit finds the budget
full. -/
theorem superviseLoop_budget_refilled :
    let s := run (turn defaultConfig) (start defaultConfig (some 0))
      ((List.range 10).map fun n => failedTurn (secs (60 + n)))
    s.phase = .running ∧ (ledger defaultConfig (some 0) s).respawns = 10 ∧
      defaultConfig.childRestartMax = 3 := by
  decide

end SuperviseLoop

end Gradatum.Engine
