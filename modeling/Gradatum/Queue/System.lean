import Gradatum.Reasoning.Run
import Gradatum.Queue.Call

/-!
# The queue as a system of interleaved calls

A call that is one critical section is one event.  `promote_retries`, the cascade that follows a `complete`,
and `promote_stranded_waiting_jobs` read their candidates in one critical section and act on them in later
ones; what such a pass still has to do is part of the state, per process.
-/

open Reasoning

namespace Gradatum.Queue

open Function

/-- A `promote_retries` between two critical sections. -/
structure RetryPass where
  now : Instant
  todo : List RetryCandidate

/-- A cascade or a stranded-jobs pass between two critical sections.  `promoting` is the job whose
dependencies were found done and whose `set_pending` comes next. -/
structure GatePass where
  skipsEmpty : Bool
  todo : List Payload
  promoting : Option Ulid

def RetryPass.idle : RetryPass := ⟨0, []⟩

def GatePass.idle : GatePass := ⟨false, [], none⟩

structure QueueState where
  jobs : JobTable
  /-- How many variables a statement may bind on this connection. -/
  variableLimit : Nat
  retryPass : Nat → RetryPass
  gatePass : Nat → GatePass

def QueueState.initial (variableLimit : Nat) : QueueState where
  jobs := Table.empty
  variableLimit := variableLimit
  retryPass := fun _ => .idle
  gatePass := fun _ => .idle

def statusIn (t : JobTable) (id : Ulid) : Option JobStatus := (t.find? id).map (·.status)

def QueueState.statusOf (s : QueueState) (id : Ulid) : Option JobStatus := statusIn s.jobs id

variable {id : Ulid} {s : QueueState} {e : Event}

theorem statusIn_eq_some_iff :
    statusIn t id = some st ↔ ∃ row, t.find? id = some row ∧ row.status = st := by
  simp [statusIn]

theorem statusOf_eq_some_iff :
    s.statusOf id = some st ↔ ∃ row, s.jobs.find? id = some row ∧ row.status = st :=
  statusIn_eq_some_iff

/-- The critical sections, as events.  `p` is the process that runs a pass. -/
inductive Event where
  | call (c : Call)
  | retrySelect (p : Nat) (now : Instant)
  | retryNext (p : Nat) (clk : Clock)
  | cascadeSelect (p : Nat) (done : Ulid)
  | strandedSelect (p : Nat)
  | gateCheck (p : Nat)
  | gateSet (p : Nat)

def Event.callOf (s : QueueState) : Event → Option Call
  -- a turn of the retry loop is entered from a pass only
  | .call (.promoteRetry _ _ _) => none
  | .call c => some c
  | .retryNext p clk => (s.retryPass p).todo.head?.map (.promoteRetry clk (s.retryPass p).now)
  | .gateSet p => (s.gatePass p).promoting.map .setPending
  | .retrySelect _ _ | .cascadeSelect _ _ | .strandedSelect _ | .gateCheck _ => none

theorem Event.callOf_cases (h : e.callOf s = some c) : e = .call c ∨
      (∃ p clk cand, e = .retryNext p clk ∧ (s.retryPass p).todo.head? = some cand ∧
        c = .promoteRetry clk (s.retryPass p).now cand) ∨
      (∃ p id, e = .gateSet p ∧ (s.gatePass p).promoting = some id ∧ c = .setPending id) := by
  cases e with
  | call c' =>
    cases c' with
    | promoteRetry clk now cand => cases h
    | _ =>
      cases h
      exact .inl rfl
  | retryNext p clk =>
    obtain ⟨cand, hcand, rfl⟩ := Option.map_eq_some_iff.1 h
    exact .inr (.inl ⟨p, clk, cand, rfl, hcand, rfl⟩)
  | gateSet p =>
    obtain ⟨id, hid, rfl⟩ := Option.map_eq_some_iff.1 h
    exact .inr (.inr ⟨p, id, rfl, hid, rfl⟩)
  | retrySelect | cascadeSelect | strandedSelect | gateCheck => cases h

theorem Event.eq_enqueue_of_inserts (h : e.callOf s = some c)
    (hjob : c.inserts = some job) : e = .call (.enqueue job) := by
  rcases Event.callOf_cases h with rfl | ⟨_, _, _, -, -, rfl⟩ | ⟨_, _, -, -, rfl⟩
  · cases c with
    | enqueue job' =>
      cases hjob
      rfl
    | _ => cases hjob
  · cases hjob
  · cases hjob

def RetryPass.next (pass : RetryPass) (clk : Clock) (t : JobTable) : RetryPass :=
  match pass.todo with
  | [] => pass
  | c :: rest =>
    match (promoteRetry clk pass.now c t).1 with
    | .error _ => { pass with todo := [] }
    | .ok _ => { pass with todo := rest }

/-- The gate pass after the `all_jobs_done` of its next candidate: an error ends it. -/
def GatePass.check (pass : GatePass) (variableLimit : Nat) (t : JobTable) : GatePass :=
  match pass.promoting, pass.todo with
  | none, payload :: rest =>
    match deserializeRecord payload with
    | .error _ => { pass with todo := [] }
    | .ok record =>
      let ids := record.scheduling.awaitIds
      if pass.skipsEmpty && ids.isEmpty then { pass with todo := rest }
      else match allJobsDone variableLimit ids t with
        | .error _ => { pass with todo := [] }
        | .ok true => { pass with todo := rest, promoting := some record.id }
        | .ok false => { pass with todo := rest }
  | _, _ => pass

/-- The cascade decodes all its candidates at once, and does nothing if one is corrupt. -/
def GatePass.cascade (done : Ulid) (t : JobTable) : GatePass :=
  match findAwaiting done t with
  | .error _ => .idle
  | .ok records => ⟨false, records.map serializeRecord, none⟩

def GatePass.stranded (t : JobTable) : GatePass := ⟨true, strandedPayloads t, none⟩

def step (s : QueueState) (e : Event) : QueueState where
  jobs := match e.callOf s with
    | some c => c.exec s.jobs
    | none => s.jobs
  variableLimit := s.variableLimit
  retryPass := match e with
    | .retrySelect p now => update s.retryPass p ⟨now, retryCandidates now s.jobs⟩
    | .retryNext p clk => update s.retryPass p ((s.retryPass p).next clk s.jobs)
    | _ => s.retryPass
  gatePass := match e with
    | .cascadeSelect p done => update s.gatePass p (.cascade done s.jobs)
    | .strandedSelect p => update s.gatePass p (.stranded s.jobs)
    | .gateCheck p =>
      update s.gatePass p ((s.gatePass p).check s.variableLimit s.jobs)
    | .gateSet p => update s.gatePass p { s.gatePass p with promoting := none }
    | _ => s.gatePass

theorem find?_step_of_some (h : s.jobs.find? k = some row) (e : Event) : (step s e).jobs.find? k =
      match e.callOf s with
      | some c => c.onRow s.jobs row
      | none => some row := by
  simp only [step]
  cases e.callOf s with
  | none => exact h
  | some c => simp [find?_exec, h]

theorem find?_step_of_none (h : s.jobs.find? k = none) (e : Event) : (step s e).jobs.find? k =
      ((e.callOf s).bind Call.inserts |>.filter fun job => job.id = k).map rowOfRecord := by
  simp only [step]
  cases e.callOf s with
  | none => exact h
  | some c => simp [find?_exec, h]

theorem find?_step_new (hnone : s.jobs.find? k = none) (h : (step s e).jobs.find? k = some row) :
    ∃ job, e = .call (.enqueue job) ∧ row = rowOfRecord job := by
  rw [find?_step_of_none hnone] at h
  simp only [Option.map_eq_some_iff, Option.filter_eq_some_iff, Option.bind_eq_some_iff] at h
  obtain ⟨job, ⟨⟨c, hc, hjob⟩, -⟩, hrow⟩ := h
  exact ⟨job, Event.eq_enqueue_of_inserts hc hjob, hrow.symm⟩

theorem rows_step {P : JobRow → Prop} (hrows : ∀ k row, s.jobs.find? k = some row → P row)
    (hnew : ∀ job, e = .call (.enqueue job) → P (rowOfRecord job))
    (hon : ∀ c k row row', e.callOf s = some c → s.jobs.find? k = some row → P row →
      c.onRow s.jobs row = some row' → P row') :
    ∀ k row, (step s e).jobs.find? k = some row → P row := by
  intro k row' hrow'
  cases hrow : s.jobs.find? k with
  | some row =>
    rw [find?_step_of_some hrow] at hrow'
    cases hcall : e.callOf s with
    | none =>
      rw [hcall] at hrow'
      cases hrow'
      exact hrows k _ hrow
    | some c =>
      rw [hcall] at hrow'
      exact hon c k row row' hcall hrow (hrows k row hrow) hrow'
  | none =>
    obtain ⟨job, he, rfl⟩ := find?_step_new hrow hrow'
    exact hnew job he

/-! ## A job for concrete runs -/

/-- A job as the callers build it: high priority, due at time `0`, three attempts. -/
def makeRecord (id : Ulid) (kind : Job) (status : JobStatus) : JobRecord where
  id := id
  spec := { kind := kind, jobClass := .agent, scope := .vaultWide, priority := .high }
  scheduling := { scheduledAt := 0, awaitJobs := [], deadline := none }
  lifecycle := { status := status, createdAt := 0, completedAt := none, result := none }
  retry := { count := 0, max := 3, lastError := none, errors := [] }

def Clock.at (now : Instant) : Clock := ⟨now, now⟩

def JobResult.ok : JobResult := { success := true, durationMs := 0, resultNote := none }

end Gradatum.Queue
