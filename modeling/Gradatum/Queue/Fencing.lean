import Gradatum.Queue.Sound

/-!
# Lease fencing

Between a dequeue and the report on it the lease can end and another worker can lease the job.  The guard of
the report compares the lease of the row with the clock; the row does not say who holds the lease.  The
workers are put around the queue here, with a ghost that says who dequeued each job last.
-/

open Reasoning

namespace Gradatum.Queue

open Function

/-! ## 1. Workers around the queue -/

structure FencedState where
  queue : QueueState
  /-- The job a worker has been handed and has not reported on. -/
  holding : Nat → Option Ulid
  /-- The worker of the most recent dequeue of a job. -/
  lastDequeuer : Ulid → Option Nat

def FencedState.initial (variableLimit : Nat) : FencedState where
  queue := .initial variableLimit
  holding := fun _ => none
  lastDequeuer := fun _ => none

structure WorkerEvent where
  worker : Nat
  event : Event

def Event.dequeued (s : QueueState) : Event → Option Ulid
  | .call (.dequeue clk tenant) => handedOut (dequeue clk tenant s.jobs).1
  | .call (.dequeueByKind clk kind tenant) => handedOut (dequeueByKind clk kind tenant s.jobs).1
  | _ => none
where
  handedOut : Except QueueError (Option JobRecord) → Option Ulid
    | .ok (some record) => some record.id
    | _ => none

/-- The clock reading and the job of a report. -/
def Event.reports : Event → Option (Instant × Ulid)
  | .call (.complete clk id _) => some (clk.now, id)
  | .call (.fail clk id _ _) => some (clk.now, id)
  | _ => none

/-- A worker reports on the job it holds; everything else goes to the queue as it is. -/
def fencedStep (s : FencedState) (we : WorkerEvent) : FencedState :=
  match we.event.reports with
  | some (_, id) =>
    if s.holding we.worker = some id then
      { s with
        queue := step s.queue we.event
        holding := update s.holding we.worker none }
    else s
  | none =>
    match we.event.dequeued s.queue with
    | some id =>
      { queue := step s.queue we.event
        holding := update s.holding we.worker (some id)
        lastDequeuer := update s.lastDequeuer id (some we.worker) }
    | none => { s with queue := step s.queue we.event }

/-! ## 2. When a report takes effect -/

def LeaseLive (t : JobTable) (id : Ulid) (now : Instant) : Prop :=
  ∃ row, t.find? id = some row ∧ row.status = .running ∧ columnAfter row.leaseUntil now = true

/-- A call that changes only rows with a lease that goes on, and ends the run of those, does nothing else. -/
theorem onRow_ne_iff (hrow : t.find? k = some row)
    (hchgs : ∀ row', RowChange c row row' → row.status = .running ∧ columnAfter row.leaseUntil now = true)
    (hwrites : row.status = .running → columnAfter row.leaseUntil now = true →
      ∃ row', c.onRow t row = some row' ∧ row'.status ≠ .running) (hkeeps : (c.onRow t row).isSome) :
    c.onRow t row ≠ some row ↔ row.status = .running ∧ columnAfter row.leaseUntil now = true := by
  constructor
  · intro hne
    obtain ⟨row', hon⟩ := Option.isSome_iff_exists.1 hkeeps
    rcases Call.onRow_cases hrow hon with rfl | hchg
    · exact absurd hon hne
    · exact hchgs row' hchg
  · rintro ⟨hrun, hlease⟩ heq
    obtain ⟨row', hon, hended⟩ := hwrites hrun hlease
    rw [← Option.some.inj (heq.symm.trans hon)] at hended
    exact hended hrun

theorem onRow_complete_ne_iff {id : Ulid} (hrow : t.find? k = some row) (hid : row.id = id)
    (hsound : RowSound row record) : (Call.complete clk id result).onRow t row ≠ some row ↔
      row.status = .running ∧ columnAfter row.leaseUntil clk.now = true := by
  refine onRow_ne_iff hrow (fun row' hchg => ?_) (fun hrun hlease => ?_) rfl
  · cases hchg with
    | completed _ hrun _ _ hlease => exact ⟨hrun, hlease⟩
  · have hconfl : record.lifecycle.status ≠ .conflict := by
      intro hconfl
      rw [hsound.conflict hconfl] at hrun
      cases hrun
    refine ⟨doneRow clk result row record, ?_, JobStatus.noConfusion⟩
    simp [Call.onRow, patchedRow, hid, isRunning, hrun, hsound.payload, deserializeRecord,
      completePatch, hconfl, hlease, doneRow]

theorem onRow_fail_ne_iff {id : Ulid} (hrow : t.find? k = some row) (hid : row.id = id)
    (hsound : RowSound row record) : (Call.fail clk id err attempt).onRow t row ≠ some row ↔
      row.status = .running ∧ columnAfter row.leaseUntil clk.now = true := by
  refine onRow_ne_iff hrow (fun row' hchg => ?_) (fun hrun hlease => ?_) rfl
  · cases hchg with
    | failed _ hrun _ hlease => exact ⟨hrun, hlease⟩
  · refine ⟨failedRow clk (truncateChars 2048 err) attempt row record, ?_, JobStatus.noConfusion⟩
    simp [Call.onRow, patchedRow, hid, isRunning, hrun, hsound.payload, deserializeRecord, failPatch,
      hlease, failedRow]

/-- A report writes its row just when the row is leased, by whomever, beyond the reading of the
clock. -/
theorem report_changes_iff {id : Ulid}
    (hs : Sound s.jobs) (he : e.reports = some (now, id)) :
    (step s e).jobs.find? id ≠ s.jobs.find? id ↔ LeaseLive s.jobs id now := by
  obtain ⟨c, rfl, hc⟩ : ∃ c, e = .call c ∧
      ((∃ clk result, c = .complete clk id result ∧ clk.now = now) ∨
        ∃ clk err attempt, c = .fail clk id err attempt ∧ clk.now = now) := by
    cases e with
    | call c =>
      cases c with
      | complete clk id' result =>
        cases he
        exact ⟨_, rfl, .inl ⟨clk, result, rfl, rfl⟩⟩
      | fail clk id' err attempt =>
        cases he
        exact ⟨_, rfl, .inr ⟨clk, err, attempt, rfl, rfl⟩⟩
      | _ => cases he
    | _ => cases he
  cases hrow : s.jobs.find? id with
  | none =>
    rw [find?_step_of_none hrow]
    rcases hc with ⟨clk, result, rfl, rfl⟩ | ⟨clk, err, attempt, rfl, rfl⟩ <;>
      simp [Event.callOf, Call.inserts, LeaseLive, hrow]
  | some row =>
    obtain ⟨record, hsound⟩ := hs id row hrow
    have hid : row.id = id := Table.key_of_find? hrow
    have hlive : LeaseLive s.jobs id now ↔
        row.status = .running ∧ columnAfter row.leaseUntil now = true := by
      simp [LeaseLive, hrow]
    rw [hlive, find?_step_of_some hrow]
    rcases hc with ⟨clk, result, rfl, rfl⟩ | ⟨clk, err, attempt, rfl, rfl⟩
    · exact onRow_complete_ne_iff hrow hid hsound
    · exact onRow_fail_ne_iff hrow hid hsound

/-! ## 3. Whole runs -/

def ReportFenced (s : FencedState) (we : WorkerEvent) : Prop :=
  ∀ now id, we.event.reports = some (now, id) → s.holding we.worker = some id →
    (step s.queue we.event).jobs.find? id ≠ s.queue.jobs.find? id →
    s.lastDequeuer id = some we.worker

def NoLateReport (s : FencedState) (we : WorkerEvent) : Prop :=
  ∀ now id, we.event.reports = some (now, id) → s.holding we.worker = some id →
    s.lastDequeuer id ≠ some we.worker → ¬ LeaseLive s.queue.jobs id now

theorem reportFenced_iff_noLateReport (hs : Sound s.queue.jobs)
    (we : WorkerEvent) : ReportFenced s we ↔ NoLateReport s we := by
  constructor
  · intro h now id hrep hhold hother hlive
    exact hother (h now id hrep hhold ((report_changes_iff hs hrep).2 hlive))
  intro h now id hrep hhold hchgs
  by_contra hother
  exact h now id hrep hhold hother ((report_changes_iff hs hrep).1 hchgs)

theorem sound_fencedStep (hs : Sound s.queue.jobs) (we : WorkerEvent) :
    Sound (fencedStep s we).queue.jobs := by
  unfold fencedStep
  split
  · split
    · exact hs.step _
    · exact hs
  split
  · exact hs.step _
  · exact hs.step _

/-- Reports are fenced in every run, of any number of workers and from any table whose rows are
sound, just when no worker reports on a job while a later dequeuer's lease on it is live. -/
theorem leaseFenced_iff_noLateReport (s : FencedState) (hs : Sound s.queue.jobs)
    (es : List WorkerEvent) :
    EachStep fencedStep ReportFenced s es ↔ EachStep fencedStep NoLateReport s es :=
  eachStep_iff_of_inv hs (fun _ we hs _ => sound_fencedStep hs we)
    fun _ we hs => reportFenced_iff_noLateReport hs we

/-! ## 4. Two runs -/

def WorkerEvent.readings (we : WorkerEvent) : List Instant :=
  match we.event with
  | .call (.dequeueByKind clk _ _) => [clk.now, clk.again]
  | .call (.complete clk _ _) => [clk.now, clk.again]
  | .call (.recoverStaleLeases clk _) => [clk.now, clk.again]
  | _ => []

def clockAt (n : Int) : Clock := .at (seconds n)

/-- Worker 1 leases a job and stalls beyond its lease, the sweep puts the job back, worker 2 leases
it. -/
def takenOverRun : List WorkerEvent :=
  [⟨0, .call (.enqueue (makeRecord 1 .summarize .pending))⟩,
   ⟨1, .call (.dequeueByKind (clockAt 0) "Summarize" none)⟩,
   ⟨0, .call (.recoverStaleLeases (clockAt 400) 60000000000)⟩,
   ⟨2, .call (.dequeueByKind (clockAt 401) "Summarize" none)⟩]

def orderlyRun : List WorkerEvent :=
  takenOverRun ++
    [⟨2, .call (.complete (clockAt 402) 1 .ok)⟩, ⟨1, .call (.complete (clockAt 403) 1 .ok)⟩]

theorem leaseFenced_orderlyRun : EachStep fencedStep ReportFenced (.initial 999) orderlyRun := by
  apply (leaseFenced_iff_noLateReport (.initial 999) (sound_initial 999) orderlyRun).2
  refine ⟨nofun, nofun, nofun, nofun, ?_, ?_, trivial⟩
  · intro now id hrep _ hother
    cases hrep
    exact absurd rfl hother
  intro now id hrep _ _ hlive
  cases hrep
  obtain ⟨row, hrow, hrun, -⟩ := hlive
  have hdone : (run fencedStep (.initial 999) (orderlyRun.take 5)).queue.statusOf 1 =
      some .done := by decide
  have hstat : (run fencedStep (.initial 999) (orderlyRun.take 5)).queue.statusOf 1 =
      some .running := by
    rw [QueueState.statusOf, statusIn]
    exact (congrArg _ hrow).trans (congrArg some hrun)
  rw [hdone] at hstat
  cases hstat

def lateReportRun : List WorkerEvent :=
  takenOverRun ++ [⟨1, .call (.complete (clockAt 402) 1 .ok)⟩]

theorem not_leaseFenced_lateReportRun : (lateReportRun.flatMap WorkerEvent.readings).Pairwise (· ≤ ·) ∧
      ¬ EachStep fencedStep ReportFenced (.initial 999) lateReportRun := by
  refine ⟨by decide, fun h => ?_⟩
  have hlast := eachStep_iff_forall_append.1 h takenOverRun _ (List.prefix_refl _)
  have hdequeuer := hlast (seconds 402) 1 rfl (by decide) (by
    intro hsame
    have hstat := congrArg (Option.map JobRow.status) hsame
    revert hstat
    decide)
  revert hdequeuer
  decide

end Gradatum.Queue
