import Gradatum.Queue.System

/-!
# Terminal states

A job which is `Done`, `DLQ`, `Cancelled` or `Conflict` is to make no further transition.  `fail_dlq` and
`mark_conflict` select their row by its id alone, and `promote_retries` calls the first of them on rows it
read in an earlier critical section.
-/

open Reasoning

namespace Gradatum.Queue

/-! ## 1. Writes that do not look at the status -/

def blindWrite (id : Ulid) (status : JobStatus) (row : JobRow) : Option JobStatus :=
  match row.payload with
  | .json _ => if row.id = id then some status else none
  | .corrupt _ => none

def Call.blindStatus : Call → JobRow → Option JobStatus
  | .failDlq _ id _, row => blindWrite id .dlq row
  | .markConflict _ id _ _, row => blindWrite id .conflict row
  | .promoteRetry _ _ c, row =>
    match c.payload with
    | .json record => if retryExhausted c record = true then blindWrite record.id .dlq row else none
    | .corrupt _ => none
  | _, _ => none

/-- The steps of the lifecycle: all calls but the administrator's replay and the deletion of dead
letters, which are meant for ended jobs. -/
def Event.isLifecycleStep : Event → Bool
  | .call (.replaySingle _ _) => false
  | .call (.deleteDlqJobs _) => false
  | _ => true

theorem RowChange.status_of_terminal (h : RowChange c row row')
    (hc : (Event.call c).isLifecycleStep = true) (hterm : row.status.isTerminal = true) :
    row'.status = row.status ∨ c.blindStatus row = some row'.status := by
  -- an operation that checks for an active status has not met this row
  have hact : ∀ {st : JobStatus}, row.status = st → st.isTerminal = false →
      row'.status = row.status ∨ c.blindStatus row = some row'.status := by
    intro st hst hfalse
    rw [hst, hfalse] at hterm
    cases hterm
  cases h with
  | leased hpend | leasedByKind _ _ hpend | delivered _ _ hpend => exact hact hpend rfl
  | completed _ hrun | failed _ hrun | recovered _ _ hrun | rescheduled _ hrun => exact hact hrun rfl
  | cancelled _ hfalse | expired _ hfalse => exact hact rfl hfalse
  | deadLettered hid hpay =>
    right
    simp [Call.blindStatus, blindWrite, hpay, hid, dlqRow]
  | conflicted hid hpay =>
    right
    simp [Call.blindStatus, blindWrite, hpay, hid, conflictRow]
  | readied _ hwait => exact hact hwait rfl
  | exhausted hsnap hexh hid hpay =>
    right
    simp [Call.blindStatus, blindWrite, hsnap, hexh, hpay, hid, dlqRow]
  | retried _ _ _ hfail => exact hact hfail rfl
  | purged _ => exact .inl rfl
  | replayed => cases hc

theorem onRow_blindWrite {id : Ulid}
    {write : JobRow → JobRecord → JobRow} (hwrite : ∀ record, (write row record).status = status)
    (h : blindWrite id status row = some st) : (patchedRow id (fun _ => true)
      (fun row record => (.write (.ok ()) (write row record) : Patch Unit)) row).status = st := by
  unfold blindWrite at h
  cases hpay : row.payload with
  | corrupt text => simp [hpay] at h
  | json record =>
    simp only [hpay] at h
    split at h
    · rename_i hid
      cases h
      simp [patchedRow, hid, hpay, deserializeRecord, hwrite]
    · cases h

theorem Call.onRow_of_blindStatus {c : Call}
    (h : c.blindStatus row = some st) : ∃ row', c.onRow t row = some row' ∧ row'.status = st := by
  cases c with
  | failDlq | markConflict => exact ⟨_, rfl, onRow_blindWrite (fun _ => rfl) h⟩
  | promoteRetry clk now c =>
    refine ⟨_, rfl, ?_⟩
    cases hpay : c.payload with
    | corrupt text => simp [Call.blindStatus, hpay] at h
    | json record =>
      simp only [Call.blindStatus, hpay] at h
      split at h
      · rename_i hexh
        simp only [deserializeRecord, if_pos hexh]
        exact onRow_blindWrite (fun _ => rfl) h
      · cases h
  | _ => cases h

/-! ## 2. One step -/

/-- No row that had ended in `s` has another status in `s'`. -/
def KeepsTerminal (s s' : QueueState) : Prop :=
  ∀ id st, s.statusOf id = some st → st.isTerminal = true → s'.statusOf id = some st

def TerminalGuard (s : QueueState) (e : Event) : Prop :=
  ∀ c, e.callOf s = some c → ∀ id row st, s.jobs.find? id = some row →
    row.status.isTerminal = true → c.blindStatus row = some st → row.status = st

theorem Event.callOf_isLifecycleStep {e : Event} (he : e.isLifecycleStep = true)
    (hc : e.callOf s = some c) : (Event.call c).isLifecycleStep = true := by
  rcases Event.callOf_cases hc with rfl | ⟨_, _, _, -, -, rfl⟩ | ⟨_, _, -, -, rfl⟩
  · exact he
  · rfl
  · rfl

theorem find?_lifecycle_step (he : e.isLifecycleStep = true)
    (hrow : s.jobs.find? k = some row) : ∃ row', (step s e).jobs.find? k = some row' ∧
      (row' = row ∨ ∃ c, e.callOf s = some c ∧ RowChange c row row') := by
  rw [find?_step_of_some hrow]
  cases hc : e.callOf s with
  | none => exact ⟨row, rfl, .inl rfl⟩
  | some c =>
    have hlif := Event.callOf_isLifecycleStep he hc
    cases hon : c.onRow s.jobs row with
    | none =>
      -- only the deletion of dead letters removes a row
      cases c <;> first | cases hon | cases hlif
    | some row' =>
      refine ⟨row', hon, ?_⟩
      rcases Call.onRow_cases hrow hon with rfl | hchg
      · exact .inl rfl
      · exact .inr ⟨c, rfl, hchg⟩

theorem keepsTerminal_step_iff (he : e.isLifecycleStep = true) :
    KeepsTerminal s (step s e) ↔ TerminalGuard s e := by
  constructor
  · intro hkeeps c hc id row st hrow hterm hblind
    obtain ⟨row', hon, hst⟩ := Call.onRow_of_blindStatus (t := s.jobs) hblind
    have hafter := hkeeps id row.status (statusOf_eq_some_iff.2 ⟨row, hrow, rfl⟩) hterm
    simp only [QueueState.statusOf, statusIn, find?_step_of_some hrow, hc, hon, Option.map_some,
      Option.some.injEq] at hafter
    rw [← hafter, hst]
  · intro hguard id st hbef hterm
    obtain ⟨row, hrow, rfl⟩ := statusOf_eq_some_iff.1 hbef
    obtain ⟨row', hrow', hchg⟩ := find?_lifecycle_step he hrow
    refine statusOf_eq_some_iff.2 ⟨row', hrow', ?_⟩
    rcases hchg with rfl | ⟨c, hc, hchg⟩
    · rfl
    · rcases hchg.status_of_terminal (Event.callOf_isLifecycleStep he hc) hterm with h | hblind
      · exact h
      · exact (hguard c hc id row _ hrow hterm hblind).symm

/-! ## 3. Whole runs -/

theorem KeepsTerminal.refl (s : QueueState) : KeepsTerminal s s := fun _ _ h _ => h

theorem KeepsTerminal.trans (h₁ : KeepsTerminal s₁ s₂) (h₂ : KeepsTerminal s₂ s₃) : KeepsTerminal s₁ s₃ :=
  fun id st hst hterm => h₂ id st (h₁ id st hst hterm) hterm

/-- Terminal states are absorbing in the run of `es` from `s`: a row that has ended in one state of
the run has the same status in every later one. -/
def TerminalAbsorbing (s : QueueState) (es : List Event) : Prop :=
  ∀ pre post, pre ++ post <+: es →
    KeepsTerminal (run step s pre) (run step s (pre ++ post))

/-- Terminal states are absorbing in a run just when none of its steps sends a row that has ended
otherwise to the dead letters or to `Conflict`. -/
theorem terminalAbsorbing_iff_guarded (s : QueueState) (es : List Event)
    (hes : ∀ e ∈ es, e.isLifecycleStep = true) :
    TerminalAbsorbing s es ↔ EachStep step TerminalGuard s es := by
  have hsteps : TerminalAbsorbing s es ↔
      EachStep step (fun s e => KeepsTerminal s (step s e)) s es :=
    (eachStep_iff_between KeepsTerminal.refl fun _ _ _ => KeepsTerminal.trans).symm
  rw [hsteps]
  exact eachStep_congr fun s e he => keepsTerminal_step_iff (hes e he)

def completedRun : List Event :=
  [.call (.enqueue (makeRecord 1 .summarize .pending)),
   .call (.dequeueByKind (.at 0) "Summarize" none),
   .call (.complete (.at 1) 1 .ok),
   .call (.cancel (.at 2) 1 none)]

theorem terminalAbsorbing_completedRun : TerminalAbsorbing (.initial 999) completedRun := by
  apply (terminalAbsorbing_iff_guarded (.initial 999) completedRun (by decide)).2
  refine ⟨?_, ?_, ?_, ?_, trivial⟩ <;>
  · intro c hc id row st _ _ hblind
    cases hc
    cases hblind

/-- The retry sweep reads a failed job whose attempts are used up, the job is cancelled, and the sweep
then acts on what it read. -/
def cancelledDuringSweep : List Event :=
  [.call (.enqueue (makeRecord 1 .summarize .pending)),
   .call (.dequeueByKind (.at 0) "Summarize" none),
   .call (.fail (.at 1) 1 "timeout" 3),
   .retrySelect 0 2,
   .call (.cancel (.at 3) 1 none),
   .retryNext 0 (.at 4)]

/-- The cancelled job becomes a dead letter. -/
theorem not_terminalAbsorbing_cancelledDuringSweep :
    (∀ e ∈ cancelledDuringSweep, e.isLifecycleStep = true) ∧
      ¬ TerminalAbsorbing (.initial 999) cancelledDuringSweep := by
  refine ⟨by decide, fun h => ?_⟩
  have hcancelled : (run step (.initial 999) (cancelledDuringSweep.take 5)).statusOf 1 =
      some .cancelled := by decide
  have hdlq : (run step (.initial 999) cancelledDuringSweep).statusOf 1 = some .dlq := by decide
  have hkept := h (cancelledDuringSweep.take 5) (cancelledDuringSweep.drop 5)
    (by rw [List.take_append_drop]) 1 .cancelled hcancelled rfl
  rw [List.take_append_drop, hdlq] at hkept
  cases hkept

/-! ## 4. What becomes of a job -/

/-- The columns that no operation writes. -/
def JobRow.origin (row : JobRow) :=
  (row.kind, row.jobClass, row.priority, row.createdAt, row.deadline, row.awaitJobs, row.tenantId)

/-- The jobs of `s` are in `s'`, with the same `origin`. -/
def KeepsJobs (s s' : QueueState) : Prop :=
  ∀ k row, s.jobs.find? k = some row →
    ∃ row', s'.jobs.find? k = some row' ∧ row'.origin = row.origin

theorem keepsJobs_run (s : QueueState) (es : List Event) (hes : ∀ e ∈ es, e.isLifecycleStep = true) :
    KeepsJobs s (run step s es) := by
  induction es generalizing s with
  | nil => exact fun _ row hrow => ⟨row, hrow, rfl⟩
  | cons e es ih =>
    intro k row hrow
    obtain ⟨row₁, hrow₁, hchg⟩ := find?_lifecycle_step (hes e List.mem_cons_self) hrow
    have heq : row₁.origin = row.origin := by
      rcases hchg with rfl | ⟨c, -, hchg⟩
      · rfl
      · cases hchg <;> rfl
    obtain ⟨row', hrow', hsame⟩ := ih _ (fun e he => hes e (List.mem_cons_of_mem _ he)) k row₁ hrow₁
    exact ⟨row', hrow', hsame.trans heq⟩

theorem keepsJobs_completedRun :
    KeepsJobs (run step (.initial 999) (completedRun.take 1)) (run step (.initial 999) completedRun) :=
  keepsJobs_run (run step (.initial 999) (completedRun.take 1)) (completedRun.drop 1) (by decide)

/-- A running job has a lease, and once this has been over for `ttl` the sweep hands the job out again. -/
def Recoverable (s : QueueState) : Prop :=
  ∀ k row, s.jobs.find? k = some row → row.status = .running →
    ∃ until_, row.leaseUntil = some until_ ∧
      ∀ clk ttl d, chronoDuration ttl = some d → until_ < clk.now - d →
        (recoverStaleLeases clk ttl s.jobs).find? k = some (recoveredRow clk.again row)

def RunningLeased (s : QueueState) : Prop :=
  ∀ k row, s.jobs.find? k = some row → row.status = .running → row.leaseUntil.isSome = true

def EnqueuesIdle (_ : QueueState) (e : Event) : Prop :=
  ∀ job, e = .call (.enqueue job) → job.lifecycle.status ≠ .running

theorem RunningLeased.step (h : RunningLeased s) (he : EnqueuesIdle s e) : RunningLeased (step s e) := by
  refine rows_step h (fun job hjob hrun => absurd hrun (he job hjob)) ?_
  intro c k row row' _ hrow hlease hon
  rcases Call.onRow_cases hrow hon with rfl | hchg
  · exact hlease
  cases hchg with
  | leased | leasedByKind => exact fun _ => rfl
  | purged => exact hlease
  | _ => rintro ⟨⟩

theorem RunningLeased.recoverable (h : RunningLeased s) : Recoverable s := by
  intro k row hrow hrun
  obtain ⟨until_, huntil⟩ := Option.isSome_iff_exists.1 (h k row hrow hrun)
  refine ⟨until_, huntil, fun clk ttl d hd hover => ?_⟩
  simp [recoverStaleLeases, hd, Table.find?_updateWhere, hrow, isStale, hrun, huntil, columnBefore, hover]

theorem recoverable_run (variableLimit : Nat) (es : List Event)
    (hes : EachStep step EnqueuesIdle (.initial variableLimit) es) :
    Always step Recoverable (.initial variableLimit) es := fun _ hpre =>
  (hes.always (fun _ _ h => by cases h) (fun _ _ h he => RunningLeased.step h he) _ hpre).recoverable

theorem recoverable_completedRun : Always step Recoverable (.initial 999) completedRun := by
  refine recoverable_run 999 _ ⟨?_, ?_, ?_, ?_, trivial⟩ <;> rintro job ⟨⟩
  decide

end Gradatum.Queue
