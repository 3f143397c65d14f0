import Gradatum.Queue.Sound
import Gradatum.Queue.Terminal

/-!
# The retry budget

A job is to be leased at most `max 1 retry.max` times before it ends.  A dequeue adds one to
`attempt_count`, `fail` replaces it by the number that the worker hands over, and `recover_stale_leases`
puts a job back without looking at it.
-/

open Reasoning

namespace Gradatum.Queue

open Function

/-! ## 1. Acknowledgement -/

structure Task where
  jobId : Ulid
  attempt : UInt32

/-- `record_to_task` builds the task of a dequeued job anew; its counter knows nothing of earlier
tasks of the job. -/
def recordToTask (record : JobRecord) : Task := ⟨record.id, 0⟩

def Task.tried (task : Task) : Task := { task with attempt := task.attempt + 1 }

/-- `GradatumAcknowledger::ack`: the call that reports the outcome of a task. -/
def ack (clk : Clock) (durationMs : UInt32) (task : Task) : Except String Unit → Call
  | .ok _ =>
    .complete clk task.jobId { success := true, durationMs := durationMs, resultNote := none }
  | .error msg => .fail clk task.jobId msg task.attempt

/-! ## 2. Counting leases -/

def Event.leasesJob (s : QueueState) (id : Ulid) : Event → Bool
  | .call (.dequeue clk tenant) =>
    (s.jobs.selectFirst (isReady clk.now tenant) dequeueOrder).any fun first => id = first.id
  | .call (.dequeueByKind clk kind tenant) =>
    decide (kind ≠ jobKindMessage) &&
      (s.jobs.selectFirst (isReadyOfKind clk.now kind tenant) dequeueOrder).any
        fun first => id = first.id
  | _ => false

structure CountedState where
  queue : QueueState
  leases : Ulid → Nat

variable (variableLimit : Nat)

def CountedState.initial : CountedState := ⟨.initial variableLimit, fun _ => 0⟩

def countedStep (s : CountedState) (e : Event) : CountedState where
  queue := step s.queue e
  leases := fun id => s.leases id + if e.leasesJob s.queue id = true then 1 else 0

variable {e : Event} {id : Ulid} {row : JobRow} {record : JobRecord}

theorem onRow_of_leasesJob (hrow : s.jobs.find? id = some row) (hlease : e.leasesJob s id = true) :
    ∃ c clk, e.callOf s = some c ∧ c.onRow s.jobs row = some (leaseRow clk row) ∧
      row.status = .pending := by
  have hid : row.id = id := Table.key_of_find? hrow
  -- the selected row is the row of the job
  have hleas : ∀ clk eligible,
      (s.jobs.selectFirst eligible dequeueOrder).any (fun first => decide (id = first.id)) = true →
      eligible row = true ∧ leasedRow s.jobs clk eligible row = leaseRow clk row := by
    intro clk eligible hany
    have heq : leasedRow s.jobs clk eligible row = leaseRow clk row := by
      unfold leasedRow
      rw [hid, if_pos hany]
    rcases leasedRow_cases hrow clk eligible with hsame | ⟨hfirst, -⟩
    · have hatt := congrArg JobRow.attemptCount (heq.symm.trans hsame)
      simp [leaseRow] at hatt
    · exact ⟨(Table.selectFirst_some hfirst).2, heq⟩
  cases e with
  | call c =>
    cases c with
    | dequeue clk tenant =>
      obtain ⟨hready, heq⟩ := hleas clk _ hlease
      exact ⟨_, clk, rfl, by rw [Call.onRow, heq], isReady_pending hready⟩
    | dequeueByKind clk kind tenant =>
      simp only [Event.leasesJob, Bool.and_eq_true, decide_eq_true_eq] at hlease
      obtain ⟨hready, heq⟩ := hleas clk _ hlease.2
      simp only [isReadyOfKind, Bool.and_eq_true] at hready
      exact ⟨_, clk, rfl, by rw [Call.onRow, if_neg hlease.1, heq], isReady_pending hready.1⟩
    | _ => cases hlease
  | _ => cases hlease

theorem not_leasesJob_of_none (hnone : s.jobs.find? id = none)
    (e : Event) : e.leasesJob s id = false := by
  have hany : ∀ eligible, (s.jobs.selectFirst eligible dequeueOrder).any
      (fun first => decide (id = first.id)) = false := by
    intro eligible
    cases hfirst : s.jobs.selectFirst eligible dequeueOrder with
    | none => rfl
    | some first =>
      have hmem := (Table.selectFirst_some hfirst).1
      by_cases hid : id = first.id
      · rw [hid, Table.find?_of_mem hmem] at hnone
        cases hnone
      · simpa using hid
  cases e with
  | call c => cases c <;> simp [Event.leasesJob, hany]
  | _ => rfl

/-! ## 3. The budget of a job -/

def JobRecord.budget (record : JobRecord) : Nat := max 1 record.retry.max.toNat

/-- The three writes that can spoil the count, each with what it would have to look at: the number that
`fail` hands over, the count of a job whose lease is recovered, and the present count of a job that
`promote_retries` puts back. -/
def Call.RetryGuard (t : JobTable) : Call → Prop
  | .fail clk id _ attempt =>
    ∀ row, t.find? id = some row → row.status = .running →
      columnAfter row.leaseUntil clk.now = true → row.attemptCount ≤ attempt.toNat
  | .recoverStaleLeases clk ttl =>
    ∀ id row record d, t.find? id = some row → row.payload = .json record →
      chronoDuration ttl = some d → isStale (clk.now - d) row = true →
      row.attemptCount < record.budget
  | .promoteRetry _ _ c =>
    ∀ row record snapshot, t.find? c.id = some row → row.payload = .json record →
      c.payload = .json snapshot → retryExhausted c snapshot = false → row.status = .failed →
      row.attemptCount < record.budget
  | _ => True

def RetryGuard (s : QueueState) (e : Event) : Prop := ∀ c, e.callOf s = some c → c.RetryGuard s.jobs

def JobRow.isQueued (row : JobRow) : Prop := row.status = .pending ∨ row.status = .waiting

structure RowBudget (n : Nat) (row : JobRow) (record : JobRecord) : Prop where
  counted : n ≤ row.attemptCount
  bounded : n ≤ record.budget
  queued : row.isQueued → row.attemptCount < record.budget

theorem RowChange.attempts_of_guard (h : RowChange c row row') (hguard : c.RetryGuard t)
    (hlif : (Event.call c).isLifecycleStep = true) (hrow : t.find? k = some row)
    (hpay : row.payload = .json record) (hqueued : row.isQueued → row.attemptCount < record.budget) :
    row.attemptCount ≤ row'.attemptCount ∧ (row'.isQueued → row'.attemptCount < record.budget) := by
  have hid : row.id = k := Table.key_of_find? hrow
  cases h with
  | leased | leasedByKind => exact ⟨Nat.le_succ _, nofun⟩
  | failed hjob hrun _ hlease =>
    rw [← hid, hjob] at hrow
    exact ⟨hguard row hrow hrun hlease, nofun⟩
  | readied _ hwait => exact ⟨le_rfl, fun _ => hqueued (.inr hwait)⟩
  | recovered hd hstale _ =>
    exact ⟨le_rfl, fun _ => hguard k row record _ hrow hpay hd hstale⟩
  | retried hsnap hexh hjob hfail =>
    rw [← hid, hjob] at hrow
    exact ⟨le_rfl, fun _ => hguard row record _ hrow hpay hsnap hexh hfail⟩
  | purged _ => exact ⟨le_rfl, hqueued⟩
  | replayed _ _ => cases hlif
  | _ => exact ⟨le_rfl, nofun⟩

theorem SameOrigin.budget (h : SameOrigin r r') : r'.budget = r.budget := by
  unfold JobRecord.budget
  rw [h.2]

theorem RowBudget.keep (h : RowBudget n row record) (horig : SameOrigin record record')
    (hcount : row.attemptCount ≤ row'.attemptCount)
    (hqueued : row'.isQueued → row'.attemptCount < record.budget) : RowBudget n row' record' where
  counted := h.counted.trans hcount
  bounded := by
    rw [horig.budget]
    exact h.bounded
  queued := by
    rw [horig.budget]
    exact hqueued

theorem RowBudget.lease (h : RowBudget n row record) (hpend : row.status = .pending) (clk : Clock) :
    RowBudget (n + 1) (leaseRow clk row) record := by
  have hleft : row.attemptCount < record.budget := h.queued (.inl hpend)
  have hcntd : n ≤ row.attemptCount := h.counted
  refine ⟨?_, by omega, nofun⟩
  show n + 1 ≤ row.attemptCount + 1
  omega

/-! ## 4. The invariant -/

structure RetryInv (s : CountedState) : Prop where
  sound : Sound s.queue.jobs
  absent : ∀ id, s.queue.jobs.find? id = none → s.leases id = 0
  rows : ∀ id row record, s.queue.jobs.find? id = some row → RowSound row record →
    RowBudget (s.leases id) row record
  /-- What a retry pass has read names the job it was read from. -/
  passes : ∀ p c, c ∈ (s.queue.retryPass p).todo →
    ∃ snapshot, c.payload = .json snapshot ∧ snapshot.id = c.id

theorem retryInv_initial : RetryInv (.initial variableLimit) where
  sound := sound_initial variableLimit
  absent := fun _ _ => rfl
  rows := fun _ _ _ h => by cases h
  passes := fun _ _ h => by cases h

theorem mem_retryPass_step (h : c ∈ ((step s e).retryPass p).todo) :
    c ∈ (s.retryPass p).todo ∨ ∃ now, c ∈ retryCandidates now s.jobs := by
  cases e with
  | retrySelect q now =>
    by_cases hq : p = q
    · subst hq
      right
      simp only [step, update_self] at h
      exact ⟨now, h⟩
    · left
      simpa only [step, update_of_ne hq] using h
  | retryNext q clk =>
    left
    by_cases hq : p = q
    · subst hq
      simp only [step, update_self, RetryPass.next] at h
      -- the pass drops its head, or all of the list after an error
      split at h
      · exact h
      · rename_i c' rest htodo
        split at h
        · cases h
        · rw [htodo]
          exact List.mem_cons_of_mem _ h
    · simpa only [step, update_of_ne hq] using h
  | _ => exact .inl h

theorem Sound.retryCandidate (h : Sound t) (hc : c ∈ retryCandidates now t) :
    ∃ snapshot, c.payload = .json snapshot ∧ snapshot.id = c.id := by
  obtain ⟨row, hmem, rfl⟩ := List.mem_map.1 hc
  have hrow := Table.find?_of_mem (List.mem_filter.1 hmem).1
  obtain ⟨record, hs⟩ := h _ row hrow
  exact ⟨record, hs.payload, hs.id⟩

theorem RetryInv.row_step (h : RetryInv s) (he : e.isLifecycleStep = true)
    (hguard : RetryGuard s.queue e) (hrow : s.queue.jobs.find? id = some row)
    (hs : RowSound row record) (hrow' : (step s.queue e).jobs.find? id = some row') :
    ∃ record', RowSound row' record' ∧ SameOrigin record record' ∧
      RowBudget ((countedStep s e).leases id) row' record' ∧ row.attemptCount ≤ row'.attemptCount := by
  have hbudg : RowBudget (s.leases id) row record := h.rows id row record hrow hs
  by_cases hlease : e.leasesJob s.queue id = true
  · obtain ⟨c, clk, hc, hon, hpend⟩ := onRow_of_leasesJob hrow hlease
    have hleas : row' = leaseRow clk row := by
      rw [find?_step_of_some hrow, hc] at hrow'
      exact Option.some.inj (hrow'.symm.trans hon)
    have hcount : (countedStep s e).leases id = s.leases id + 1 := by
      simp [countedStep, hlease]
    rw [hcount, hleas]
    have hsound : RowSound (leaseRow clk row) record :=
      hs.of_columns rfl rfl rfl (by simp [hpend])
    exact ⟨record, hsound, ⟨rfl, rfl⟩, hbudg.lease hpend clk, Nat.le_succ _⟩
  · have hcount : (countedStep s e).leases id = s.leases id := by
      simp [countedStep, hlease]
    rw [hcount]
    obtain ⟨row₂, hrow₂, hchg⟩ := find?_lifecycle_step he hrow
    rw [hrow'] at hrow₂
    cases hrow₂
    rcases hchg with rfl | ⟨c, hc, hchg⟩
    · exact ⟨record, hs, ⟨rfl, rfl⟩, hbudg, le_rfl⟩
    · obtain ⟨hatt, hqueued⟩ := hchg.attempts_of_guard (hguard c hc)
        (Event.callOf_isLifecycleStep he hc) hrow hs.payload hbudg.queued
      obtain ⟨record', hs', horig⟩ := hchg.sound hs
      exact ⟨record', hs', horig, hbudg.keep horig hatt hqueued, hatt⟩

theorem retryInv_step (h : RetryInv s)
    (he : e.isLifecycleStep = true) (hguard : RetryGuard s.queue e) : RetryInv (countedStep s e) where
  sound := h.sound.step e
  absent := by
    intro id hnone
    cases hrow : s.queue.jobs.find? id with
    | none => simp [countedStep, h.absent id hrow, not_leasesJob_of_none hrow e]
    | some row =>
      obtain ⟨row', hrow', -⟩ := find?_lifecycle_step he hrow
      cases hnone.symm.trans hrow'
  rows := by
    intro id row' record' hrow' hs'
    cases hrow : s.queue.jobs.find? id with
    | some row =>
      obtain ⟨record, hs⟩ := h.sound id row hrow
      obtain ⟨record₂, hs₂, -, hbudg, -⟩ := h.row_step he hguard hrow hs hrow'
      rw [hs₂.record_eq hs'.payload]
      exact hbudg
    | none =>
      -- a job is enqueued with no lease behind it and none on the count
      obtain ⟨job, -, rfl⟩ := find?_step_new hrow hrow'
      have hzero : (countedStep s e).leases id = 0 := by
        simp [countedStep, h.absent id hrow, not_leasesJob_of_none hrow e]
      have hpos : 0 < record'.budget := Nat.lt_of_lt_of_le Nat.zero_lt_one (le_max_left _ _)
      rw [hzero]
      exact ⟨Nat.zero_le _, Nat.zero_le _, fun _ => hpos⟩
  passes := by
    intro p c hc
    rcases mem_retryPass_step hc with hold | ⟨now, hnew⟩
    · exact h.passes p c hold
    · exact h.sound.retryCandidate hnew

/-! ## 5. Whole runs -/

def WithinBudget (s : CountedState) : Prop :=
  ∀ id row record, s.queue.jobs.find? id = some row → row.payload = .json record →
    s.leases id ≤ record.budget

def KeepsCount (s : QueueState) (e : Event) : Prop :=
  ∀ id row row', s.jobs.find? id = some row → (step s e).jobs.find? id = some row' →
    row.attemptCount ≤ row'.attemptCount

/-- The event is the turn of a `promote_retries` for the job. -/
def Event.retries (s : QueueState) (id : Ulid) : Event → Bool
  | .retryNext p _ => (s.retryPass p).todo.head?.any fun c => c.id = id
  | _ => false

/-- A job whose count has reached its budget is not put back to `Pending`; if it has failed, the turn of
`promote_retries` for it makes it a dead letter. -/
def EndsExhausted (s : QueueState) (e : Event) : Prop :=
  ∀ id row record, s.jobs.find? id = some row → row.payload = .json record →
    record.budget ≤ row.attemptCount →
    (step s e).statusOf id ≠ some .pending ∧
      (row.status = .failed → e.retries s id = true → (step s e).statusOf id = some .dlq)

/-- The retry budget is kept throughout the run of `es` from the empty table. -/
def RetryBudget (es : List Event) : Prop :=
  Always countedStep WithinBudget (.initial variableLimit) es ∧
    EachStep countedStep (fun s e => KeepsCount s.queue e ∧ EndsExhausted s.queue e)
      (.initial variableLimit) es

theorem RetryInv.withinBudget (h : RetryInv s) : WithinBudget s := by
  intro id row record hrow hpay
  obtain ⟨record', hs⟩ := h.sound id row hrow
  rw [hs.record_eq hpay]
  exact (h.rows id row record' hrow hs).bounded

theorem RetryInv.keepsCount (h : RetryInv s) (he : e.isLifecycleStep = true)
    (hguard : RetryGuard s.queue e) : KeepsCount s.queue e := by
  intro id row row' hrow hrow'
  obtain ⟨record, hs⟩ := h.sound id row hrow
  obtain ⟨-, -, -, -, hcount⟩ := h.row_step he hguard hrow hs hrow'
  exact hcount

theorem RetryInv.dlq_of_retries (h : RetryInv s) (hguard : RetryGuard s.queue e)
    (hrow : s.queue.jobs.find? id = some row) (hpay : row.payload = .json record)
    (hused : record.budget ≤ row.attemptCount) (hfail : row.status = .failed)
    (hretries : e.retries s.queue id = true) : (step s.queue e).statusOf id = some .dlq := by
  cases e with
  | retryNext p clk =>
    have ⟨c, hhead, hid⟩ : ∃ c, (s.queue.retryPass p).todo.head? = some c ∧ c.id = id := by
      simpa [Event.retries, Option.any_eq_true] using hretries
    obtain ⟨snapshot, hsnap, hself⟩ := h.passes p c (List.mem_of_mem_head? hhead)
    have hc : (Event.retryNext p clk).callOf s.queue =
        some (.promoteRetry clk (s.queue.retryPass p).now c) := by
      simp [Event.callOf, hhead]
    -- the guard leaves the pass no choice: its own snapshot is exhausted
    have hexh : retryExhausted c snapshot = true := by
      rw [← Bool.not_eq_false]
      intro hfalse
      have hleft := hguard _ hc row record snapshot (hid ▸ hrow) hpay hsnap hfalse hfail
      omega
    have hblind : (Call.promoteRetry clk (s.queue.retryPass p).now c).blindStatus row =
        some .dlq := by
      have hrowid : row.id = snapshot.id := by
        rw [hself, hid]
        exact Table.key_of_find? hrow
      simp [Call.blindStatus, blindWrite, hsnap, hexh, hpay, hrowid]
    obtain ⟨row', hon, hdlq⟩ := Call.onRow_of_blindStatus (t := s.queue.jobs) hblind
    refine statusOf_eq_some_iff.2 ⟨row', ?_, hdlq⟩
    rw [find?_step_of_some hrow, hc]
    exact hon
  | _ => cases hretries

theorem RetryInv.endsExhausted (h : RetryInv s) (he : e.isLifecycleStep = true)
    (hguard : RetryGuard s.queue e) : EndsExhausted s.queue e := by
  intro id row record hrow hpay hused
  refine ⟨fun hpend => ?_, h.dlq_of_retries hguard hrow hpay hused⟩
  obtain ⟨row', hrow', hstat⟩ := statusOf_eq_some_iff.1 hpend
  obtain ⟨record', hs⟩ := h.sound id row hrow
  cases hs.record_eq hpay
  obtain ⟨record', -, horig, hbudg, hcount⟩ := h.row_step he hguard hrow hs hrow'
  -- a job that is `Pending` after the step has attempts left, and its count has not gone down
  have hleft : row'.attemptCount < record'.budget := hbudg.queued (.inl hstat)
  rw [horig.budget] at hleft
  omega

/-- The budget is kept in every run in which no `fail` hands over a number below the count of its job,
and neither the recovery of leases nor the retry sweep puts back a job whose count has reached its
budget. -/
theorem retryBudget_of_guarded (es : List Event) (hsteps : ∀ e ∈ es, e.isLifecycleStep = true)
    (hguard : EachStep countedStep (fun s e => RetryGuard s.queue e) (.initial variableLimit) es) :
    RetryBudget variableLimit es := by
  have hlif : EachStep countedStep (fun _ e => e.isLifecycleStep = true)
      (.initial variableLimit) es :=
    EachStep.of_forall_mem (fun _ => True) trivial (fun _ _ _ => trivial) fun _ _ e he =>
      hsteps e he
  have hboth := hlif.and hguard
  have hinv := hboth.always (retryInv_initial variableLimit) fun _ _ h he =>
    retryInv_step h he.1 he.2
  refine ⟨fun pre hpre => (hinv pre hpre).withinBudget, ?_⟩
  exact hboth.imp_of_inv (retryInv_initial variableLimit)
    (fun _ _ h he => retryInv_step h he.1 he.2)
    fun _ _ h he => ⟨h.keepsCount he.1 he.2, h.endsExhausted he.1 he.2⟩

/-! ## 6. Three runs -/

def makeRetried (max : UInt32) : JobRecord :=
  let record := makeRecord 1 .summarize .pending
  { record with retry := { record.retry with max := max } }

def failedLease (start : Int) : List Event :=
  [.call (.dequeueByKind (.at start) "Summarize" none),
   .call (ack (.at (start + 1)) 0 (recordToTask (makeRetried 2)).tried (.error "timeout")),
   .retrySelect 0 (start + 2),
   .retryNext 0 (.at (start + 3))]

def retriedRun : List Event :=
  .call (.enqueue (makeRetried 2)) :: (failedLease 0 ++
    [.call (.dequeueByKind (.at 10) "Summarize" none), .call (.complete (.at 11) 1 .ok)])

def countAndBudget (t : JobTable) (id : Ulid) : Option (Nat × Nat) :=
  (t.find? id).bind fun row =>
    match row.payload with
    | .json record => some (row.attemptCount, record.budget)
    | .corrupt _ => none

theorem countAndBudget_eq (hrow : t.find? id = some row) (hpay : row.payload = .json record) :
    countAndBudget t id = some (row.attemptCount, record.budget) := by
  simp [countAndBudget, hrow, hpay]

theorem retryBudget_retriedRun : RetryBudget 999 retriedRun := by
  apply retryBudget_of_guarded 999 retriedRun (by decide)
  refine ⟨?_, ?_, ?_, ?_, ?_, ?_, ?_, trivial⟩
  · intro c hc
    cases hc
    trivial
  · intro c hc
    cases hc
    trivial
  · intro c hc
    cases hc
    intro row hrow _ _
    have hcount : ((run countedStep (.initial 999) (retriedRun.take 2)).queue.jobs.find? 1).map
        (·.attemptCount) = some 1 := by decide
    have hone : some row.attemptCount = some 1 :=
      (congrArg (Option.map JobRow.attemptCount) hrow).symm.trans hcount
    rw [Option.some.inj hone]
    decide
  · intro c hc
    cases hc
  · intro c hc
    cases hc
    intro row record _ hrow hpay _ _ _
    have hcount : countAndBudget (run countedStep (.initial 999) (retriedRun.take 4)).queue.jobs 1 =
        some (1, 2) := by decide
    have hpair := (countAndBudget_eq hrow hpay).symm.trans hcount
    simp only [Option.some.injEq, Prod.mk.injEq] at hpair
    omega
  · intro c hc
    cases hc
    trivial
  · intro c hc
    cases hc
    trivial

def repeatedFailures : List Event :=
  .call (.enqueue (makeRetried 2)) :: (failedLease 0 ++ failedLease 10 ++ failedLease 20)

def repeatedCrashes : List Event :=
  [.call (.enqueue (makeRetried 1)),
   .call (.dequeueByKind (.at 0) "Summarize" none),
   .call (.recoverStaleLeases (.at (seconds 400)) 60000000000),
   .call (.dequeueByKind (.at (seconds 401)) "Summarize" none)]

/-- A job with two attempts is leased three times, a job with one attempt is leased twice. -/
theorem not_retryBudget :
    ((∀ e ∈ repeatedFailures, e.isLifecycleStep = true) ∧ ¬ RetryBudget 999 repeatedFailures) ∧
      (∀ e ∈ repeatedCrashes, e.isLifecycleStep = true) ∧ ¬ RetryBudget 999 repeatedCrashes := by
  have hover : ∀ es count budget leases,
      countAndBudget (run countedStep (.initial 999) es).queue.jobs 1 = some (count, budget) →
      (run countedStep (.initial 999) es).leases 1 = leases → budget < leases →
      ¬ RetryBudget 999 es := by
    intro es count budget leases hpair hleases hover h
    obtain ⟨row, hrow, hmatch⟩ := Option.bind_eq_some_iff.1 hpair
    cases hpay : row.payload with
    | corrupt text => simp [hpay] at hmatch
    | json record =>
      have hbound := h.1 es (List.prefix_refl es) 1 row record hrow hpay
      simp only [hpay, Option.some.injEq, Prod.mk.injEq] at hmatch
      omega
  refine ⟨⟨by decide, ?_⟩, by decide, ?_⟩
  · exact hover repeatedFailures 1 2 3 (by decide) (by decide) (by decide)
  · exact hover repeatedCrashes 2 1 2 (by decide) (by decide) (by decide)

end Gradatum.Queue
