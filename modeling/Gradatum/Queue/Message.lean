import Gradatum.Queue.Terminal

/-!
# Message deliveries

A row of kind `Message` stays `Pending` until it is acknowledged, cancelled or past its deadline.
`dequeue_by_kind` refuses the kind; `dequeue`, `fail_dlq` and `mark_conflict` do not look at it.
-/

open Reasoning

namespace Gradatum.Queue

open Call

/-! ## 1. Deliveries -/

def JobRow.isMessage (row : JobRow) : Prop := row.kind = jobKindMessage

theorem jobKindStr_eq_message_iff (job : Job) :
    jobKindStr job = jobKindMessage ↔ job.isMessage = true := by
  cases job <;> simp [jobKindStr, jobKindMessage, Job.isMessage, jobKindPrivacyRescan]

structure Unleased (row : JobRow) : Prop where
  status : row.status ≠ .running
  lease : row.leaseUntil = none

/-- No delivery is `Running` or leased. -/
def MessagesUnleased (t : JobTable) : Prop :=
  ∀ id row, t.find? id = some row → row.isMessage → Unleased row

def Call.endsMessage : Call → Bool
  | .completeMessageDelivery _ _ _ => true
  | .cancel _ _ _ => true
  | .cancelExpiredDeadlines _ => true
  | _ => false

/-- A delivery that the step takes out of `Pending` is acknowledged, cancelled or past its deadline. -/
def LeavesPendingByEnd (s : QueueState) (e : Event) : Prop :=
  ∀ id row, s.jobs.find? id = some row → row.isMessage → row.status = .pending →
    (step s e).statusOf id ≠ some .pending → ∃ c, e.callOf s = some c ∧ c.endsMessage = true

/-! ## 2. The calls that treat deliveries as jobs -/

/-- The call does not treat a delivery as a job to execute: none is enqueued as `Running`, the first row
that is ready for a plain `dequeue` is none, and none that is `Pending` is sent to the dead letters
or to `Conflict`. -/
def Call.MessageGuard (t : JobTable) : Call → Prop
  | .enqueue job =>
    job.spec.kind.isMessage = true → t.find? job.id = none → job.lifecycle.status ≠ .running
  | .dequeue clk tenant =>
    ∀ row, t.selectFirst (isReady clk.now tenant) dequeueOrder = some row → ¬ row.isMessage
  | c => ∀ id row, t.find? id = some row → row.isMessage → row.status = .pending →
      c.blindStatus row = none

def MessageGuard (s : QueueState) (e : Event) : Prop :=
  ∀ c, e.callOf s = some c → c.MessageGuard s.jobs

theorem RowChange.kind_eq (h : RowChange c row row') : row'.kind = row.kind := by
  cases h <;> rfl

theorem Call.blindStatus_some {c : Call} (h : c.blindStatus row = some st) :
    st ≠ .pending ∧ c.endsMessage = false := by
  have hwrite : ∀ {id status}, blindWrite id status row = some st → status ≠ .pending →
      st ≠ .pending := by
    intro id status hblind hne
    unfold blindWrite at hblind
    split at hblind
    · split at hblind
      · cases hblind
        exact hne
      · cases hblind
    · cases hblind
  cases c with
  | failDlq | markConflict => exact ⟨hwrite h nofun, rfl⟩
  | promoteRetry clk now c =>
    refine ⟨?_, rfl⟩
    simp only [blindStatus] at h
    split at h
    · split at h
      · exact hwrite h nofun
      · cases h
    · cases h
  | _ => cases h

theorem Call.onRow_message {c : Call} (hrow : t.find? k = some row)
    (hmsg : row.isMessage) (hunl : Unleased row) (hguard : c.MessageGuard t)
    (hon : c.onRow t row = some row') :
    Unleased row' ∧ (row.status = .pending → row'.status ≠ .pending → c.endsMessage = true) := by
  rcases onRow_cases hrow hon with rfl | hchg
  · exact ⟨hunl, fun hpend hleft => absurd hpend hleft⟩
  cases hchg with
  | leased hpend hready =>
    rename_i clk tenant
    -- the delivery was the first ready row
    rcases leasedRow_cases hrow clk (isReady clk.now tenant) with hsame | ⟨hfirst, -⟩
    · have hatt := congrArg (·.map JobRow.attemptCount) hon
      simp [onRow, hsame, leaseRow] at hatt
    · exact absurd hmsg (hguard row hfirst)
  | leasedByKind hkind hrow' _ => exact absurd (hrow'.symm.trans hmsg) hkind
  | completed _ hrun | failed _ hrun | recovered _ _ hrun | rescheduled _ hrun =>
    exact absurd hrun hunl.status
  | delivered | cancelled =>
    refine ⟨⟨?_, rfl⟩, fun _ _ => rfl⟩
    intro hrun
    cases hrun
  | expired =>
    refine ⟨⟨?_, hunl.lease⟩, fun _ _ => rfl⟩
    intro hrun
    cases hrun
  | readied | retried =>
    refine ⟨⟨?_, hunl.lease⟩, fun _ hleft => absurd rfl hleft⟩
    intro hrun
    cases hrun
  | replayed =>
    refine ⟨⟨?_, rfl⟩, fun _ hleft => absurd rfl hleft⟩
    intro hrun
    cases hrun
  | purged =>
    exact ⟨⟨hunl.status, hunl.lease⟩, fun hpend hleft => absurd hpend hleft⟩
  | deadLettered hid hpay | conflicted hid hpay =>
    refine ⟨⟨fun hrun => ?_, rfl⟩, fun hpend _ => ?_⟩
    · cases hrun
    · have hnone := hguard k row hrow hmsg hpend
      simp [blindStatus, blindWrite, hid, hpay] at hnone
  | exhausted hsnap hexh hid hpay =>
    refine ⟨⟨fun hrun => ?_, rfl⟩, fun hpend _ => ?_⟩
    · cases hrun
    · have hnone := hguard k row hrow hmsg hpend
      simp [blindStatus, blindWrite, hsnap, hexh, hid, hpay] at hnone

/-! ## 3. Whole runs -/

structure MessageStep (s : QueueState) (e : Event) : Prop where
  unleased : MessagesUnleased (step s e).jobs
  ends : LeavesPendingByEnd s e

theorem messageStep_of_guard (h : MessagesUnleased s.jobs) (hguard : MessageGuard s e) :
    MessageStep s e where
  unleased := by
    intro k row' hrow' hmsg
    cases hrow : s.jobs.find? k with
    | none =>
      obtain ⟨job, rfl, rfl⟩ := find?_step_new hrow hrow'
      have hid : (rowOfRecord job).id = k := Table.key_of_find? hrow'
      have hkind : job.spec.kind.isMessage = true := (jobKindStr_eq_message_iff _).1 hmsg
      rw [← hid] at hrow
      exact ⟨hguard _ rfl hkind hrow, rfl⟩
    | some row =>
      rw [find?_step_of_some hrow] at hrow'
      cases hc : e.callOf s with
      | none =>
        rw [hc] at hrow'
        cases hrow'
        exact h k _ hrow hmsg
      | some c =>
        rw [hc] at hrow'
        have hkind : row'.kind = row.kind := by
          rcases onRow_cases hrow hrow' with rfl | hchg
          · rfl
          · exact hchg.kind_eq
        have hbef : row.isMessage := hkind.symm.trans hmsg
        exact (onRow_message hrow hbef (h k row hrow hbef) (hguard c hc) hrow').1
  ends := by
    intro k row hrow hmsg hpend hleft
    rw [QueueState.statusOf, statusIn, find?_step_of_some hrow] at hleft
    cases hc : e.callOf s with
    | none =>
      rw [hc] at hleft
      exact absurd (congrArg some hpend) hleft
    | some c =>
      refine ⟨c, rfl, ?_⟩
      rw [hc] at hleft
      cases hon : c.onRow s.jobs row with
      | some row' =>
        simp only [hon] at hleft
        exact (onRow_message hrow hmsg (h k row hrow hmsg) (hguard c hc) hon).2
          hpend fun hsame => hleft (congrArg some hsame)
      | none =>
        -- only dead letters are deleted
        cases c with
        | deleteDlqJobs olderThan => simp [onRow, isDeletable, hpend] at hon
        | _ => cases hon

theorem guard_of_messageStep (h : MessageStep s e) : MessageGuard s e := by
  intro c hc
  have hblind : ∀ id row, s.jobs.find? id = some row → row.isMessage → row.status = .pending →
      c.blindStatus row = none := by
    intro id row hrow hmsg hpend
    cases hblind : c.blindStatus row with
    | none => rfl
    | some st =>
      obtain ⟨row', hon, hst⟩ := onRow_of_blindStatus (t := s.jobs) hblind
      obtain ⟨hne, hends⟩ := blindStatus_some hblind
      have hleft : (step s e).statusOf id ≠ some .pending := by
        rw [QueueState.statusOf, statusIn, find?_step_of_some hrow, hc]
        simp only [hon, Option.map_some, hst]
        exact fun heq => hne (Option.some.inj heq)
      obtain ⟨c', hc', hends'⟩ := h.ends id row hrow hmsg hpend hleft
      rw [hc] at hc'
      cases hc'
      rw [hends] at hends'
      cases hends'
  cases c with
  | enqueue job =>
    intro hmsg hfree
    have hnew : (step s e).jobs.find? job.id = some (rowOfRecord job) := by
      simp [find?_step_of_none hfree, hc, inserts]
    exact (h.unleased job.id _ hnew ((jobKindStr_eq_message_iff _).2 hmsg)).status
  | dequeue clk tenant =>
    intro row hfirst hmsg
    have hrow := Table.find?_of_mem (Table.selectFirst_some hfirst).1
    have hleas : (step s e).jobs.find? row.id = some (leaseRow clk row) := by
      rw [find?_step_of_some hrow, hc]
      simp [onRow, leasedRow, hfirst]
    exact (h.unleased row.id _ hleas hmsg).status rfl
  | _ => exact hblind

/-- Deliveries are left to their recipients throughout the run of `es` from the empty table. -/
def MessagesNeverLeased (variableLimit : Nat) (es : List Event) : Prop :=
  Always step (fun s => MessagesUnleased s.jobs) (.initial variableLimit) es ∧
    EachStep step LeavesPendingByEnd (.initial variableLimit) es

/-- Deliveries are never leased, and end as they should, in just the runs in which no step treats one as
a job to execute. -/
theorem messagesNeverLeased_iff_guarded (variableLimit : Nat) (es : List Event) :
    MessagesNeverLeased variableLimit es ↔ EachStep step MessageGuard (.initial variableLimit) es := by
  have hinit : MessagesUnleased (QueueState.initial variableLimit).jobs :=
    fun _ _ h => by cases h
  have hsteps : MessagesNeverLeased variableLimit es ↔
      EachStep step MessageStep (.initial variableLimit) es := by
    rw [MessagesNeverLeased, always_iff_eachStep, and_iff_right hinit]
    constructor
    · exact fun h => (h.1.and h.2).mono fun _ _ h => ⟨h.1, h.2⟩
    · exact fun h => ⟨h.mono fun _ _ h => h.unleased, h.mono fun _ _ h => h.ends⟩
  rw [hsteps]
  have hinv : (fun s : QueueState => MessagesUnleased s.jobs) (.initial variableLimit) := hinit
  exact eachStep_iff_of_inv hinv (fun _ _ _ h => h.unleased)
    fun s e h => ⟨guard_of_messageStep, messageStep_of_guard h⟩

/-- A message is enqueued, and a worker without a kind asks for work. -/
def dequeuedMessage : List Event :=
  [.call (.enqueue (makeRecord 1 (.message 7 "operator") .pending)),
   .call (.dequeue (.at 0) none)]

theorem not_messagesNeverLeased_dequeued : ¬ MessagesNeverLeased 999 dequeuedMessage := by
  intro h
  have hsafe := h.1 dequeuedMessage (List.prefix_refl _)
  have hrun : (run step (.initial 999) dequeuedMessage).statusOf 1 = some .running := by decide
  have hkind : ((run step (.initial 999) dequeuedMessage).jobs.find? 1).map (·.kind) =
      some jobKindMessage := by decide
  obtain ⟨row, hrow, hstat⟩ := statusOf_eq_some_iff.1 hrun
  rw [hrow] at hkind
  exact (hsafe 1 row hrow (Option.some.inj hkind)).status hstat

end Gradatum.Queue
