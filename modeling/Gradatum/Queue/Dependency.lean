import Gradatum.Queue.Gate

/-!
# Jobs that await jobs

A `Waiting` job is to become `Pending` when, and only when, all the jobs it awaits are `Done`, which
`all_jobs_done` decides for lists of distinct ids.  A trigger may ask for success, failure or any end of
the job it awaits; the gate does not read it.
-/

open Reasoning

namespace Gradatum.Queue

open List

/-! ## 1. A pass from its start to its end -/

/-- The event starts a pass of process `p` that takes up a waiting job with this record: the sweep takes
up all, the cascade of a completed job those that await it. -/
def Event.takesUp (p : Nat) (record : JobRecord) : Event → Prop
  | .strandedSelect q => q = p
  | .cascadeSelect q done => q = p ∧ done ∈ record.scheduling.awaitIds
  | _ => False

def GatePass.Finished (pass : GatePass) : Prop := pass.todo = [] ∧ pass.promoting = none

variable {s : QueueState} {e : Event} {p : Nat} {id : Ulid} {row : JobRow} {record : JobRecord}

theorem tracks_of_takesUp (hs : Sound s.jobs) (hrow : s.jobs.find? id = some row)
    (hsound : RowSound row record) (hwait : row.status = .waiting)
    (hne : record.scheduling.awaitIds ≠ []) (he : e.takesUp p record) :
    ((step s e).gatePass p).Tracks id := by
  have hid : record.id = id := by rw [hsound.id, Table.key_of_find? hrow]
  have hmem : row ∈ s.jobs.rows := (Table.find?_eq_some_iff.1 hrow).1
  have hcol : row.awaitJobs = some record.scheduling.awaitIds := by
    rw [hsound.awaits, awaitColumn, if_neg]
    intro hempty
    rw [List.isEmpty_iff] at hempty
    simp [JobScheduling.awaitIds, hempty] at hne
  -- the `WHERE` clause of the pass admits the row
  have hsele : ∀ {sel : JobRow → Bool}, sel row = true →
      .json record ∈ (s.jobs.select sel).map (·.payload) := by
    intro sel hsel
    rw [← hsound.payload]
    exact List.mem_map_of_mem (mem_filter.2 ⟨hmem, hsel⟩)
  cases e with
  | strandedSelect q =>
    obtain rfl : q = p := he
    refine .inl ⟨record, ?_, hid⟩
    simp only [step, Function.update_self, GatePass.stranded, strandedPayloads]
    exact hsele (by simp [hwait, hcol, hne])
  | cascadeSelect q done =>
    obtain ⟨rfl, hdone⟩ : q = p ∧ done ∈ record.scheduling.awaitIds := he
    refine .inl ⟨record, ?_, hid⟩
    simp only [step, Function.update_self, hs.cascade_eq, awaitingPayloads]
    exact hsele (by simp [hwait, hcol, hdone])
  | _ => cases he

/-- **Completeness of the gate.**  If all that a waiting job awaits is `Done` when a pass takes it up, the
job is out of `Waiting` when the pass is over, whatever happens in between. -/
theorem released_of_finished (h : GateInv s)
    (hsteps : EachStep step GateStep s (e :: post)) (hrow : s.jobs.find? id = some row)
    (hsound : RowSound row record) (hwait : row.status = .waiting)
    (hdone : AllDone s.jobs record.scheduling.awaitIds) (he : e.takesUp p record)
    (hpost : ∀ e' ∈ post, ¬ e'.restarts p) (hfin : ((run step s (e :: post)).gatePass p).Finished) :
    Released (run step s (e :: post)).jobs id := by
  have hgat := h.gateable id row record hrow hsound hwait
  have hawaits : Awaits s.jobs id record.scheduling := ⟨row, record, hrow, hsound, rfl⟩
  obtain ⟨hfirst, hrest⟩ := hsteps
  have hstart : Pursues p id record.scheduling (step s e) :=
    { inv := gateInv_step h hfirst
      gateable := hgat
      awaits := hawaits.step hfirst.lifecycle
      done := hdone.step hfirst.lifecycle hfirst.terminal
      tracks := .inr (tracks_of_takesUp h.sound hrow hsound hwait hgat.1 he) }
  have hsame : EachStep step (fun _ e => ¬ e.restarts p) (step s e) post :=
    .of_forall_mem (fun _ => True) trivial (fun _ _ _ => trivial) fun _ _ => hpost
  have hend := ((hrest.and hsame).inv_run hstart fun _ _ h he => pursues_step h he.1 he.2).tracks
  rcases hend with hrel | ⟨r, hmem, -⟩ | hprom
  · exact hrel
  · rw [run_cons, hfin.1] at *
    cases hmem
  · have hnone := hfin.2
    rw [run_cons, hprom] at hnone
    cases hnone

/-! ## 2. The gate -/

/-- The events of the dependency machinery: jobs are enqueued, leased and completed, and the cascade and
the sweep look for jobs to promote. -/
def Event.isDependencyStep : Event → Bool
  | .call (.enqueue _) => true
  | .call (.dequeue _ _) => true
  | .call (.dequeueByKind _ _ _) => true
  | .call (.complete _ _ _) => true
  | .cascadeSelect _ _ => true
  | .strandedSelect _ => true
  | .gateCheck _ => true
  | .gateSet _ => true
  | _ => false

def PromotesOnlyReady (s : QueueState) (e : Event) : Prop :=
  ∀ id row record, s.jobs.find? id = some row → row.payload = .json record →
    row.status = .waiting → (step s e).statusOf id ≠ some .waiting →
    (step s e).statusOf id = some .pending ∧ AllDone s.jobs record.scheduling.awaitIds

/-- A waiting job whose dependencies are `Done` when a pass takes it up is out of `Waiting` when the pass is
over. -/
def PassPromotesReady (s : QueueState) (e : Event) (post : List Event) : Prop :=
  ∀ p id row record, s.jobs.find? id = some row → row.payload = .json record →
    row.status = .waiting → AllDone s.jobs record.scheduling.awaitIds → e.takesUp p record →
    (∀ e' ∈ post, ¬ e'.restarts p) → ((run step s (e :: post)).gatePass p).Finished →
    (run step s (e :: post)).statusOf id ≠ some .waiting

def DependencyGate (s : QueueState) (es : List Event) : Prop :=
  EachStep step PromotesOnlyReady s es ∧
    ∀ pre e post, pre ++ e :: post <+: es → PassPromotesReady (run step s pre) e post

theorem passPromotesReady (h : GateInv s) (hsteps : EachStep step GateStep s (e :: post)) :
    PassPromotesReady s e post := by
  intro p id row record hrow hpay hwait hdone he hpost hfin hstill
  obtain ⟨record', hsound⟩ := h.sound id row hrow
  cases hsound.record_eq hpay
  obtain ⟨st, hst, hne⟩ :=
    released_of_finished h hsteps hrow hsound hwait hdone he hpost hfin
  rw [QueueState.statusOf, hst] at hstill
  exact hne (Option.some.inj hstill)

theorem gateStep_of_dependencyStep (he : e.isDependencyStep = true)
    (henq : ∀ job, e = .call (.enqueue job) → job.lifecycle.status = .waiting →
      Gateable s.variableLimit job.scheduling.awaitIds) : GateStep s e := by
  have hguard : TerminalGuard s e := by
    intro c hc id row st _ _ hblind
    rcases Event.callOf_cases hc with rfl | ⟨_, _, _, rfl, -, -⟩ | ⟨_, _, -, -, rfl⟩
    · cases c <;> first | cases hblind | cases he
    · cases he
    · cases hblind
  refine ⟨?_, ?_, hguard, henq⟩
  · cases e with
    | call c => cases c <;> first | rfl | cases he
    | _ => rfl
  cases e with
  | call c => cases c <;> first | rfl | cases he
  | _ => rfl

theorem pending_of_dependencyStep
    (he : GateStep s e) (hdep : e.isDependencyStep = true) (hrow : s.jobs.find? id = some row)
    (hwait : row.status = .waiting) (hleft : (step s e).statusOf id ≠ some .waiting) :
    (step s e).statusOf id = some .pending := by
  obtain ⟨row', hrow', hchg⟩ := find?_lifecycle_step he.lifecycle hrow
  rw [QueueState.statusOf, statusIn, hrow'] at hleft ⊢
  rcases hchg with rfl | ⟨c, hc, hchg⟩
  · exact absurd (congrArg some hwait) hleft
  cases hchg with
  | readied _ _ => rfl
  | leased hpend | leasedByKind _ _ hpend => simp [hwait] at hpend
  | completed _ hrun => simp [hwait] at hrun
  | _ =>
    -- a call that is not part of the machinery
    rcases Event.callOf_cases hc with rfl | ⟨_, _, _, rfl, -, -⟩ | ⟨_, _, -, -, heq⟩
    · cases hdep
    · cases hdep
    · cases heq

theorem allDone_of_promoted_run
    (hgate : EachStep step GateStep (.initial variableLimit) es) (hpre : pre ++ [e] <+: es)
    (hrow : (run step (.initial variableLimit) pre).jobs.find? id = some row)
    (hpay : row.payload = .json record) (hwait : row.status = .waiting)
    (hpend : (step (run step (.initial variableLimit) pre) e).statusOf id = some .pending) :
    AllDone (run step (.initial variableLimit) pre).jobs record.scheduling.awaitIds := by
  have h := hgate.always (gateInv_initial variableLimit) (fun _ _ => gateInv_step) pre
    ((prefix_append _ _).trans hpre)
  obtain ⟨record', hsound⟩ := h.sound id row hrow
  cases hsound.record_eq hpay
  exact h.allDone_of_promoted (eachStep_iff_forall_append.1 hgate pre e hpre) hrow hsound hwait
    hpend

theorem passPromotesReady_run (hgate : EachStep step GateStep (.initial variableLimit) es)
    (hpre : pre ++ e :: post <+: es) : PassPromotesReady (run step (.initial variableLimit) pre) e post :=
  passPromotesReady
    (hgate.always (gateInv_initial variableLimit) (fun _ _ => gateInv_step) pre
      ((prefix_append _ _).trans hpre))
    (eachStep_append.1 (hgate.restrict hpre)).2

/-- The gate holds in every run in which the jobs enqueued as `Waiting` await at least one job, none of
them twice, and no more than a statement can bind; and for such a list `all_jobs_done` answers as it
should. -/
theorem dependencyGate_of_gateable (variableLimit : Nat) (es : List Event)
    (hsteps : ∀ e ∈ es, e.isDependencyStep = true)
    (henqueue : ∀ job, .call (.enqueue job) ∈ es → job.lifecycle.status = .waiting →
      Gateable variableLimit job.scheduling.awaitIds) : DependencyGate (.initial variableLimit) es ∧
      ∀ ids, Gateable variableLimit ids → ∀ t : JobTable,
        allJobsDone variableLimit ids t = .ok (decide (AllDone t ids)) := by
  have hgate : EachStep step GateStep (.initial variableLimit) es := by
    apply EachStep.of_forall_mem (fun s => s.variableLimit = variableLimit) rfl
    · exact fun _ _ h => h
    intro s hs e he
    apply gateStep_of_dependencyStep (hsteps e he)
    rintro job rfl hwait
    rw [hs]
    exact henqueue job he hwait
  refine ⟨⟨?_, fun pre e post hpre => passPromotesReady_run hgate hpre⟩,
    fun ids h t => allJobsDone_of_gateable h t⟩
  rw [eachStep_iff_forall_append]
  intro pre e hpre id row record hrow hpay hwait hleft
  have he := eachStep_iff_forall_append.1 hgate pre e hpre
  have hdep := hsteps e (hpre.subset (by simp))
  have hpend := pending_of_dependencyStep he hdep hrow hwait hleft
  exact ⟨hpend, allDone_of_promoted_run hgate hpre hrow hpay hwait hpend⟩

def makeWaiting (id : Ulid) (triggers : List JobTrigger) : JobRecord :=
  let record := makeRecord id .summarize .waiting
  { record with scheduling := { record.scheduling with awaitJobs := triggers } }

def sweptRun (triggers : List JobTrigger) : List Event :=
  [.call (.enqueue (makeRecord 1 .summarize .pending)),
   .call (.enqueue (makeWaiting 2 triggers)),
   .call (.dequeueByKind (.at 0) "Summarize" none),
   .call (.complete (.at 1) 1 .ok),
   .strandedSelect 0,
   .gateCheck 0,
   .gateSet 0]

theorem dependencyGate_sweptRun : DependencyGate (.initial 999) (sweptRun [⟨1, .onDone⟩]) := by
  refine (dependencyGate_of_gateable 999 (sweptRun [⟨1, .onDone⟩]) (by decide) ?_).1
  intro job hmem hwait
  simp only [sweptRun, mem_cons, Event.call.injEq, Call.enqueue.injEq, reduceCtorEq,
    not_mem_nil, or_false] at hmem
  rcases hmem with rfl | rfl
  · cases hwait
  · exact ⟨by decide, by decide, by decide⟩

/-- A job that awaits the same job twice stays `Waiting` after its dependency is `Done` and the sweep is
over. -/
theorem not_dependencyGate_repeated :
    (∀ e ∈ sweptRun [⟨1, .onDone⟩, ⟨1, .onDone⟩], e.isDependencyStep = true) ∧
      ¬ DependencyGate (.initial 999) (sweptRun [⟨1, .onDone⟩, ⟨1, .onDone⟩]) := by
  refine ⟨by decide, fun h => ?_⟩
  have hpass := h.2 ((sweptRun [⟨1, .onDone⟩, ⟨1, .onDone⟩]).take 4) (.strandedSelect 0)
    [.gateCheck 0, .gateSet 0] (prefix_refl _)
  refine hpass 0 2 (rowOfRecord (makeWaiting 2 [⟨1, .onDone⟩, ⟨1, .onDone⟩]))
    (makeWaiting 2 [⟨1, .onDone⟩, ⟨1, .onDone⟩]) rfl rfl rfl (by decide) rfl ?_ ?_ (by decide)
  · intro e' he'
    simp only [mem_cons, not_mem_nil, or_false] at he'
    rcases he' with rfl | rfl <;> exact id
  · exact ⟨rfl, rfl⟩

/-! ## 3. Trigger conditions -/

def TriggerCondition.satisfiedBy : TriggerCondition → JobStatus → Bool
  | .onDone, st => st = .done
  | .onFailed, st => st = .dlq
  | .onAnyTerminal, st => st.isTerminal

def TriggersMet (t : JobTable) (triggers : List JobTrigger) : Prop :=
  ∀ tr ∈ triggers, ∃ st, statusIn t tr.jobId = some st ∧ tr.condition.satisfiedBy st = true

def PromotesOnlyTriggered (s : QueueState) (e : Event) : Prop :=
  ∀ id row record, s.jobs.find? id = some row → row.payload = .json record →
    row.status = .waiting → (step s e).statusOf id = some .pending →
    TriggersMet s.jobs record.scheduling.awaitJobs

/-- A waiting job whose triggers are met when a pass takes it up is out of `Waiting` when the pass is
over. -/
def PassPromotesTriggered (s : QueueState) (e : Event) (post : List Event) : Prop :=
  ∀ p id row record, s.jobs.find? id = some row → row.payload = .json record →
    row.status = .waiting → TriggersMet s.jobs record.scheduling.awaitJobs → e.takesUp p record →
    (∀ e' ∈ post, ¬ e'.restarts p) → ((run step s (e :: post)).gatePass p).Finished →
    (run step s (e :: post)).statusOf id ≠ some .waiting

def TriggersHonoured (s : QueueState) (es : List Event) : Prop :=
  EachStep step PromotesOnlyTriggered s es ∧
    ∀ pre e post, pre ++ e :: post <+: es → PassPromotesTriggered (run step s pre) e post

def OnDoneOnly (scheduling : JobScheduling) : Prop :=
  ∀ tr ∈ scheduling.awaitJobs, tr.condition = .onDone

theorem triggersMet_iff_allDone (h : OnDoneOnly scheduling) :
    TriggersMet t scheduling.awaitJobs ↔ AllDone t scheduling.awaitIds := by
  constructor
  · intro hmet id hid
    obtain ⟨tr, htr, rfl⟩ := List.mem_map.1 hid
    obtain ⟨st, hst, hsat⟩ := hmet tr htr
    rw [h tr htr] at hsat
    simp only [TriggerCondition.satisfiedBy, decide_eq_true_eq] at hsat
    rw [hst, hsat]
  · intro hdone tr htr
    refine ⟨.done, hdone tr.jobId (List.mem_map_of_mem htr), ?_⟩
    rw [h tr htr]
    rfl

/-- Trigger conditions are honoured in every run in which the jobs enqueued as `Waiting` have triggers
that all ask for success, on lists for which the gate is exact, and no terminal status is
overwritten. -/
theorem triggersHonoured_of_onDone (variableLimit : Nat) (es : List Event)
    (hsteps : ∀ e ∈ es, e.isLifecycleStep = true ∧ e.bypassesGate = false)
    (hterminal : EachStep step TerminalGuard (.initial variableLimit) es)
    (henqueue : ∀ job, .call (.enqueue job) ∈ es → job.lifecycle.status = .waiting →
      Gateable variableLimit job.scheduling.awaitIds ∧ OnDoneOnly job.scheduling) :
    TriggersHonoured (.initial variableLimit) es := by
  have hall : EachStep step (fun s e => (e.isLifecycleStep = true ∧ e.bypassesGate = false) ∧
      ∀ job, e = .call (.enqueue job) → job.lifecycle.status = .waiting →
        Gateable s.variableLimit job.scheduling.awaitIds ∧ OnDoneOnly job.scheduling)
      (.initial variableLimit) es := by
    apply EachStep.of_forall_mem (fun s => s.variableLimit = variableLimit) rfl
    · exact fun _ _ h => h
    intro s hs e he
    refine ⟨hsteps e he, ?_⟩
    rintro job rfl hwaiti
    rw [hs]
    exact henqueue job he hwaiti
  have hboth := hall.and hterminal
  have hgate : EachStep step GateStep (.initial variableLimit) es :=
    hboth.mono fun _ _ h => ⟨h.1.1.1, h.1.1.2, h.2, fun job hjob hw => (h.1.2 job hjob hw).1⟩
  -- the triggers of every job that waits ask for success
  have honly : Always step (fun s => Sound s.jobs ∧ WaitingOnly OnDoneOnly s.jobs)
      (.initial variableLimit) es :=
    hall.always ⟨sound_initial variableLimit, fun _ _ _ h => by cases h⟩ fun _ e h he =>
      ⟨h.1.step e, h.2.step h.1 he.1.1 fun job hjob hw => (he.2 job hjob hw).2⟩
  have hmet : ∀ pre id row record, pre <+: es →
      (run step (.initial variableLimit) pre).jobs.find? id = some row →
      row.payload = .json record → row.status = .waiting →
      (TriggersMet (run step (.initial variableLimit) pre).jobs record.scheduling.awaitJobs ↔
        AllDone (run step (.initial variableLimit) pre).jobs record.scheduling.awaitIds) := by
    intro pre id row record hpre hrow hpay hwaiti
    obtain ⟨hsound, hwait⟩ := honly pre hpre
    obtain ⟨record', hs⟩ := hsound id row hrow
    cases hs.record_eq hpay
    exact triggersMet_iff_allDone (hwait id row record hrow hs hwaiti)
  constructor
  · rw [eachStep_iff_forall_append]
    intro pre e hpre id row record hrow hpay hwaiti hpend
    rw [hmet pre id row record ((prefix_append _ _).trans hpre) hrow hpay hwaiti]
    exact allDone_of_promoted_run hgate hpre hrow hpay hwaiti hpend
  · intro pre e post hpre p id row record hrow hpay hwaiti htriggers
    rw [hmet pre id row record ((prefix_append _ _).trans hpre) hrow hpay hwaiti]
      at htriggers
    exact passPromotesReady_run hgate hpre p id row record hrow hpay hwaiti htriggers

theorem triggersHonoured_sweptRun : TriggersHonoured (.initial 999) (sweptRun [⟨1, .onDone⟩]) := by
  apply triggersHonoured_of_onDone 999 (sweptRun [⟨1, .onDone⟩]) (by decide)
  · refine ⟨?_, ?_, ?_, ?_, ?_, ?_, ?_, trivial⟩ <;>
    · intro c hc id row st _ _ hblind
      cases hc <;> cases hblind
  intro job hmem hwait
  simp only [sweptRun, mem_cons, Event.call.injEq, Call.enqueue.injEq, reduceCtorEq,
    not_mem_nil, or_false] at hmem
  rcases hmem with rfl | rfl
  · cases hwait
  refine ⟨⟨by decide, by decide, by decide⟩, ?_⟩
  intro tr htr
  rw [mem_singleton.1 htr]

/-- Job 1 uses up its attempts and becomes a dead letter, then the sweep looks at job 2. -/
def sweptAfterFailure (triggers : List JobTrigger) : List Event :=
  [.call (.enqueue (makeRecord 1 .summarize .pending)),
   .call (.enqueue (makeWaiting 2 triggers)),
   .call (.dequeueByKind (.at 0) "Summarize" none),
   .call (.fail (.at 1) 1 "timeout" 3),
   .retrySelect 0 2,
   .retryNext 0 (.at 3),
   .strandedSelect 0,
   .gateCheck 0,
   .gateSet 0]

/-- A job that waits for a failure is promoted by a success, and one that waits for any end is not
promoted by a failure. -/
theorem not_triggersHonoured : ¬ TriggersHonoured (.initial 999) (sweptRun [⟨1, .onFailed⟩]) ∧
      ¬ TriggersHonoured (.initial 999) (sweptAfterFailure [⟨1, .onAnyTerminal⟩]) := by
  constructor
  · intro h
    have hlast := eachStep_iff_forall_append.1 h.1 ((sweptRun [⟨1, .onFailed⟩]).take 6)
      (.gateSet 0) (prefix_refl _)
    obtain ⟨st, hst, hsat⟩ := hlast 2 (rowOfRecord (makeWaiting 2 [⟨1, .onFailed⟩]))
      (makeWaiting 2 [⟨1, .onFailed⟩]) rfl rfl rfl (by decide) ⟨1, .onFailed⟩ (by simp [makeWaiting])
    have hdone : (run step (.initial 999) ((sweptRun [⟨1, .onFailed⟩]).take 6)).statusOf 1 =
        some .done := by decide
    rw [QueueState.statusOf, hst] at hdone
    cases hdone
    cases hsat
  · intro h
    have hpass := h.2 ((sweptAfterFailure [⟨1, .onAnyTerminal⟩]).take 6) (.strandedSelect 0)
      [.gateCheck 0, .gateSet 0] (prefix_refl _)
    refine hpass 0 2 (rowOfRecord (makeWaiting 2 [⟨1, .onAnyTerminal⟩]))
      (makeWaiting 2 [⟨1, .onAnyTerminal⟩]) rfl rfl rfl ?_ rfl ?_ ⟨rfl, rfl⟩ (by decide)
    · intro tr htr
      rw [mem_singleton.1 htr]
      exact ⟨.dlq, by decide, rfl⟩
    intro e' he'
    simp only [mem_cons, not_mem_nil, or_false] at he'
    rcases he' with rfl | rfl <;> exact id

end Gradatum.Queue
