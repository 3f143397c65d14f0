import Gradatum.Queue.Sound
import Gradatum.Queue.Terminal

/-!
# The dependency gate

A job that awaits others is `Waiting` until a pass finds all of them `Done` and calls `set_pending`.
`all_jobs_done` compares a count of rows with the length of the list of ids, and its answer is acted on in
a later critical section.
-/

open Reasoning

namespace Gradatum.Queue

open Function List

/-! ## 1. What the count decides -/

/-- Every id of the list, repeats included, names a `Done` row. -/
def AllDone (t : JobTable) (ids : List Ulid) : Prop := ∀ id ∈ ids, statusIn t id = some .done

instance (t : JobTable) (ids : List Ulid) : Decidable (AllDone t ids) :=
  inferInstanceAs (Decidable (∀ id ∈ ids, statusIn t id = some .done))

/-- The gate opens for a list without repeats that the connection can bind, when all of it is `Done`,
and for the empty list. -/
theorem allJobsDone_eq_true_iff : allJobsDone variableLimit ids t = .ok true ↔
      ids = [] ∨ (ids.length ≤ variableLimit ∧ ids.Nodup ∧ AllDone t ids) := by
  unfold allJobsDone
  by_cases hempty : ids = []
  · simp [hempty]
  rw [if_neg (by simpa using hempty)]
  by_cases hlimit : variableLimit < ids.length
  · rw [if_pos hlimit]
    simp [hempty, hlimit]
  rw [if_neg hlimit]
  have hcount := Table.length_select_mem_eq_iff t ids fun row => decide (row.status = .done)
  simp only [decide_eq_true_eq] at hcount
  simp only [Except.ok.injEq, decide_eq_true_eq, hcount, hempty, false_or, AllDone,
    statusIn_eq_some_iff]
  constructor
  · intro h
    exact ⟨by omega, h⟩
  · intro h
    exact h.2

theorem allJobsDone_ok (h : ids.length ≤ variableLimit) :
    ∃ answer, allJobsDone variableLimit ids t = .ok answer := by
  unfold allJobsDone
  split
  · exact ⟨_, rfl⟩
  · rw [if_neg (by omega)]
    exact ⟨_, rfl⟩

def Gateable (variableLimit : Nat) (ids : List Ulid) : Prop :=
  ids ≠ [] ∧ ids.Nodup ∧ ids.length ≤ variableLimit

theorem allJobsDone_of_gateable (h : Gateable variableLimit ids) (t : JobTable) :
    allJobsDone variableLimit ids t = .ok (decide (AllDone t ids)) := by
  obtain ⟨hne, hnodup, hlen⟩ := h
  obtain ⟨answer, hans⟩ := allJobsDone_ok (t := t) hlen
  have htrue : allJobsDone variableLimit ids t = .ok true ↔ _ := allJobsDone_eq_true_iff
  rw [hans] at htrue ⊢
  simp only [Except.ok.injEq, hne, hlen, hnodup, true_and, false_or] at htrue
  rw [Except.ok.injEq, Bool.eq_iff_iff, decide_eq_true_eq]
  exact htrue

/-! ## 2. What the steps of a run keep -/

def Awaits (t : JobTable) (id : Ulid) (scheduling : JobScheduling) : Prop :=
  ∃ row record, t.find? id = some row ∧ RowSound row record ∧ record.scheduling = scheduling

variable {t : JobTable} {id : Ulid} {sch : JobScheduling} {s : QueueState} {e : Event} {pass : GatePass}

theorem Awaits.eq (h : Awaits t id sch) (h' : Awaits t id sch') : sch' = sch := by
  obtain ⟨row, record, hrow, hs, rfl⟩ := h
  obtain ⟨row', record', hrow', hs', rfl⟩ := h'
  rw [hrow] at hrow'
  cases hrow'
  rw [hs.record_eq hs'.payload]

def Event.bypassesGate : Event → Bool
  | .call (.setPending _) => true
  | _ => false

/-- A step of the queue that leaves the gate to the passes: it does not call `set_pending` on its own
account, does not overwrite a terminal status, and enqueues a job as `Waiting` only on a list for
which the gate is exact. -/
structure GateStep (s : QueueState) (e : Event) : Prop where
  lifecycle : e.isLifecycleStep = true
  gated : e.bypassesGate = false
  terminal : TerminalGuard s e
  enqueue : ∀ job, e = .call (.enqueue job) → job.lifecycle.status = .waiting →
    Gateable s.variableLimit job.scheduling.awaitIds

theorem Awaits.step
    (h : Awaits s.jobs id sch) (he : e.isLifecycleStep = true) : Awaits (step s e).jobs id sch := by
  obtain ⟨row, record, hrow, hs, rfl⟩ := h
  obtain ⟨row', hrow', rfl | ⟨c, -, hchg⟩⟩ := find?_lifecycle_step he hrow
  · exact ⟨row', record, hrow', hs, rfl⟩
  · obtain ⟨record', hs', horig⟩ := hchg.sound hs
    exact ⟨row', record', hrow', hs', horig.1⟩

theorem AllDone.step (h : AllDone s.jobs ids) (he : e.isLifecycleStep = true) (hguard : TerminalGuard s e) :
    AllDone (step s e).jobs ids :=
  fun id hid => (keepsTerminal_step_iff he).2 hguard id .done (h id hid) rfl

theorem RowChange.not_waiting (h : RowChange c row row') :
    row'.status = .waiting → row.status = .waiting := by
  cases h with
  | purged _ => exact fun h => h
  | _ => exact nofun

def Released (t : JobTable) (id : Ulid) : Prop := ∃ st, statusIn t id = some st ∧ st ≠ .waiting

theorem Released.step (h : Released s.jobs id)
    (he : e.isLifecycleStep = true) : Released (step s e).jobs id := by
  obtain ⟨st, hst, hne⟩ := h
  obtain ⟨row, hrow, rfl⟩ := statusIn_eq_some_iff.1 hst
  obtain ⟨row', hrow', hchg⟩ := find?_lifecycle_step he hrow
  refine ⟨row'.status, statusIn_eq_some_iff.2 ⟨row', hrow', rfl⟩, ?_⟩
  rcases hchg with rfl | ⟨c, -, hchg⟩
  · exact hne
  · exact fun hwait => hne (hchg.not_waiting hwait)

def WaitingOnly (P : JobScheduling → Prop) (t : JobTable) : Prop :=
  ∀ k row record, t.find? k = some row → RowSound row record → row.status = .waiting →
    P record.scheduling

/-- A job waits from its enqueueing on, so what is asked of the jobs enqueued as `Waiting` holds of all
that wait. -/
theorem WaitingOnly.step (h : WaitingOnly P s.jobs) (hsound : Sound s.jobs)
    (he : e.isLifecycleStep = true)
    (henq : ∀ job, e = .call (.enqueue job) → job.lifecycle.status = .waiting → P job.scheduling) :
    WaitingOnly P (step s e).jobs := by
  intro k row' record' hrow' hs' hwait
  cases hrow : s.jobs.find? k with
  | some row =>
    obtain ⟨record, hs⟩ := hsound k row hrow
    obtain ⟨row₂, hrow₂, hchg⟩ := find?_lifecycle_step he hrow
    rw [hrow'] at hrow₂
    cases hrow₂
    rcases hchg with rfl | ⟨c, -, hchg⟩
    · rw [hs.record_eq hs'.payload]
      exact h k _ record hrow hs hwait
    obtain ⟨record₂, hs₂, horig⟩ := hchg.sound hs
    rw [hs₂.record_eq hs'.payload, horig.1]
    exact h k row record hrow hs (hchg.not_waiting hwait)
  | none =>
    -- the row is new, so the step enqueues it
    obtain ⟨job, hjob, rfl⟩ := find?_step_new hrow hrow'
    rw [(rowSound_rowOfRecord job).record_eq hs'.payload]
    exact henq job hjob hwait

/-! ## 3. The passes -/

theorem mapM_deserializeRecord {payloads : List Payload}
    (h : ∀ payload ∈ payloads, ∃ r, payload = .json r) :
    ∃ records, payloads.mapM deserializeRecord = .ok records ∧
      records.map serializeRecord = payloads := by
  induction payloads with
  | nil => exact ⟨[], rfl, rfl⟩
  | cons payload rest ih =>
    obtain ⟨r, rfl⟩ := h payload (by simp)
    obtain ⟨records, hrecs, hmap⟩ := ih fun payload' hmem => h payload' (by simp [hmem])
    refine ⟨r :: records, ?_, ?_⟩
    · rw [mapM_cons, hrecs]
      rfl
    · rw [map_cons, hmap]
      rfl

theorem Sound.payload_json (h : Sound t) (hmem : row ∈ t.rows) : ∃ r, row.payload = .json r := by
  obtain ⟨record, hs⟩ := h row.id row (Table.find?_of_mem hmem)
  exact ⟨record, hs.payload⟩

theorem Sound.cascade_eq (h : Sound t) (done : Ulid) :
    GatePass.cascade done t = ⟨false, awaitingPayloads done t, none⟩ := by
  have hjson : ∀ payload ∈ awaitingPayloads done t, ∃ r, payload = .json r := by
    intro payload hmem
    obtain ⟨row, hrow, rfl⟩ := mem_map.1 hmem
    exact h.payload_json (mem_filter.1 hrow).1
  obtain ⟨records, hrecs, hmap⟩ := mapM_deserializeRecord hjson
  unfold GatePass.cascade findAwaiting
  rw [hrecs]
  simp only [hmap]

theorem waiting_of_mem_payloads {p : JobRow → Bool}
    (h : payload ∈ (t.select fun row => row.status = .waiting && p row).map (·.payload)) :
    ∃ row, t.find? row.id = some row ∧ row.status = .waiting ∧ row.payload = payload := by
  obtain ⟨row, hrow, rfl⟩ := mem_map.1 h
  obtain ⟨hmem, hsel⟩ := mem_filter.1 hrow
  simp only [Bool.and_eq_true, decide_eq_true_eq] at hsel
  exact ⟨row, Table.find?_of_mem hmem, hsel.1, rfl⟩

theorem GatePass.check_todo (h : payload ∈ (pass.check variableLimit t).todo) : payload ∈ pass.todo := by
  unfold GatePass.check at h
  split at h
  · rename_i head rest hprom htodo
    rw [htodo]
    have hrest : payload ∈ rest → payload ∈ head :: rest := mem_cons_of_mem head
    split at h
    · cases h
    dsimp only at h
    split at h
    · exact hrest h
    split at h
    · cases h
    · exact hrest h
    · exact hrest h
  · exact h

theorem GatePass.check_promoting (h : (pass.check variableLimit t).promoting = some id) :
    pass.promoting = some id ∨ ∃ r, .json r ∈ pass.todo ∧ r.id = id ∧
        allJobsDone variableLimit r.scheduling.awaitIds t = .ok true := by
  unfold GatePass.check at h
  split at h
  · rename_i head rest hprom htodo
    split at h
    · exact .inl h
    rename_i record hrec
    dsimp only at h
    split at h
    · exact .inl h
    split at h
    · exact .inl h
    · rename_i hdone
      have hhead : head = .json record := by
        cases head with
        | json r =>
          cases hrec
          rfl
        | corrupt text => cases hrec
      cases h
      exact .inr ⟨record, by simp [htodo, hhead], rfl, hdone⟩
    · exact .inl h
  · exact .inl h

/-- The pass still has the job before it. -/
def GatePass.Tracks (pass : GatePass) (id : Ulid) : Prop :=
  (∃ r, .json r ∈ pass.todo ∧ r.id = id) ∨ pass.promoting = some id

/-- A check does not lose a job for which the gate is open, unless another candidate ends the pass
with an error. -/
theorem GatePass.Tracks.check (h : pass.Tracks id) (hall : ∀ payload ∈ pass.todo, ∃ r, payload = .json r ∧
      r.scheduling.awaitIds.length ≤ variableLimit)
    (hopen : ∀ r, .json r ∈ pass.todo → r.id = id → r.scheduling.awaitIds ≠ [] ∧
      allJobsDone variableLimit r.scheduling.awaitIds t = .ok true) :
    (pass.check variableLimit t).Tracks id := by
  unfold GatePass.check
  split
  · rename_i head rest hpromo htodo
    obtain ⟨r, rfl, hlen⟩ := hall head (by simp [htodo])
    simp only [deserializeRecord]
    by_cases hid : r.id = id
    · -- the candidate is the job: the gate lets it through
      obtain ⟨hne, hdone⟩ := hopen r (by simp [htodo]) hid
      have hnonempty : r.scheduling.awaitIds.isEmpty = false := by simpa using hne
      rw [hnonempty, Bool.and_false, if_neg (by simp), hdone]
      exact .inr (congrArg some hid)
    · -- another candidate: the job stays in the rest
      have hrest : ∃ r', .json r' ∈ rest ∧ r'.id = id := by
        rcases h with ⟨r', hmem, hr'⟩ | hprom
        · rw [htodo, mem_cons] at hmem
          rcases hmem with heq | hmem
          · cases heq
            exact absurd hr' hid
          · exact ⟨r', hmem, hr'⟩
        · rw [hpromo] at hprom
          cases hprom
      split
      · exact .inl hrest
      obtain ⟨answer, hans⟩ := allJobsDone_ok (t := t) hlen
      rw [hans]
      cases answer <;> exact .inl hrest
  · exact h

theorem gatePass_step_cases (s : QueueState) (e : Event) (p : Nat) :
    (step s e).gatePass p = s.gatePass p ∨
      (∃ done, e = .cascadeSelect p done ∧ (step s e).gatePass p = .cascade done s.jobs) ∨
      (e = .strandedSelect p ∧ (step s e).gatePass p = .stranded s.jobs) ∨
      (e = .gateCheck p ∧
        (step s e).gatePass p = (s.gatePass p).check s.variableLimit s.jobs) ∨
      (e = .gateSet p ∧ (step s e).gatePass p = { s.gatePass p with promoting := none }) := by
  cases e with
  | cascadeSelect q done =>
    by_cases hq : p = q
    · subst hq
      exact .inr (.inl ⟨done, rfl, by simp [step]⟩)
    · exact .inl (by simp [step, update_of_ne hq])
  | strandedSelect q =>
    by_cases hq : p = q
    · subst hq
      exact .inr (.inr (.inl ⟨rfl, by simp [step]⟩))
    · exact .inl (by simp [step, update_of_ne hq])
  | gateCheck q =>
    by_cases hq : p = q
    · subst hq
      exact .inr (.inr (.inr (.inl ⟨rfl, by simp [step]⟩)))
    · exact .inl (by simp [step, update_of_ne hq])
  | gateSet q =>
    by_cases hq : p = q
    · subst hq
      exact .inr (.inr (.inr (.inr ⟨rfl, by simp [step]⟩)))
    · exact .inl (by simp [step, update_of_ne hq])
  | call | retrySelect | retryNext => exact .inl rfl

/-! ## 4. The invariant of the gate -/

structure GateInv (s : QueueState) : Prop where
  sound : Sound s.jobs
  /-- The gate is exact for every job that waits. -/
  gateable : WaitingOnly (fun sch => Gateable s.variableLimit sch.awaitIds) s.jobs
  /-- What a pass has taken up is what the table holds. -/
  todo : ∀ p payload, payload ∈ (s.gatePass p).todo → ∃ r, payload = .json r ∧
    Awaits s.jobs r.id r.scheduling ∧ r.scheduling.awaitIds.length ≤ s.variableLimit
  /-- A job on its way to `set_pending` awaits jobs that are done. -/
  promoting : ∀ p id, (s.gatePass p).promoting = some id →
    ∃ sch, Awaits s.jobs id sch ∧ AllDone s.jobs sch.awaitIds

theorem gateInv_initial (variableLimit : Nat) : GateInv (.initial variableLimit) where
  sound := sound_initial variableLimit
  gateable := fun _ _ _ h => by cases h
  todo := fun _ _ h => by cases h
  promoting := fun _ _ h => by cases h

theorem GateInv.taken_up (h : GateInv s) (hrow : s.jobs.find? row.id = some row)
    (hwait : row.status = .waiting) (hpay : row.payload = payload) :
    ∃ r, payload = .json r ∧ Awaits s.jobs r.id r.scheduling ∧
      r.scheduling.awaitIds.length ≤ s.variableLimit := by
  obtain ⟨record, hs⟩ := h.sound row.id row hrow
  refine ⟨record, hpay.symm.trans hs.payload, ⟨row, record, ?_, hs, rfl⟩, ?_⟩
  · rw [hs.id]
    exact hrow
  · exact (h.gateable _ _ _ hrow hs hwait).2.2

theorem GateInv.todo_step (h : GateInv s) (hmem : payload ∈ ((step s e).gatePass p).todo) :
    ∃ r, payload = .json r ∧ Awaits s.jobs r.id r.scheduling ∧
      r.scheduling.awaitIds.length ≤ s.variableLimit := by
  rcases gatePass_step_cases s e p with heq | ⟨done, -, heq⟩ | ⟨-, heq⟩ | ⟨-, heq⟩ | ⟨-, heq⟩ <;>
    rw [heq] at hmem
  · exact h.todo p payload hmem
  · rw [h.sound.cascade_eq] at hmem
    obtain ⟨row, hrow, hwait, hpay⟩ := waiting_of_mem_payloads hmem
    exact h.taken_up hrow hwait hpay
  · obtain ⟨row, hrow, hwait, hpay⟩ := waiting_of_mem_payloads hmem
    exact h.taken_up hrow hwait hpay
  · exact h.todo p payload (GatePass.check_todo hmem)
  · exact h.todo p payload hmem

theorem GateInv.promoting_step (h : GateInv s) (hprom : ((step s e).gatePass p).promoting = some id) :
    ∃ sch, Awaits s.jobs id sch ∧ AllDone s.jobs sch.awaitIds := by
  rcases gatePass_step_cases s e p with heq | ⟨done, -, heq⟩ | ⟨-, heq⟩ | ⟨-, heq⟩ | ⟨-, heq⟩ <;>
    rw [heq] at hprom
  · exact h.promoting p id hprom
  · rw [h.sound.cascade_eq] at hprom
    cases hprom
  · cases hprom
  · rcases GatePass.check_promoting hprom with hprom | ⟨r, hmem, rfl, hdone⟩
    · exact h.promoting p id hprom
    obtain ⟨r', heq, hawaits, -⟩ := h.todo p _ hmem
    cases heq
    refine ⟨r.scheduling, hawaits, ?_⟩
    rcases allJobsDone_eq_true_iff.1 hdone with hempty | hdone
    · rw [hempty]
      exact fun _ hid => by cases hid
    · exact hdone.2.2
  · cases hprom

theorem gateInv_step (h : GateInv s) (he : GateStep s e) : GateInv (step s e) where
  sound := h.sound.step e
  gateable := h.gateable.step h.sound he.lifecycle he.enqueue
  todo := by
    intro p payload hmem
    obtain ⟨r, heq, hawaits, hlen⟩ := h.todo_step hmem
    exact ⟨r, heq, hawaits.step he.lifecycle, hlen⟩
  promoting := by
    intro p id hprom
    obtain ⟨sch, hawaits, hdone⟩ := h.promoting_step hprom
    exact ⟨sch, hawaits.step he.lifecycle, hdone.step he.lifecycle he.terminal⟩

/-! ## 5. Only and all ready jobs are promoted -/

/-- **Soundness of the gate.**  A step that takes a job from `Waiting` to `Pending` is the
`set_pending` of a pass, and every job the promoted one awaits is `Done`. -/
theorem GateInv.allDone_of_promoted (h : GateInv s) (he : GateStep s e)
    (hrow : s.jobs.find? id = some row) (hs : RowSound row record)
    (hwait : row.status = .waiting) (hpend : (step s e).statusOf id = some .pending) :
    AllDone s.jobs record.scheduling.awaitIds := by
  obtain ⟨row', hrow', hstat⟩ := statusOf_eq_some_iff.1 hpend
  obtain ⟨row₂, hrow₂, hchg⟩ := find?_lifecycle_step he.lifecycle hrow
  rw [hrow'] at hrow₂
  cases hrow₂
  rcases hchg with rfl | ⟨c, hc, hchg⟩
  · rw [hwait] at hstat
    cases hstat
  -- `set_pending` is the only call that makes a waiting row pending
  obtain ⟨p, hpass⟩ : ∃ p, (s.gatePass p).promoting = some id := by
    have hid : row.id = id := Table.key_of_find? hrow
    cases hchg with
    | readied hready _ =>
      rcases Event.callOf_cases hc with rfl | ⟨_, _, _, -, -, heq⟩ | ⟨p, _, -, hprom, heq⟩
      · cases he.gated
      · cases heq
      · cases heq
        exact ⟨p, by rw [hprom, ← hready, hid]⟩
    | recovered _ _ hrun =>
      rw [hwait] at hrun
      cases hrun
    | retried _ _ _ hfail =>
      rw [hwait] at hfail
      cases hfail
    | replayed _ hdlq =>
      rw [hwait] at hdlq
      cases hdlq
    | purged hended =>
      rw [hwait] at hended
      cases hended
    | _ => cases hstat
  obtain ⟨sch, hawaits, hdone⟩ := h.promoting p id hpass
  rw [hawaits.eq ⟨row, record, hrow, hs, rfl⟩]
  exact hdone

/-- The event makes process `p` drop its pass and start another. -/
def Event.restarts (p : Nat) : Event → Prop
  | .cascadeSelect q _ => q = p
  | .strandedSelect q => q = p
  | _ => False

theorem GateInv.tracks_step (h : GateInv s) (he : GateStep s e) (hp : ¬ e.restarts p)
    (hawaits : Awaits s.jobs id sch) (hgat : Gateable s.variableLimit sch.awaitIds)
    (hdone : AllDone s.jobs sch.awaitIds) (htrks : Released s.jobs id ∨ (s.gatePass p).Tracks id) :
    Released (step s e).jobs id ∨ ((step s e).gatePass p).Tracks id := by
  rcases htrks with hrel | htrks
  · exact .inl (hrel.step he.lifecycle)
  rcases gatePass_step_cases s e p with heq | ⟨done, rfl, -⟩ | ⟨rfl, -⟩ | ⟨-, heq⟩ | ⟨rfl, heq⟩
  · exact .inr (heq ▸ htrks)
  · exact absurd rfl hp
  · exact absurd rfl hp
  · right
    rw [heq]
    apply htrks.check
    · intro payload hmem
      obtain ⟨r, hr, -, hlen⟩ := h.todo p payload hmem
      exact ⟨r, hr, hlen⟩
    intro r hmem hid
    obtain ⟨r', heq', hr, -⟩ := h.todo p _ hmem
    cases heq'
    rw [hid] at hr
    rw [hawaits.eq hr]
    refine ⟨hgat.1, allJobsDone_eq_true_iff.2 (.inr ⟨hgat.2.2, hgat.2.1, hdone⟩)⟩
  · rcases htrks with hmem | hprom
    · exact .inr (.inl (by rw [heq]; exact hmem))
    -- the pass reaches `set_pending`
    left
    obtain ⟨row, record, hrow, -⟩ := hawaits
    have hid : row.id = id := Table.key_of_find? hrow
    have hcall : Event.callOf s (.gateSet p) = some (.setPending id) := by
      simp [Event.callOf, hprom]
    have hafter := find?_step_of_some hrow (.gateSet p)
    rw [hcall] at hafter
    simp only [Call.onRow, hid, true_and] at hafter
    by_cases hwait : row.status = .waiting
    · rw [if_pos hwait] at hafter
      exact ⟨.pending, statusIn_eq_some_iff.2 ⟨_, hafter, rfl⟩, fun h => by cases h⟩
    · rw [if_neg hwait] at hafter
      exact ⟨row.status, statusIn_eq_some_iff.2 ⟨_, hafter, rfl⟩, hwait⟩

/-- Process `p` is after a job whose dependencies are all `Done`: the job is out of `Waiting`, or still
before the pass. -/
structure Pursues (p : Nat) (id : Ulid) (sch : JobScheduling) (s : QueueState) : Prop where
  inv : GateInv s
  gateable : Gateable s.variableLimit sch.awaitIds
  awaits : Awaits s.jobs id sch
  done : AllDone s.jobs sch.awaitIds
  tracks : Released s.jobs id ∨ (s.gatePass p).Tracks id

theorem pursues_step (h : Pursues p id sch s) (he : GateStep s e) (hp : ¬ e.restarts p) :
    Pursues p id sch (step s e) where
  inv := gateInv_step h.inv he
  gateable := h.gateable
  awaits := h.awaits.step he.lifecycle
  done := h.done.step he.lifecycle he.terminal
  tracks := h.inv.tracks_step he hp h.awaits h.gateable h.done h.tracks

end Gradatum.Queue
