import Gradatum.Queue.System

/-!
# The two copies of a job

`RowSound` is what columns and payload of a row never lose: the payload decodes, to a record of the same id
that awaits the same jobs, and a payload that says `Conflict` sits in a row that does.
-/

open Reasoning

namespace Gradatum.Queue

/-- The column that `enqueue` makes of the triggers of a job. -/
def awaitColumn (scheduling : JobScheduling) : Option (List Ulid) :=
  if scheduling.awaitJobs.isEmpty then none else some scheduling.awaitIds

structure RowSound (row : JobRow) (record : JobRecord) : Prop where
  payload : row.payload = .json record
  id : record.id = row.id
  awaits : row.awaitJobs = awaitColumn record.scheduling
  conflict : record.lifecycle.status = .conflict → row.status = .conflict

theorem rowSound_rowOfRecord (job : JobRecord) : RowSound (rowOfRecord job) job where
  payload := rfl
  id := rfl
  awaits := rfl
  conflict := fun h => h

/-- What a job keeps from its enqueueing on: its triggers, its deadline and its retry budget. -/
def SameOrigin (r r' : JobRecord) : Prop :=
  r'.scheduling = r.scheduling ∧ r'.retry.max = r.retry.max

theorem RowSound.record_eq (h : RowSound row r) (h' : row.payload = .json r') : r' = r := by
  have := h.payload.symm.trans h'
  cases this
  rfl

theorem RowSound.of_columns (h : RowSound row record) (hid : row'.id = row.id)
    (hpay : row'.payload = row.payload) (hawait : row'.awaitJobs = row.awaitJobs)
    (hstat : row.status ≠ .conflict) : RowSound row' record where
  payload := hpay.trans h.payload
  id := h.id.trans hid.symm
  awaits := hawait.trans h.awaits
  conflict := fun hc => absurd (h.conflict hc) hstat

theorem RowChange.sound (h : RowChange c row row') (hs : RowSound row record) :
    ∃ record', RowSound row' record' ∧ SameOrigin record record' := by
  have hcols : ∀ {row' : JobRow}, row'.id = row.id → row'.payload = row.payload →
      row'.awaitJobs = row.awaitJobs → row.status ≠ .conflict →
      ∃ record', RowSound row' record' ∧ SameOrigin record record' :=
    fun hid hpay hawait hstat =>
      ⟨record, hs.of_columns hid hpay hawait hstat, rfl, rfl⟩
  have hact : row.status.isTerminal = false → row.status ≠ .conflict := by
    intro hfalse heq
    rw [heq] at hfalse
    cases hfalse
  cases h with
  | leased hpend | leasedByKind _ _ hpend => exact hcols rfl rfl rfl (by simp [hpend])
  | completed _ _ hpay | delivered _ _ _ hpay | failed _ _ hpay | cancelled _ _ hpay
  | deadLettered _ hpay | exhausted _ _ _ hpay =>
    cases hs.record_eq hpay
    exact ⟨_, ⟨rfl, hs.id, hs.awaits, nofun⟩, rfl, rfl⟩
  | conflicted _ hpay =>
    cases hs.record_eq hpay
    exact ⟨_, ⟨rfl, hs.id, hs.awaits, fun _ => rfl⟩, rfl, rfl⟩
  | readied _ hwait => exact hcols rfl rfl rfl (by simp [hwait])
  | recovered _ _ hrun | rescheduled _ hrun => exact hcols rfl rfl rfl (by simp [hrun])
  | expired _ hfalse => exact hcols rfl rfl rfl (hact hfalse)
  | retried _ _ _ hfail => exact hcols rfl rfl rfl (by simp [hfail])
  | purged _ =>
    by_cases hpurge : recordIsPurgeable record = true
    · refine ⟨{ record with spec := { record.spec with kind := .payloadPurged } }, ?_, rfl, rfl⟩
      refine ⟨?_, hs.id, hs.awaits, hs.conflict⟩
      simp [purgedRow, purgedPayload, hs.payload, deserializeRecord, serializeRecord, hpurge]
    · refine ⟨record, ⟨?_, hs.id, hs.awaits, hs.conflict⟩, rfl, rfl⟩
      simp [purgedRow, purgedPayload, hs.payload, deserializeRecord, hpurge]
  | replayed _ hdlq => exact hcols rfl rfl rfl (by simp [hdlq])

def Sound (t : JobTable) : Prop :=
  ∀ k row, t.find? k = some row → ∃ record, RowSound row record

theorem sound_initial (variableLimit : Nat) : Sound (QueueState.initial variableLimit).jobs :=
  fun _ _ h => by cases h

theorem Sound.step (h : Sound s.jobs) (e : Event) : Sound (step s e).jobs := by
  refine rows_step h (fun job _ => ⟨job, rowSound_rowOfRecord job⟩) ?_
  intro c k row row' _ hrow ⟨record, hs⟩ hon
  rcases Call.onRow_cases hrow hon with rfl | hchg
  · exact ⟨record, hs⟩
  · obtain ⟨record', hs', -⟩ := hchg.sound hs
    exact ⟨record', hs'⟩

theorem Sound.run (h : Sound s.jobs) (es : List Event) : Sound (Reasoning.run Queue.step s es).jobs := by
  induction es generalizing s with
  | nil => exact h
  | cons e es ih => exact ih (h.step e)

end Gradatum.Queue
