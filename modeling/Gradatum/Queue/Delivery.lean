import Gradatum.Queue.Call

/-!
# Deliveries in the queue

A delivery is a row of kind `Message` whose id is that of the message.  It is enqueued as `Pending` and
acknowledged by `complete_message_delivery`.  A mailbox reads the rows of many deliveries at once.
-/

open Reasoning

namespace Gradatum.Queue

open List Option

/-! ## 1. Reading many rows -/

/-- The record of a row, as `get` and `get_many` hand it out. -/
def readRow (row : JobRow) : Except QueueError JobRecord := do
  let record ← deserializeRecord row.payload
  return applySqlAuthority row record

/-- The records of the rows with these ids, in the order of the ids and at most one for each.  A record
goes by the id that it carries. -/
def getMany (ids : List Ulid) (tenant : Option String) (t : JobTable) :
    Except QueueError (List JobRecord) := do
  let found ← (t.select fun row => ids.contains row.id && matchesFilter tenant row.tenantId).mapM readRow
  return ids.eraseDups.filterMap fun id => found.reverse.find? (·.id = id)

def recordOf (records : List JobRecord) (id : Ulid) : Option JobRecord := records.find? (·.id = id)

theorem mapM_readRow {rows : List JobRow}
    (h : ∀ row ∈ rows, ∃ record, row.payload = .json record ∧ record.id = row.id) :
    ∃ records, rows.mapM readRow = .ok records ∧
      records.map (fun record => (record.id, record.lifecycle.status)) =
        rows.map fun row => (row.id, row.status) := by
  induction rows with
  | nil => exact ⟨[], rfl, rfl⟩
  | cons row rows ih =>
    obtain ⟨record, hpay, hid⟩ := h row mem_cons_self
    obtain ⟨records, hrecs, hpairs⟩ := ih fun row' hrow' => h row' (mem_cons_of_mem _ hrow')
    refine ⟨applySqlAuthority row record :: records, ?_, ?_⟩
    · rw [mapM_cons, hrecs, readRow, hpay]
      rfl
    · rw [map_cons, map_cons, hpairs, ← hid]
      rfl

variable {t : JobTable} {ids : List Ulid} {id : Ulid}

theorem find?_reverse_select (hid : id ∈ ids) :
    (t.select fun row => ids.contains row.id && matchesFilter none row.tenantId).reverse.find?
      (fun row => row.id = id) = t.find? id := by
  ext row
  constructor
  · intro hfind
    have hmem := mem_reverse.1 (mem_of_find?_eq_some hfind)
    exact Table.find?_eq_some_iff.2 ⟨(mem_filter.1 hmem).1, by simpa using find?_some hfind⟩
  intro hrow
  obtain ⟨hmem, hkey⟩ := Table.find?_eq_some_iff.1 hrow
  have hsel : row ∈ (t.select fun row =>
      ids.contains row.id && matchesFilter none row.tenantId).reverse := by
    rw [mem_reverse]
    exact mem_filter.2 ⟨hmem, by simp [hkey, hid, matchesFilter]⟩
  cases hfind : (t.select fun row =>
      ids.contains row.id && matchesFilter none row.tenantId).reverse.find? (fun row => row.id = id) with
  | none => exact absurd hkey (by simpa using find?_eq_none.1 hfind row hsel)
  | some row' =>
    have hmem' := mem_reverse.1 (mem_of_find?_eq_some hfind)
    have hkey' : row'.id = id := by simpa using find?_some hfind
    rw [inj_on_of_nodup_map t.nodup (mem_filter.1 hmem').1 hmem (hkey'.trans hkey.symm)]

theorem recordOf_filterMap (hfind : ∀ id record, find id = some record → record.id = id)
    (hid : id ∈ ids) : recordOf (ids.filterMap find) id = find id := by
  rw [recordOf, find?_filterMap]
  cases hfirst : ids.find? (fun a => (find a).any fun record => record.id = id) with
  | none =>
    rw [bind_none, eq_comm, eq_none_iff_forall_ne_some]
    intro record hrec
    have hnot := find?_eq_none.1 hfirst id hid
    simp [hrec, hfind id record hrec] at hnot
  | some a =>
    have hany := find?_some hfirst
    rw [Option.any_eq_true] at hany
    obtain ⟨record, hrec, hkey⟩ := hany
    have ha : a = id := (hfind a record hrec).symm.trans (of_decide_eq_true hkey)
    rw [bind_some, ha]

theorem getMany_ok (h : ∀ id ∈ ids, ∀ row, t.find? id = some row →
      ∃ record, row.payload = .json record ∧ record.id = row.id) :
    ∃ records, getMany ids none t = .ok records ∧
      ∀ id ∈ ids, (recordOf records id).map (·.lifecycle.status) = (t.find? id).map (·.status) := by
  let rows := t.select fun row => ids.contains row.id && matchesFilter none row.tenantId
  have hrows : ∀ row ∈ rows, ∃ record, row.payload = .json record ∧ record.id = row.id := by
    intro row hrow
    obtain ⟨hmem, hsel⟩ := mem_filter.1 hrow
    rw [Bool.and_eq_true, contains_iff_mem] at hsel
    exact h row.id hsel.1 row (Table.find?_of_mem hmem)
  obtain ⟨found, hfound, hpairs⟩ := mapM_readRow hrows
  refine ⟨ids.eraseDups.filterMap fun id => found.reverse.find? (·.id = id), ?_, ?_⟩
  · rw [getMany, hfound]
    rfl
  intro id hid
  rw [recordOf_filterMap (fun _ _ hfind => by simpa using find?_some hfind)
    (mem_eraseDups.2 hid), ← find?_reverse_select hid]
  -- both sides look the id up in the list of ids and statuses
  have hlook : ((found.reverse.find? (·.id = id)).map fun record =>
      (record.id, record.lifecycle.status)) =
      (rows.reverse.find? (·.id = id)).map fun row => (row.id, row.status) := by
    have hreverse := congrArg (fun pairs => pairs.reverse.find? fun pair => decide (pair.1 = id)) hpairs
    simpa only [← map_reverse, find?_map, Function.comp_def] using hreverse
  have hstat := congrArg (Option.map Prod.snd) hlook
  simpa only [Option.map_map, Function.comp_def] using hstat

/-! ## 2. Delivery rows -/

structure DeliveryRow (id : Ulid) (recipient : String) (row : JobRow) : Prop where
  payload : ∃ record, row.payload = .json record ∧ record.id = row.id ∧
    record.spec.kind = .message id recipient
  kind : row.kind = jobKindMessage
  status : row.status = .pending ∨ row.status = .done

namespace DeliveryRow

theorem get_eq (h : DeliveryRow id recipient row) (hrow : t.find? id = some row) :
    ∃ record, get id none t = .ok (some record) ∧ record.spec.kind = .message id recipient := by
  obtain ⟨record, hpay, -, hkind⟩ := h.payload
  refine ⟨applySqlAuthority row record, ?_, hkind⟩
  rw [get, hrow]
  simp only [filter_some, matchesFilter, if_true, hpay]
  rfl

theorem patched (h : DeliveryRow id recipient row) (clk : Clock) (id' : Ulid) (result : JobResult) :
    DeliveryRow id recipient
      (patchedRow id' isPendingMessage (completeMessageDeliveryPatch clk id' result) row) := by
  rcases patchedRow_cases id' isPendingMessage (completeMessageDeliveryPatch clk id' result) row with
    hsame | ⟨record, answer, row', -, -, hpay, hpatch, hnew⟩
  · rw [hsame]
    exact h
  obtain ⟨record', hpay', hid, hkind⟩ := h.payload
  cases hpay.symm.trans hpay'
  simp only [completeMessageDeliveryPatch, hkind, Job.isMessage, if_true, Patch.write.injEq] at hpatch
  rw [hnew, ← hpatch.2]
  exact ⟨⟨_, rfl, hid, hkind⟩, h.kind, .inr rfl⟩

theorem patched_of_done (h : row.status = .done) (clk : Clock) (id' : Ulid) (result : JobResult) :
    patchedRow id' isPendingMessage (completeMessageDeliveryPatch clk id' result) row = row := by
  unfold patchedRow
  rw [if_neg]
  intro hsel
  simp [isPendingMessage, h] at hsel

theorem complete (h : DeliveryRow id recipient row) (hrow : t.find? id = some row)
    (hpend : row.status = .pending) (clk : Clock) (result : JobResult) :
    (completeMessageDelivery clk id result t).1 = .ok () ∧
      ∃ row', (completeMessageDelivery clk id result t).2.find? id = some row' ∧ row'.status = .done := by
  obtain ⟨record, hpay, -, hkind⟩ := h.payload
  have hsel : isPendingMessage row = true := by simp [isPendingMessage, h.kind, hpend]
  have hpatch : completeMessageDeliveryPatch clk id result row record =
      .write (.ok ()) (doneRow clk result row record) := by
    simp [completeMessageDeliveryPatch, hkind, Job.isMessage]
  constructor
  · simp only [completeMessageDelivery, patchRecord, hrow, filter_some, hsel, if_true, hpay,
      deserializeRecord, hpatch]
  refine ⟨patchedRow id isPendingMessage (completeMessageDeliveryPatch clk id result) row, ?_, ?_⟩
  · rw [completeMessageDelivery, find?_patchRecord, hrow, map_some]
  have hid : row.id = id := Table.key_of_find? hrow
  simp only [patchedRow, hid, hsel, and_self, if_true, hpay, deserializeRecord, hpatch]
  rfl

end DeliveryRow

end Gradatum.Queue
