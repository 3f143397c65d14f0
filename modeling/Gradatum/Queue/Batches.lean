import Gradatum.Queue.Delivery
import Gradatum.Queue.Terminal

/-!
# Reading many rows in batches

`get_many` of the SQLite store asks for at most 998 ids at a time and drains what it found in the order of
the request.  `get_many` of the trait reads one id after another.
-/

open Reasoning

namespace Gradatum.Queue

open List Option Function

abbrev Found := Ulid → Option JobRecord

variable (tenant : Option String) (t : JobTable)

def sqliteIdBatch : Nat := 998

/-- A record goes by the id that it carries, not by that of its row. -/
def collectRow (found : Found) (row : JobRow) : Except QueueError Found := do
  let record ← readRow row
  return update found record.id (some record)

def collectChunks (found : Found) (ids : List Ulid) : Except QueueError Found :=
  if ids = [] then .ok found
  else do
    let chunk := ids.take sqliteIdBatch
    let rows := t.select fun row => chunk.contains row.id && matchesFilter tenant row.tenantId
    collectChunks (← rows.foldlM collectRow found) (ids.drop sqliteIdBatch)
termination_by ids.length
decreasing_by
  have := length_pos_iff.2 ‹ids ≠ []›
  simp only [length_drop, sqliteIdBatch]
  omega

/-- `found.remove` for one id after the other. -/
def drain (found : Found) : List Ulid → List JobRecord
  | [] => []
  | id :: ids => (found id).toList ++ drain (update found id none) ids

/-- `get_many` of the SQLite store. -/
def getManyChunked (ids : List Ulid) : Except QueueError (List JobRecord) := do
  return drain (← collectChunks tenant t (fun _ => none) ids) ids

/-- `get_many` of the trait. -/
def getManyDefault (seen : List Ulid) : List Ulid → Except QueueError (List JobRecord)
  | [] => .ok []
  | id :: ids =>
    if id ∈ seen then getManyDefault seen ids
    else do
      let record ← get id tenant t
      return record.toList ++ (← getManyDefault (id :: seen) ids)

def Readable (t : JobTable) : Prop :=
  ∀ row ∈ t.rows, ∃ record, row.payload = .json record ∧ record.id = row.id

def recordAt (id : Ulid) : Option JobRecord :=
  ((t.find? id).filter fun row => matchesFilter tenant row.tenantId).bind fun row => (readRow row).toOption

variable {tenant t}

theorem drain_update (found : Found) (a : Ulid) (ids : List Ulid) :
    drain (update found a none) ids = drain found (ids.filter (· != a)) := by
  induction ids generalizing found with
  | nil => rfl
  | cons b ids ih =>
    by_cases hb : b = a
    · rw [drain, hb, update_self, update_idem, ih, filter_cons_of_neg (by simp)]
      rfl
    · rw [drain, update_of_ne hb, update_comm (Ne.symm hb), ih, filter_cons_of_pos (by simpa using hb), drain]

theorem drain_eq (found : Found) (ids : List Ulid) : drain found ids = ids.eraseDups.filterMap found := by
  induction hn : ids.length using Nat.strong_induction_on generalizing ids with
  | h n ih =>
    cases ids with
    | nil => rfl
    | cons a ids =>
      have hle := length_filter_le (· != a) ids
      rw [length_cons] at hn
      rw [drain, drain_update, ih _ (by omega) _ rfl, eraseDups_cons, filterMap_cons]
      cases found a <;> rfl

theorem getManyDefault_eq {read : Found} (hget : ∀ id, get id tenant t = .ok (read id)) (seen ids : List Ulid) :
    getManyDefault tenant t seen ids = .ok (drain (fun id => if id ∈ seen then none else read id) ids) := by
  induction ids generalizing seen with
  | nil => rfl
  | cons id ids ih =>
    rw [getManyDefault, drain]
    by_cases hid : id ∈ seen
    · rw [if_pos hid, if_pos hid, ih, update_eq_self_iff.2 (if_pos hid).symm]
      rfl
    · have hseen : update (fun id => if id ∈ seen then none else read id) id none =
          fun x => if x ∈ id :: seen then none else read x := by
        funext x
        by_cases hx : x = id <;> simp [hx]
      rw [if_neg hid, if_neg hid, hget, ih, hseen]
      rfl

theorem foldlM_collectRow {rows : List JobRow} (hnodup : (rows.map JobRow.id).Nodup)
    (h : ∀ row ∈ rows, ∃ record, row.payload = .json record ∧ record.id = row.id) (found : Found) :
    rows.foldlM collectRow found = .ok fun id =>
      ((rows.find? (·.id = id)).bind fun row => (readRow row).toOption).or (found id) := by
  induction rows generalizing found with
  | nil => rfl
  | cons row rows ih =>
    obtain ⟨⟨record, hpay, hid⟩, hrest⟩ := forall_mem_cons.1 h
    rw [map_cons, nodup_cons] at hnodup
    have hread : readRow row = .ok (applySqlAuthority row record) := by
      rw [readRow, hpay]
      rfl
    rw [foldlM_cons, collectRow, hread]
    refine (ih hnodup.2 hrest (update found record.id _)).trans (congrArg Except.ok (funext fun id => ?_))
    by_cases hrow : row.id = id
    · have hnone : rows.find? (·.id = id) = none := by
        rw [find?_eq_none]
        intro row' hrow' heq
        exact hnodup.1 (hrow ▸ of_decide_eq_true heq ▸ mem_map_of_mem hrow')
      rw [hnone, find?_cons_of_pos (by simpa using hrow), hid, hrow, update_self, bind_some, hread]
      rfl
    · rw [find?_cons_of_neg (by simpa using hrow), hid, update_of_ne (Ne.symm hrow)]

theorem collectChunks_eq (h : Readable t) (found : Found) (ids : List Ulid) :
    collectChunks tenant t found ids =
      .ok fun id => if id ∈ ids then (recordAt tenant t id).or (found id) else found id := by
  fun_induction collectChunks tenant t found ids with
  | case1 found => simp
  | case2 found ids hne chunk rows ih =>
    rw [@foldlM_collectRow rows (t.nodup.sublist (filter_sublist.map JobRow.id))
      fun row hrow => h row (mem_filter.1 hrow).1]
    refine (ih _).trans (congrArg Except.ok (funext fun id => ?_))
    have hfind : rows.find? (·.id = id) = (t.find? id).filter fun row =>
        chunk.contains row.id && matchesFilter tenant row.tenantId := by
      simpa [rows, Table.deleteWhere, Table.find?, Table.select] using t.find?_deleteWhere (fun row =>
        !(chunk.contains row.id && matchesFilter tenant row.tenantId)) id
    have hsplit : id ∈ ids ↔ id ∈ chunk ∨ id ∈ ids.drop sqliteIdBatch := by
      rw [← mem_append, take_append_drop]
    rw [hfind, recordAt]
    cases hrow : t.find? id with
    | none => simp
    | some row =>
      have hid : row.id = id := Table.key_of_find? hrow
      by_cases h₁ : id ∈ chunk <;> by_cases h₂ : id ∈ ids.drop sqliteIdBatch <;>
        simp [Option.filter, hid, hsplit, h₁, h₂, ← Option.or_assoc]

/-- A batch reads what single reads in the order of first occurrence would. -/
theorem getManyChunked_eq (tenant : Option String) (t : JobTable) (ids : List Ulid) (h : Readable t) :
    ∃ read : Found, (∀ id, get id tenant t = .ok (read id)) ∧
      getManyChunked tenant t ids = .ok (ids.eraseDups.filterMap read) ∧
      getManyDefault tenant t [] ids = .ok (ids.eraseDups.filterMap read) := by
  have hget : ∀ id, get id tenant t = .ok (recordAt tenant t id) := by
    intro id
    rw [get, recordAt]
    cases hrow : (t.find? id).filter fun row => matchesFilter tenant row.tenantId with
    | none => rfl
    | some row =>
      obtain ⟨record, hpay, -⟩ := h row (Table.find?_eq_some_iff.1 (Option.filter_eq_some_iff.1 hrow).1).1
      simp only [bind_some, readRow, hpay]
      rfl
  refine ⟨recordAt tenant t, hget, ?_, ?_⟩
  · rw [getManyChunked, collectChunks_eq h]
    refine congrArg Except.ok ((drain_eq _ ids).trans (filterMap_congr fun id hid => ?_))
    simp [mem_eraseDups.1 hid]
  · rw [getManyDefault_eq hget, drain_eq]
    simp

/-- An id that is asked for twice, with an unknown one between. -/
theorem getManyChunked_repeated :
    ∃ t : JobTable, t.rows = [rowOfRecord (makeRecord 1 .summarize .pending)] ∧
      getManyChunked none t [1, 2, 1] = getManyDefault none t [] [1, 2, 1] := by
  refine ⟨⟨[rowOfRecord (makeRecord 1 .summarize .pending)], by simp⟩, rfl, ?_⟩
  obtain ⟨read, -, hmany, hdefault⟩ := getManyChunked_eq none
    ⟨[rowOfRecord (makeRecord 1 .summarize .pending)], by simp⟩ [1, 2, 1] (by
      intro row hrow
      rw [mem_singleton.1 hrow]
      exact ⟨_, rfl, rfl⟩)
  rw [hmany, hdefault]

end Gradatum.Queue
