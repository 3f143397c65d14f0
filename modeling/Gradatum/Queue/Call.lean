import Gradatum.Queue.Store

/-!
# What a call does to a row

`Call` lists the critical sections of the store that write.  `Call.onRow` is what a call makes of a row, and
`find?_exec` says that nothing else happens, apart from the row that `enqueue` adds.
-/

open Reasoning

namespace Gradatum.Queue

open Option Table

/-! ## 1. Calls -/

/-- A call that enters one critical section and writes in it.  `promoteRetry` is one turn of the
loop of `promote_retries`, on a row that its `SELECT` returned earlier. -/
inductive Call where
  | enqueue (job : JobRecord)
  | dequeue (clk : Clock) (tenant : Option String)
  | dequeueByKind (clk : Clock) (kind : String) (tenant : Option String)
  | complete (clk : Clock) (id : Ulid) (result : JobResult)
  | completeMessageDelivery (clk : Clock) (id : Ulid) (result : JobResult)
  | fail (clk : Clock) (id : Ulid) (err : String) (attempt : UInt32)
  | cancel (clk : Clock) (id : Ulid) (tenant : Option String)
  | failDlq (clk : Clock) (id : Ulid) (err : String)
  | markConflict (clk : Clock) (id : Ulid) (resultNoteMd : String) (durationMs : UInt32)
  | setPending (id : Ulid)
  | recoverStaleLeases (clk : Clock) (ttl : Nat)
  | cancelExpiredDeadlines (now : Instant)
  | scheduleRetry (id : Ulid) (retryAt : Instant)
  | promoteRetry (clk : Clock) (now : Instant) (c : RetryCandidate)
  | purgeOneBatch (cutoff : Option Instant) (after : Option Ulid)
  | replaySingle (now : Instant) (id : Ulid)
  | deleteDlqJobs (olderThan : Option Instant)

namespace Call

def exec : Call → JobTable → JobTable
  | enqueue job, t => (Queue.enqueue job t).2
  | dequeue clk tenant, t => (Queue.dequeue clk tenant t).2
  | dequeueByKind clk kind tenant, t => (Queue.dequeueByKind clk kind tenant t).2
  | complete clk id result, t => (Queue.complete clk id result t).2
  | completeMessageDelivery clk id result, t => (Queue.completeMessageDelivery clk id result t).2
  | fail clk id err attempt, t => (Queue.fail clk id err attempt t).2
  | cancel clk id tenant, t => (Queue.cancel clk id tenant t).2
  | failDlq clk id err, t => (Queue.failDlq clk id err t).2
  | markConflict clk id note durationMs, t => (Queue.markConflict clk id note durationMs t).2
  | setPending id, t => Queue.setPending id t
  | recoverStaleLeases clk ttl, t => Queue.recoverStaleLeases clk ttl t
  | cancelExpiredDeadlines now, t => Queue.cancelExpiredDeadlines now t
  | scheduleRetry id retryAt, t => Queue.scheduleRetry id retryAt t
  | promoteRetry clk now c, t => (Queue.promoteRetry clk now c t).2
  | purgeOneBatch cutoff after, t => Queue.purgeOneBatch cutoff after t
  | replaySingle now id, t => Queue.replaySingle now id t
  | deleteDlqJobs olderThan, t => Queue.deleteDlqJobs olderThan t

end Call

/-! ## 2. The effect on one row -/

def leasedRow (t : JobTable) (clk : Clock) (eligible : JobRow → Bool) (row : JobRow) : JobRow :=
  if (t.selectFirst eligible dequeueOrder).any fun first => row.id = first.id then leaseRow clk row
  else row

/-- The row that a read-modify-write transaction on `id` makes of `row`. -/
def patchedRow {α : Type} (id : Ulid) (selects : JobRow → Bool)
    (patch : JobRow → JobRecord → Patch α) (row : JobRow) : JobRow :=
  if row.id = id ∧ selects row = true then
    match deserializeRecord row.payload with
    | .error _ => row
    | .ok record =>
      match patch row record with
      | .keep _ => row
      | .write _ row' => { row' with id := row.id }
  else row

theorem patchedRow_cases (id : Ulid) (selects : JobRow → Bool) (patch : JobRow → JobRecord → Patch α)
    (row : JobRow) : patchedRow id selects patch row = row ∨
      ∃ record answer row', row.id = id ∧ selects row = true ∧ row.payload = .json record ∧
        patch row record = .write answer row' ∧
        patchedRow id selects patch row = { row' with id := row.id } := by
  unfold patchedRow
  by_cases hsel : row.id = id ∧ selects row = true
  · rw [if_pos hsel]
    cases hpay : row.payload with
    -- an undecodable payload rolls the transaction back
    | corrupt text => exact .inl rfl
    | json record =>
      cases hpatch : patch row record with
      | keep answer => exact .inl (by simp [deserializeRecord, hpatch])
      | write answer row' =>
        exact .inr ⟨record, answer, row', hsel.1, hsel.2, rfl, hpatch,
          by simp [deserializeRecord, hpatch]⟩
  · exact .inl (if_neg hsel)

theorem find?_leaseFirst (clk : Clock) (eligible : JobRow → Bool) (t : JobTable) (k : Ulid) :
    (leaseFirst clk eligible t).2.find? k = (t.find? k).map (leasedRow t clk eligible) := by
  unfold leaseFirst leasedRow
  cases hfirst : t.selectFirst eligible dequeueOrder with
  | none => simp
  | some first => simp [find?_updateWhere]

theorem leasedRow_cases (h : t.find? k = some row) (clk : Clock) (eligible : JobRow → Bool) :
    leasedRow t clk eligible row = row ∨ (t.selectFirst eligible dequeueOrder = some row ∧
        leasedRow t clk eligible row = leaseRow clk row) := by
  unfold leasedRow
  cases hfirst : t.selectFirst eligible dequeueOrder with
  | none => simp
  | some first =>
    by_cases hid : row.id = first.id
    · have hrow : t.find? first.id = some row := by
        rw [← hid, key_of_find? h]
        exact h
      have heq : first = row := by
        have hfind := find?_of_mem (selectFirst_some hfirst).1
        rw [hrow] at hfind
        exact (Option.some.inj hfind).symm
      right
      simp [heq]
    · left
      simp [hid]

theorem find?_patchRecord (id : Ulid) (selects : JobRow → Bool) (missing : Except QueueError α)
    (patch : JobRow → JobRecord → Patch α) (t : JobTable) (k : Ulid) :
    (patchRecord id selects missing patch t).2.find? k =
      (t.find? k).map (patchedRow id selects patch) := by
  -- a row under another key is not the one the transaction selects
  have hother : ∀ row, t.find? k = some row → k ≠ id → patchedRow id selects patch row = row := by
    intro row hrow hk
    rw [patchedRow, if_neg]
    rw [key_of_find? hrow]
    exact fun hc => hk hc.1
  by_cases hk : k = id
  · subst hk
    unfold patchRecord
    cases hrow : t.find? k with
    | none => simp [hrow]
    | some row =>
      have hid : row.id = k := key_of_find? hrow
      by_cases hsel : selects row = true
      · simp only [filter_some, hsel, if_true, map_some, patchedRow, hid, and_self]
        cases deserializeRecord row.payload with
        | error e => exact hrow
        | ok record =>
          cases hpatch : patch row record with
          | keep answer => simpa only [hpatch] using hrow
          | write answer row' => simp [hpatch, find?_updateWhere, hrow, hid]
      · simp [filter_some, hsel, patchedRow, hrow]
  · cases hrow : t.find? k with
    | none =>
      unfold patchRecord
      split
      · simp [hrow]
      split
      · simp [hrow]
      · split <;> simp [hrow, find?_updateWhere]
    | some row =>
      have hid : row.id = k := key_of_find? hrow
      rw [map_some, hother row hrow hk]
      unfold patchRecord
      split
      · exact hrow
      split
      · exact hrow
      · split <;> simp [hrow, find?_updateWhere, hid, hk]

def deadLettered (clk : Clock) (id : Ulid) (err : String) : JobRow → JobRow :=
  patchedRow id (fun _ => true) fun row record => .write (.ok ()) (dlqRow clk err row record)

/-- What a call makes of a row that is in the table; `none` if it deletes it. -/
def Call.onRow (t : JobTable) : Call → JobRow → Option JobRow
  | .enqueue _, row => some row
  | .dequeue clk tenant, row => some (leasedRow t clk (isReady clk.now tenant) row)
  | .dequeueByKind clk kind tenant, row =>
    some (if kind = jobKindMessage then row
      else leasedRow t clk (isReadyOfKind clk.now kind tenant) row)
  | .complete clk id result, row => some (patchedRow id isRunning (completePatch clk id result) row)
  | .completeMessageDelivery clk id result, row =>
    some (patchedRow id isPendingMessage (completeMessageDeliveryPatch clk id result) row)
  | .fail clk id err attempt, row =>
    some (patchedRow id isRunning (failPatch clk id err attempt) row)
  | .cancel clk id tenant, row =>
    some (patchedRow id (isCancellable tenant)
      (fun row record => .write (.ok ()) (cancelledRow clk row record)) row)
  | .failDlq clk id err, row => some (deadLettered clk id err row)
  | .markConflict clk id note durationMs, row =>
    some (patchedRow id (fun _ => true)
      (fun row record => .write (.ok ()) (conflictRow clk note durationMs row record)) row)
  | .setPending id, row =>
    some (if row.id = id ∧ row.status = .waiting then readyRow row else row)
  | .recoverStaleLeases clk ttl, row =>
    some (match chronoDuration ttl with
      | none => row
      | some d => if isStale (clk.now - d) row = true then recoveredRow clk.again row else row)
  | .cancelExpiredDeadlines now, row =>
    some (if isExpired now row = true then expiredRow now row else row)
  | .scheduleRetry id retryAt, row =>
    some (if row.id = id ∧ row.status = .running then rescheduledRow retryAt row else row)
  | .promoteRetry clk now c, row =>
    some (match deserializeRecord c.payload with
      | .error _ => row
      | .ok record =>
        if retryExhausted c record = true then
          deadLettered clk record.id (retryExhaustedMessage c record) row
        else if row.id = c.id ∧ row.status = .failed then retriedRow now row
        else row)
  | .purgeOneBatch cutoff after, row =>
    some (if row.id ∈ (purgeCandidates cutoff after t).map (·.id) then purgedRow row else row)
  | .replaySingle now id, row =>
    some (if row.id = id ∧ row.status = .dlq then replayedRow now row else row)
  | .deleteDlqJobs olderThan, row => if isDeletable olderThan row = true then none else some row

def Call.inserts : Call → Option JobRecord
  | .enqueue job => some job
  | _ => none

theorem find?_enqueue (job : JobRecord) (t : JobTable) (k : Ulid) :
    (enqueue job t).2.find? k =
      match t.find? k with
      | some row => some row
      | none => if job.id = k then some (rowOfRecord job) else none := by
  unfold enqueue
  cases hins : t.insert (rowOfRecord job) with
  | none =>
    -- the id is taken, by the row that stays
    obtain ⟨row, hrow⟩ := insert_eq_none_iff.1 hins
    cases hk : t.find? k with
    | some row' => simp
    | none =>
      have hne : job.id ≠ k := by
        intro heq
        rw [← heq] at hk
        have : t.find? job.id = some row := hrow
        rw [hk] at this
        cases this
      simp [hne]
  | some t' =>
    have hfree : t.find? job.id = none := by
      cases hfind : t.find? job.id with
      | none => rfl
      | some row =>
        have htaken : t.insert (rowOfRecord job) = none :=
          insert_eq_none_iff.2 ⟨row, hfind⟩
        rw [hins] at htaken
        cases htaken
    have hkey : (rowOfRecord job).id = job.id := rfl
    simp only [find?_insert hins, hkey]
    by_cases hk : k = job.id
    · rw [hk, hfree]
    rw [if_neg hk]
    cases t.find? k with
    | none => simp [Ne.symm hk]
    | some row => simp

theorem find?_exec (c : Call) (t : JobTable) (k : Ulid) :
    (c.exec t).find? k =
      match t.find? k with
      | some row => c.onRow t row
      | none => (c.inserts.filter fun job => job.id = k).map rowOfRecord := by
  -- every call but the two that add and delete rows maps a function over the table
  have hmap : ∀ {t' : JobTable} {f : JobRow → JobRow}, t'.find? k = (t.find? k).map f →
      (∀ row, c.onRow t row = some (f row)) → c.inserts = none →
      t'.find? k = match t.find? k with
        | some row => c.onRow t row
        | none => (c.inserts.filter fun job => job.id = k).map rowOfRecord := by
    intro t' f hfind hon hins
    rw [hfind, hins]
    cases t.find? k with
    | none => rfl
    | some row => simp [hon row]
  cases c with
  | enqueue job =>
    refine (find?_enqueue job t k).trans ?_
    cases t.find? k with
    | none => by_cases hk : job.id = k <;> simp [Call.inserts, filter_some, hk]
    | some row => rfl
  | dequeue clk tenant => exact hmap (find?_leaseFirst _ _ _ _) (fun _ => rfl) rfl
  | dequeueByKind clk kind tenant =>
    apply hmap (f := fun row => if kind = jobKindMessage then row
      else leasedRow t clk (isReadyOfKind clk.now kind tenant) row) _ (fun _ => rfl) rfl
    simp only [Call.exec, dequeueByKind]
    by_cases hkind : kind = jobKindMessage
    · simp [hkind]
    · simp only [hkind, if_false]
      exact find?_leaseFirst _ _ _ _
  | complete | completeMessageDelivery | fail | cancel | failDlq | markConflict =>
    exact hmap (find?_patchRecord _ _ _ _ _ _) (fun _ => rfl) rfl
  | setPending id =>
    refine hmap (find?_updateWhere _ _ _ readyRow_id _) (fun row => ?_) rfl
    simp [Call.onRow]
  | recoverStaleLeases clk ttl =>
    cases hd : chronoDuration ttl with
    | none =>
      apply hmap (f := id) _ (fun row => by simp [Call.onRow, hd]) rfl
      simp [Call.exec, recoverStaleLeases, hd]
    | some d =>
      apply hmap (f := fun row =>
        if isStale (clk.now - d) row = true then recoveredRow clk.again row else row) _
        (fun row => by simp [Call.onRow, hd]) rfl
      simp only [Call.exec, recoverStaleLeases, hd]
      exact find?_updateWhere _ _ _ (recoveredRow_id clk.again) _
  | cancelExpiredDeadlines now =>
    exact hmap (find?_updateWhere _ _ _ (expiredRow_id now) _) (fun _ => rfl) rfl
  | scheduleRetry id retryAt =>
    refine hmap (find?_updateWhere _ _ _ (rescheduledRow_id retryAt) _) (fun row => ?_) rfl
    simp [Call.onRow]
  | promoteRetry clk now c =>
    simp only [Call.exec, promoteRetry, Call.onRow, Call.inserts]
    cases hpay : deserializeRecord c.payload with
    | error e => cases t.find? k <;> rfl
    | ok record =>
      by_cases hexh : retryExhausted c record = true
      · simp only [hexh, if_true, failDlq, find?_patchRecord]
        cases t.find? k <;> rfl
      simp only [hexh]
      rw [if_neg (by simp), find?_updateWhere]
      cases t.find? k <;> simp
  | purgeOneBatch cutoff after =>
    refine hmap (find?_updateWhere _ _ _ purgedRow_id _) (fun row => ?_) rfl
    simp [Call.onRow]
  | replaySingle now id =>
    refine hmap (find?_updateWhere _ _ _ (replayedRow_id now) _) (fun row => ?_) rfl
    simp [Call.onRow]
  | deleteDlqJobs olderThan =>
    simp only [Call.exec, deleteDlqJobs, find?_deleteWhere, Call.inserts]
    cases t.find? k with
    | none => rfl
    | some row => by_cases hdel : isDeletable olderThan row = true <;>
        simp [Call.onRow, hdel, filter_some]

/-! ## 3. The changes -/

inductive RowChange : Call → JobRow → JobRow → Prop where
  | leased {clk : Clock} {tenant : Option String} {row : JobRow}
      (hpending : row.status = .pending) (hready : isReady clk.now tenant row = true) :
      RowChange (.dequeue clk tenant) row (leaseRow clk row)
  | leasedByKind {clk : Clock} {kind : String} {tenant : Option String} {row : JobRow}
      (hkind : kind ≠ jobKindMessage) (hrow : row.kind = kind) (hpending : row.status = .pending)
      (hready : isReadyOfKind clk.now kind tenant row = true) :
      RowChange (.dequeueByKind clk kind tenant) row (leaseRow clk row)
  | completed {clk : Clock} {id : Ulid} {result : JobResult} {row : JobRow} {record : JobRecord}
      (hid : row.id = id) (hrunning : row.status = .running) (hpayload : row.payload = .json record)
      (hconflict : record.lifecycle.status ≠ .conflict)
      (hlease : columnAfter row.leaseUntil clk.now = true) :
      RowChange (.complete clk id result) row (doneRow clk result row record)
  | delivered {clk : Clock} {id : Ulid} {result : JobResult} {row : JobRow} {record : JobRecord}
      (hid : row.id = id) (hkind : row.kind = jobKindMessage) (hpending : row.status = .pending)
      (hpayload : row.payload = .json record) :
      RowChange (.completeMessageDelivery clk id result) row (doneRow clk result row record)
  | failed {clk : Clock} {id : Ulid} {err : String} {attempt : UInt32} {row : JobRow}
      {record : JobRecord} (hid : row.id = id) (hrunning : row.status = .running)
      (hpayload : row.payload = .json record)
      (hlease : columnAfter row.leaseUntil clk.now = true) :
      RowChange (.fail clk id err attempt) row
        (failedRow clk (truncateChars 2048 err) attempt row record)
  | cancelled {clk : Clock} {id : Ulid} {tenant : Option String} {row : JobRow}
      {record : JobRecord} (hid : row.id = id) (hactive : row.status.isTerminal = false)
      (hpayload : row.payload = .json record) :
      RowChange (.cancel clk id tenant) row (cancelledRow clk row record)
  | deadLettered {clk : Clock} {id : Ulid} {err : String} {row : JobRow} {record : JobRecord}
      (hid : row.id = id) (hpayload : row.payload = .json record) :
      RowChange (.failDlq clk id err) row (dlqRow clk err row record)
  | conflicted {clk : Clock} {id : Ulid} {note : String} {durationMs : UInt32} {row : JobRow}
      {record : JobRecord} (hid : row.id = id) (hpayload : row.payload = .json record) :
      RowChange (.markConflict clk id note durationMs) row
        (conflictRow clk note durationMs row record)
  | readied {id : Ulid} {row : JobRow} (hid : row.id = id) (hwaiting : row.status = .waiting) :
      RowChange (.setPending id) row (readyRow row)
  | recovered {clk : Clock} {ttl : Nat} {d : Int} {row : JobRow} (hd : chronoDuration ttl = some d)
      (hstale : isStale (clk.now - d) row = true) (hrunning : row.status = .running) :
      RowChange (.recoverStaleLeases clk ttl) row (recoveredRow clk.again row)
  | expired {now : Instant} {row : JobRow} (hexpired : isExpired now row = true)
      (hactive : row.status.isTerminal = false) :
      RowChange (.cancelExpiredDeadlines now) row (expiredRow now row)
  | rescheduled {id : Ulid} {retryAt : Instant} {row : JobRow} (hid : row.id = id)
      (hrunning : row.status = .running) :
      RowChange (.scheduleRetry id retryAt) row (rescheduledRow retryAt row)
  | exhausted {clk : Clock} {now : Instant} {c : RetryCandidate} {snapshot record : JobRecord}
      {row : JobRow} (hsnapshot : c.payload = .json snapshot)
      (hexhausted : retryExhausted c snapshot = true) (hid : row.id = snapshot.id)
      (hpayload : row.payload = .json record) :
      RowChange (.promoteRetry clk now c) row
        (dlqRow clk (retryExhaustedMessage c snapshot) row record)
  | retried {clk : Clock} {now : Instant} {c : RetryCandidate} {snapshot : JobRecord}
      {row : JobRow} (hsnapshot : c.payload = .json snapshot)
      (hexhausted : retryExhausted c snapshot = false) (hid : row.id = c.id)
      (hfailed : row.status = .failed) :
      RowChange (.promoteRetry clk now c) row (retriedRow now row)
  | purged {cutoff : Option Instant} {after : Option Ulid} {row : JobRow}
      (hended : row.status.isTerminal = true) :
      RowChange (.purgeOneBatch cutoff after) row (purgedRow row)
  | replayed {now : Instant} {id : Ulid} {row : JobRow} (hid : row.id = id)
      (hdlq : row.status = .dlq) :
      RowChange (.replaySingle now id) row (replayedRow now row)

theorem isReady_pending (h : isReady now tenant row = true) : row.status = .pending := by
  simp only [isReady, Bool.and_eq_true, decide_eq_true_eq] at h
  exact h.1.1

theorem purgeCandidates_terminal (hrow : t.find? k = some row)
    (h : row.id ∈ (purgeCandidates cutoff after t).map (·.id)) : row.status.isTerminal = true := by
  obtain ⟨r, hr, hid⟩ := List.mem_map.1 h
  have hsort := List.mem_of_mem_take hr
  rw [List.mem_insertionSort] at hsort
  obtain ⟨hmem, hterm⟩ := List.mem_filter.1 (List.mem_filter.1 hsort).1
  -- the candidate with the id of `row` is `row`
  have hfind := find?_of_mem hmem
  rw [hid, key_of_find? hrow, hrow] at hfind
  rw [Option.some.inj hfind]
  exact hterm

theorem RowChange.of_patched {id : Ulid} {patch : JobRow → JobRecord → Patch α}
    (h : ∀ record answer row', row.id = id → selects row = true → row.payload = .json record →
      patch row record = .write answer row' → RowChange c row { row' with id := row.id }) :
    patchedRow id selects patch row = row ∨ RowChange c row (patchedRow id selects patch row) := by
  rcases patchedRow_cases id selects patch row with
    heq | ⟨record, answer, row', hid, hsel, hpay, hpatch, heq⟩
  · exact .inl heq
  · rw [heq]
    exact .inr (h record answer row' hid hsel hpay hpatch)

theorem RowChange.of_ite [Decidable p] (h : p → RowChange c row row') :
    (if p then row' else row) = row ∨ RowChange c row (if p then row' else row) := by
  split
  · rename_i hp
    exact .inr (h hp)
  · exact .inl rfl

/-- **Inversion.**  A row that is in the table after a call was there before and is unchanged, or was
changed in one of the ways above. -/
theorem Call.onRow_cases (hrow : t.find? k = some row) (h : c.onRow t row = some row') :
    row' = row ∨ RowChange c row row' := by
  cases c with
  | enqueue job =>
    cases h
    exact .inl rfl
  | dequeue clk tenant =>
    cases h
    rcases leasedRow_cases hrow clk (isReady clk.now tenant) with heq | ⟨hfirst, heq⟩
    · exact .inl heq
    rw [heq]
    have hready := (selectFirst_some hfirst).2
    exact .inr (.leased (isReady_pending hready) hready)
  | dequeueByKind clk kind tenant =>
    cases h
    by_cases hkind : kind = jobKindMessage
    · exact .inl (if_pos hkind)
    rw [if_neg hkind]
    rcases leasedRow_cases hrow clk (isReadyOfKind clk.now kind tenant) with heq | ⟨hfirst, heq⟩
    · exact .inl heq
    rw [heq]
    have hready := (selectFirst_some hfirst).2
    have hparts := hready
    simp only [isReadyOfKind, Bool.and_eq_true, decide_eq_true_eq] at hparts
    exact .inr (.leasedByKind hkind hparts.2 (isReady_pending hparts.1) hready)
  | complete clk id result =>
    cases h
    refine RowChange.of_patched fun record answer row' hid hsel hpay hpatch => ?_
    unfold completePatch at hpatch
    split at hpatch
    · cases hpatch
    rename_i hconfl
    split at hpatch
    · rename_i hlease
      cases hpatch
      exact .completed hid (of_decide_eq_true hsel) hpay hconfl hlease
    · cases hpatch
  | completeMessageDelivery clk id result =>
    cases h
    refine RowChange.of_patched fun record answer row' hid hsel hpay hpatch => ?_
    simp only [isPendingMessage, Bool.and_eq_true, decide_eq_true_eq] at hsel
    unfold completeMessageDeliveryPatch at hpatch
    split at hpatch
    · cases hpatch
      exact .delivered hid hsel.1 hsel.2 hpay
    · cases hpatch
  | fail clk id err attempt =>
    cases h
    refine RowChange.of_patched fun record answer row' hid hsel hpay hpatch => ?_
    unfold failPatch at hpatch
    split at hpatch
    · rename_i hlease
      cases hpatch
      exact .failed hid (of_decide_eq_true hsel) hpay hlease
    · cases hpatch
  | cancel clk id tenant =>
    cases h
    refine RowChange.of_patched fun record answer row' hid hsel hpay hpatch => ?_
    simp only [isCancellable, Bool.and_eq_true, Bool.not_eq_true'] at hsel
    cases hpatch
    exact .cancelled hid hsel.1 hpay
  | failDlq clk id err =>
    cases h
    refine RowChange.of_patched fun record answer row' hid _ hpay hpatch => ?_
    cases hpatch
    exact .deadLettered hid hpay
  | markConflict clk id note durationMs =>
    cases h
    refine RowChange.of_patched fun record answer row' hid _ hpay hpatch => ?_
    cases hpatch
    exact .conflicted hid hpay
  | setPending id =>
    cases h
    exact RowChange.of_ite fun hsel => .readied hsel.1 hsel.2
  | recoverStaleLeases clk ttl =>
    cases h
    cases hd : chronoDuration ttl with
    | none => exact .inl rfl
    | some d =>
      refine RowChange.of_ite fun hstale => .recovered hd hstale ?_
      simp only [isStale, Bool.and_eq_true, decide_eq_true_eq] at hstale
      exact hstale.1
  | cancelExpiredDeadlines now =>
    cases h
    refine RowChange.of_ite fun hexp => .expired hexp ?_
    simp only [isExpired, Bool.and_eq_true, Bool.not_eq_true'] at hexp
    exact hexp.2
  | scheduleRetry id retryAt =>
    cases h
    exact RowChange.of_ite fun hsel => .rescheduled hsel.1 hsel.2
  | promoteRetry clk now c =>
    cases h
    -- the branch is chosen by the candidate's snapshot, and then meets the row as it is now
    cases hsnap : c.payload with
    | corrupt text => exact .inl rfl
    | json snapshot =>
      simp only [deserializeRecord]
      by_cases hexh : retryExhausted c snapshot = true
      · rw [if_pos hexh]
        refine RowChange.of_patched fun record answer row' hid _ hpay hpatch => ?_
        cases hpatch
        exact .exhausted hsnap hexh hid hpay
      · rw [if_neg hexh]
        exact RowChange.of_ite fun hsel => .retried hsnap (by simpa using hexh) hsel.1 hsel.2
  | purgeOneBatch cutoff after =>
    cases h
    exact RowChange.of_ite fun hsel => .purged (purgeCandidates_terminal hrow hsel)
  | replaySingle now id =>
    cases h
    exact RowChange.of_ite fun hsel => .replayed hsel.1 hsel.2
  | deleteDlqJobs olderThan =>
    simp only [Call.onRow] at h
    split at h
    · cases h
    · cases h
      exact .inl rfl

end Gradatum.Queue
