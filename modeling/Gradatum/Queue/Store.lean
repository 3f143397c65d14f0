import Mathlib.Algebra.Order.Ring.Int
import Gradatum.Reasoning.Table
import Gradatum.Queue.Job

/-!
# The SQLite job store

The `gradatum_jobs` table and the operations of `SqliteQueueStore` on it.  A row keeps the lifecycle of its
job in columns and in the JSON `payload`.  Every function is one critical section; it returns the answer
with the table it leaves behind, because a call can fail after it has committed.  A call reads the clock
before it takes the lock, so the readings are arguments.
-/

open Reasoning

namespace Gradatum.Queue

/-! ## 1. Rows -/

/-- The `payload` column: JSON text that holds a record, or text that holds none. -/
inductive Payload where
  | json (record : JobRecord)
  | corrupt (text : String)

def serializeRecord (record : JobRecord) : Payload := .json record

def deserializeRecord : Payload → Except QueueError JobRecord
  | .json record => .ok record
  | .corrupt text => .error (.serialization text)

structure JobRow where
  id : Ulid
  payload : Payload
  status : JobStatus
  priority : Nat
  jobClass : JobClass
  kind : String
  createdAt : Instant
  scheduledAt : Instant
  startedAt : Option Instant
  completedAt : Option Instant
  leaseUntil : Option Instant
  attemptCount : Nat
  deadline : Option Instant
  lastError : Option String
  awaitJobs : Option (List Ulid)
  tenantId : String

abbrev JobTable := Table JobRow.id

/-- The two readings of the clock a call may take, in the order it takes them. -/
structure Clock where
  now : Instant
  again : Instant

/-- `(? IS NULL OR column = ?)`. -/
def matchesFilter {α : Type} [DecidableEq α] (filter : Option α) (column : α) : Bool :=
  match filter with
  | none => true
  | some value => column = value

/-- `column < ?`, which is not true of a `NULL` column. -/
def columnBefore (column : Option Instant) (t : Instant) : Bool :=
  match column with
  | none => false
  | some c => c < t

/-- `column > ?`, which is not true of a `NULL` column. -/
def columnAfter (column : Option Instant) (t : Instant) : Bool :=
  match column with
  | none => false
  | some c => t < c

def truncateChars (n : Nat) (text : String) : String :=
  if n < text.length then String.ofList (text.toList.take n) else text

/-! ## 2. Reads -/

variable (clk : Clock) (now : Instant) (id : Ulid) (tenant : Option String) (row : JobRow)

def applySqlAuthority (record : JobRecord) : JobRecord :=
  { record with
    lifecycle :=
      { record.lifecycle with
        status := row.status
        -- here the payload has precedence, and the column fills in
        completedAt := record.lifecycle.completedAt.or row.completedAt }
    retry :=
      { record.retry with
        count := UInt32.ofNat row.attemptCount
        lastError := row.lastError.or record.retry.lastError } }

def get (t : JobTable) : Except QueueError (Option JobRecord) :=
  match (t.find? id).filter fun row => matchesFilter tenant row.tenantId with
  | none => .ok none
  | some row => do
      let record ← deserializeRecord row.payload
      return some (applySqlAuthority row record)

inductive JobOrder where
  | createdAsc
  | createdDesc

structure JobFilter where
  jobClass : Option JobClass
  status : Option JobStatus
  kind : Option String
  createdAfter : Option Instant
  createdBefore : Option Instant
  order : JobOrder
  limit : Nat
  cursor : Option Ulid
  tenant : Option String

/-- The `WHERE` clause of `list`; the direction of the cursor follows the order. -/
def JobFilter.selects (filter : JobFilter) (row : JobRow) : Bool :=
  matchesFilter filter.jobClass row.jobClass &&
  matchesFilter filter.status row.status &&
  matchesFilter filter.kind row.kind &&
  matchesFilter filter.tenant row.tenantId &&
  filter.createdAfter.all (fun t => decide (t < row.createdAt)) &&
  filter.createdBefore.all (fun t => decide (row.createdAt < t)) &&
  match filter.order with
  | .createdAsc => filter.cursor.all fun c => decide (c < row.id)
  | .createdDesc => filter.cursor.all fun c => decide (row.id < c)

def byIdAsc (a b : JobRow) : Prop := a.id ≤ b.id

def byIdDesc (a b : JobRow) : Prop := b.id ≤ a.id

instance : DecidableRel byIdAsc := fun a b => inferInstanceAs (Decidable (a.id ≤ b.id))

instance : DecidableRel byIdDesc := fun a b => inferInstanceAs (Decidable (b.id ≤ a.id))

def JobFilter.rows (filter : JobFilter) (t : JobTable) : List JobRow :=
  let found := match filter.order with
    | .createdAsc => (t.select filter.selects).insertionSort byIdAsc
    | .createdDesc => (t.select filter.selects).insertionSort byIdDesc
  found.take (max 1 (min filter.limit 500))

def list (filter : JobFilter) (t : JobTable) : Except QueueError (List JobRecord) :=
  (filter.rows t).mapM fun row => deserializeRecord row.payload

def latestJob (t : JobTable) : Except QueueError (Option JobRecord) :=
  match t.selectFirst (fun row => matchesFilter tenant row.tenantId) byIdDesc with
  | none => .ok none
  | some row => do
      let record ← deserializeRecord row.payload
      return some record

/-! ## 3. Enqueue and lease -/

def rowOfRecord (job : JobRecord) : JobRow where
  id := job.id
  payload := serializeRecord job
  status := job.lifecycle.status
  priority := job.spec.priority.asU8
  jobClass := job.spec.jobClass
  kind := jobKindStr job.spec.kind
  createdAt := job.lifecycle.createdAt
  scheduledAt := job.scheduling.scheduledAt
  startedAt := none
  completedAt := none
  leaseUntil := none
  -- whatever `retry.count` the record brings along
  attemptCount := 0
  deadline := job.scheduling.deadline
  lastError := none
  awaitJobs := if job.scheduling.awaitJobs.isEmpty then none else some job.scheduling.awaitIds
  tenantId := specTenant job.spec

def enqueue (job : JobRecord) (t : JobTable) : Except QueueError Ulid × JobTable :=
  match t.insert (rowOfRecord job) with
  | none => (.error (.storage "UNIQUE constraint failed: gradatum_jobs.id"), t)
  | some t' => (.ok job.id, t')

/-- `ORDER BY priority DESC, scheduled_at ASC`. -/
def dequeueOrder (a b : JobRow) : Prop :=
  b.priority < a.priority ∨ (a.priority = b.priority ∧ a.scheduledAt ≤ b.scheduledAt)

instance : DecidableRel dequeueOrder := fun a b =>
  inferInstanceAs (Decidable
    (b.priority < a.priority ∨ (a.priority = b.priority ∧ a.scheduledAt ≤ b.scheduledAt)))

def leaseRow : JobRow :=
  -- the payload is not rewritten and goes on saying `Pending`
  { row with
    status := .running
    leaseUntil := some (clk.again + seconds 300)
    startedAt := some clk.now
    attemptCount := row.attemptCount + 1 }

@[simp] theorem leaseRow_id : (leaseRow clk row).id = row.id := rfl

/-- The lease transaction shared by both dequeues.  The payload is decoded after the commit, so a
row whose payload is corrupt is leased all the same. -/
def leaseFirst (eligible : JobRow → Bool) (t : JobTable) :
    Except QueueError (Option JobRecord) × JobTable :=
  match t.selectFirst eligible dequeueOrder with
  | none => (.ok none, t)
  | some row =>
    (do
      let record ← deserializeRecord row.payload
      return some (record.withStatus .running),
     t.updateWhere (fun r => r.id = row.id) (leaseRow clk) (leaseRow_id clk))

def isReady : Bool :=
  row.status = .pending && decide (row.scheduledAt ≤ now) && matchesFilter tenant row.tenantId

def isReadyOfKind (kind : String) (tenant : Option String) (row : JobRow) : Bool :=
  isReady now tenant row && decide (row.kind = kind)

def dequeue (t : JobTable) : Except QueueError (Option JobRecord) × JobTable :=
  leaseFirst clk (isReady clk.now tenant) t

def dequeueByKind (kind : String) (tenant : Option String) (t : JobTable) :
    Except QueueError (Option JobRecord) × JobTable :=
  -- a delivery row carries state and is never executed
  if kind = jobKindMessage then (.ok none, t)
  else leaseFirst clk (isReadyOfKind clk.now kind tenant) t

/-! ## 4. Read-modify-write of one payload

Six operations read the payload of a row, patch the record and write both the payload and the
columns back, in one transaction.  They differ in the rows they select, in the answer they give when
there is none, and in the patch.
-/

/-- What a transaction decides once it has decoded the payload: to leave the row, or to write it. -/
inductive Patch (α : Type) where
  | keep (answer : Except QueueError α)
  | write (answer : Except QueueError α) (row : JobRow)

def patchRecord {α : Type} (id : Ulid) (selects : JobRow → Bool) (missing : Except QueueError α)
    (patch : JobRow → JobRecord → Patch α) (t : JobTable) : Except QueueError α × JobTable :=
  match (t.find? id).filter selects with
  | none => (missing, t)
  | some row =>
    match deserializeRecord row.payload with
    | .error e => (.error e, t)
    | .ok record =>
      match patch row record with
      | .keep answer => (answer, t)
      | .write answer row' =>
        (answer, t.updateWhere (fun r => r.id = id) (fun r => { row' with id := r.id }))

def isRunning : Bool := row.status = .running

inductive CompleteOutcome where
  | conflict
  | updated

def doneRow (result : JobResult) (row : JobRow) (record : JobRecord) : JobRow :=
  { row with
    status := .done
    completedAt := some clk.now
    leaseUntil := none
    payload := serializeRecord
      { record with
        lifecycle :=
          { record.lifecycle with
            status := .done
            completedAt := some clk.again
            result := some result } } }

def completePatch (result : JobResult) (row : JobRow) (record : JobRecord) : Patch CompleteOutcome :=
  -- a job that `mark_conflict` has ended stays ended
  if record.lifecycle.status = .conflict then .keep (.ok .conflict)
  -- the guard of the `UPDATE`, on the lease and not on who holds it
  else if columnAfter row.leaseUntil clk.now then .write (.ok .updated) (doneRow clk result row record)
  else .keep (.error (.notLeased id))

def complete (result : JobResult) : JobTable → Except QueueError CompleteOutcome × JobTable :=
  patchRecord id isRunning (.error (.notFound id)) (completePatch clk id result)

def isPendingMessage : Bool := row.kind = jobKindMessage && row.status = .pending

def completeMessageDeliveryPatch (result : JobResult) (row : JobRow) (record : JobRecord) : Patch Unit :=
  if record.spec.kind.isMessage then .write (.ok ()) (doneRow clk result row record)
  else .keep (.error (.notFound id))

/-- The acknowledgement of a message: `Pending → Done` without a lease. -/
def completeMessageDelivery (result : JobResult) : JobTable → Except QueueError Unit × JobTable :=
  patchRecord id isPendingMessage (.error (.notFound id))
    (completeMessageDeliveryPatch clk id result)

def failedRow (err : String) (attempt : UInt32) (row : JobRow) (record : JobRecord) : JobRow :=
  { row with
    status := .failed
    leaseUntil := none
    lastError := some err
    attemptCount := attempt.toNat
    payload := serializeRecord
      { record with
        lifecycle := { record.lifecycle with status := .failed }
        retry :=
          { record.retry with
            count := attempt
            lastError := some err
            errors := record.retry.errors ++
              [{ «at» := clk.again, message := err, attempt := attempt }] } } }

def failPatch (err : String) (attempt : UInt32) (row : JobRow) (record : JobRecord) : Patch Unit :=
  if columnAfter row.leaseUntil clk.now then
    .write (.ok ()) (failedRow clk (truncateChars 2048 err) attempt row record)
  else .keep (.error (.notLeased id))

def fail (err : String) (attempt : UInt32) : JobTable → Except QueueError Unit × JobTable :=
  patchRecord id isRunning (.error (.notFound id)) (failPatch clk id err attempt)

def isCancellable : Bool :=
  -- `Running` included: the worker goes on and finds its row gone when it reports
  !row.status.isTerminal && matchesFilter tenant row.tenantId

def cancelledRow (record : JobRecord) : JobRow :=
  { row with
    status := .cancelled
    completedAt := some clk.now
    leaseUntil := none
    payload := serializeRecord
      { record with
        lifecycle :=
          { record.lifecycle with
            status := .cancelled
            completedAt := some clk.now } } }

def cancel : JobTable → Except QueueError Unit × JobTable :=
  patchRecord id (isCancellable tenant) (.ok ()) fun row record =>
    .write (.ok ()) (cancelledRow clk row record)

def dlqLastError (record : JobRecord) (err : String) : String :=
  let composed := match record.retry.errors.getLast? with
    | some last => if last.message ≠ err then last.message ++ " — " ++ err else err
    | none => err
  truncateChars 2048 composed

def dlqRow (err : String) (row : JobRow) (record : JobRecord) : JobRow :=
  { row with
    status := .dlq
    completedAt := some clk.now
    leaseUntil := none
    lastError := some (dlqLastError record err)
    payload := serializeRecord
      { record with
        lifecycle :=
          { record.lifecycle with
            status := .dlq
            completedAt := some clk.again }
        retry := { record.retry with lastError := some (dlqLastError record err) } } }

def failDlq (err : String) : JobTable → Except QueueError Unit × JobTable :=
  patchRecord id (fun _ => true) (.error (.notFound id)) fun row record =>
    .write (.ok ()) (dlqRow clk err row record)

def conflictRow (resultNoteMd : String) (durationMs : UInt32) (row : JobRow)
    (record : JobRecord) : JobRow :=
  { row with
    status := .conflict
    completedAt := some clk.now
    leaseUntil := none
    lastError := some (truncateChars 256 resultNoteMd)
    -- `retry.last_error` of the payload is not written
    payload := serializeRecord
      { record with
        lifecycle :=
          { record.lifecycle with
            status := .conflict
            completedAt := some clk.again
            result := some { success := false, durationMs := durationMs, resultNote := none } } } }

def markConflict (resultNoteMd : String) (durationMs : UInt32) :
    JobTable → Except QueueError Unit × JobTable :=
  patchRecord id (fun _ => true) (.error (.notFound id)) fun row record =>
    .write (.ok ()) (conflictRow clk resultNoteMd durationMs row record)

/-! ## 5. Updates of columns alone

Each of these is a single `UPDATE`: the rows it matches, and what it sets.
-/

def readyRow : JobRow := { row with status := .pending }

@[simp] theorem readyRow_id : (readyRow row).id = row.id := rfl

def setPending (t : JobTable) : JobTable :=
  t.updateWhere (fun row => row.id = id && row.status = .waiting) readyRow readyRow_id

/-- `chrono::Duration::from_std`: `none` beyond `i64::MAX` milliseconds. -/
def chronoDuration (ttl : Nat) : Option Int :=
  if ttl ≤ (2 ^ 63 - 1) * 1000000 then some ttl else none

def isStale (threshold : Instant) (row : JobRow) : Bool :=
  row.status = .running && columnBefore row.leaseUntil threshold

def recoveredRow : JobRow :=
  { row with
    status := .pending
    leaseUntil := none
    scheduledAt := now }

@[simp] theorem recoveredRow_id : (recoveredRow now row).id = row.id := rfl

/-- `Running → Pending` for the leases that ended more than `ttl` ago, whatever the number of
attempts. -/
def recoverStaleLeases (ttl : Nat) (t : JobTable) : JobTable :=
  match chronoDuration ttl with
  | none => t
  | some d => t.updateWhere (isStale (clk.now - d)) (recoveredRow clk.again) (recoveredRow_id _)

def isExpired : Bool :=
  columnBefore row.deadline now && !row.status.isTerminal

def expiredRow : JobRow :=
  { row with
    status := .cancelled
    completedAt := some now }

@[simp] theorem expiredRow_id : (expiredRow now row).id = row.id := rfl

/-- `→ Cancelled` for every row past its deadline that is not terminal; the payload and the lease
stay as they are. -/
def cancelExpiredDeadlines (t : JobTable) : JobTable :=
  t.updateWhere (isExpired now) (expiredRow now) (expiredRow_id now)

def rescheduledRow (retryAt : Instant) (row : JobRow) : JobRow :=
  { row with
    status := .failed
    leaseUntil := none
    scheduledAt := retryAt }

@[simp] theorem rescheduledRow_id (retryAt : Instant) (row : JobRow) :
    (rescheduledRow retryAt row).id = row.id := rfl

/-- `Running → Failed` with the time of the next attempt. -/
def scheduleRetry (retryAt : Instant) (t : JobTable) : JobTable :=
  t.updateWhere (fun row => row.id = id && row.status = .running) (rescheduledRow retryAt)
    (rescheduledRow_id retryAt)

/-- The text of `datetime('now')` sorts before every RFC 3339 text of its day and after those of the
day before: it stands for the start of the day. -/
def replayedRow : JobRow :=
  { row with
    status := .pending
    leaseUntil := none
    scheduledAt := now - now % seconds 86400
    attemptCount := 0
    lastError := none }

@[simp] theorem replayedRow_id : (replayedRow now row).id = row.id := rfl

/-- The administrator's replay of a dead letter. -/
def replaySingle (t : JobTable) : JobTable :=
  t.updateWhere (fun row => row.id = id && row.status = .dlq) (replayedRow now)
    (replayedRow_id now)

def isDeletable (olderThan : Option Instant) (row : JobRow) : Bool :=
  row.status = .dlq && olderThan.all fun c => decide (row.createdAt < c)

def deleteDlqJobs (olderThan : Option Instant) (t : JobTable) : JobTable :=
  t.deleteWhere (isDeletable olderThan)

/-! ## 6. Retry promotion -/

/-- A row as the `SELECT` of `promote_retries` returned it. -/
structure RetryCandidate where
  id : Ulid
  payload : Payload
  attemptCount : Nat

def retryCandidates (t : JobTable) : List RetryCandidate :=
  (t.select fun row => row.status = .failed && decide (row.scheduledAt ≤ now)).map fun row =>
    { id := row.id, payload := row.payload, attemptCount := row.attemptCount }

def retryExhausted (c : RetryCandidate) (record : JobRecord) : Bool :=
  record.retry.max ≤ UInt32.ofNat c.attemptCount

def retryExhaustedMessage (c : RetryCandidate) (record : JobRecord) : String :=
  "max_retries atteint (" ++ toString (UInt32.ofNat c.attemptCount) ++ " / " ++
    toString record.retry.max ++ ")"

def retriedRow : JobRow :=
  { row with
    status := .pending
    scheduledAt := now }

@[simp] theorem retriedRow_id : (retriedRow now row).id = row.id := rfl

/-- One turn of the loop of `promote_retries`: a dead letter, or `Failed → Pending`. -/
def promoteRetry (c : RetryCandidate) (t : JobTable) : Except QueueError Unit × JobTable :=
  match deserializeRecord c.payload with
  | .error e => (.error e, t)
  | .ok record =>
    if retryExhausted c record then
      -- under the id of the record, and whatever has become of the row since the `SELECT`
      failDlq clk record.id (retryExhaustedMessage c record) t
    else
      (.ok (),
       t.updateWhere (fun row => row.id = c.id && row.status = .failed) (retriedRow now)
        (retriedRow_id now))

/-! ## 7. The dependency gate -/

/-- `all_jobs_done`: a count of rows against the length of the list.  The statement binds one
variable per id, of which the connection takes `variableLimit`. -/
def allJobsDone (variableLimit : Nat) (ids : List Ulid) (t : JobTable) : Except QueueError Bool :=
  if ids.isEmpty then .ok true
  else if variableLimit < ids.length then .error (.storage "too many SQL variables")
  -- an id that is listed twice is one row, so such a list is never done
  else .ok ((t.select fun row => decide (row.id ∈ ids) && decide (row.status = .done)).length =
    ids.length)

/-- The payloads `find_awaiting` selects.  The `LIKE` pattern is the quoted id, so it matches just
the JSON arrays that hold the id. -/
def awaitingPayloads (t : JobTable) : List Payload :=
  (t.select fun row => row.status = .waiting && row.awaitJobs.any fun ids => decide (id ∈ ids)).map
    (·.payload)

def findAwaiting (t : JobTable) : Except QueueError (List JobRecord) :=
  (awaitingPayloads id t).mapM deserializeRecord

def strandedPayloads (t : JobTable) : List Payload :=
  -- `await_jobs IS NOT NULL AND await_jobs != '[]'`
  (t.select fun row => row.status = .waiting && row.awaitJobs.any fun ids => !ids.isEmpty).map
    (·.payload)

/-! ## 8. Payload purge -/

def terminalPayloadKeep : Nat := 200

def purgeBatchRows : Nat := 500

def terminalRows (t : JobTable) : List JobRow := t.select fun row => row.status.isTerminal

def keptIds (t : JobTable) : List Ulid :=
  (((terminalRows t).insertionSort byIdDesc).take terminalPayloadKeep).map (·.id)

def purgeCandidates (cutoff : Option Instant) (after : Option Ulid) (t : JobTable) : List JobRow :=
  (((terminalRows t).filter fun row =>
      cutoff.all (fun c => decide (row.createdAt < c)) &&
      after.all (fun a => decide (a < row.id)) &&
      decide (row.id ∉ keptIds t)).insertionSort byIdAsc).take purgeBatchRows

def recordIsPurgeable (record : JobRecord) : Bool := !record.spec.kind.isPayloadPurged

/-- The payload of a purged row; a corrupt payload and a tombstone stay as they are. -/
def purgedPayload (payload : Payload) : Payload :=
  match deserializeRecord payload with
  | .error _ => payload
  | .ok record =>
    if recordIsPurgeable record then
      serializeRecord { record with spec := { record.spec with kind := .payloadPurged } }
    else payload

def purgedRow : JobRow := { row with payload := purgedPayload row.payload }

@[simp] theorem purgedRow_id : (purgedRow row).id = row.id := rfl

def purgeOneBatch (cutoff : Option Instant) (after : Option Ulid) (t : JobTable) : JobTable :=
  t.updateWhere (fun row => decide (row.id ∈ (purgeCandidates cutoff after t).map (·.id)))
    purgedRow purgedRow_id

end Gradatum.Queue
