import Mathlib.Data.List.Basic

/-!
# Jobs

The job record of `gradatum-core`.  Of the specs behind a `Job` variant only what the queue reads is kept,
which is where the tenant of a job comes from.
-/

namespace Gradatum.Queue

/-- A ULID by its 128-bit value; the fixed-width text the store keeps sorts in the same order. -/
abbrev Ulid := Nat

/-- A UTC instant, in nanoseconds since the epoch. -/
abbrev Instant := Int

def seconds (n : Int) : Int := n * 1000000000

/-! ## 1. What a job does -/

inductive JobScope where
  | vaultWide
  | locus (path : String)
  | «section» (name : String)
  | notes (ids : List Ulid)
  | session (id : Ulid)
  | vault (name : String)

inductive ForgetScope where
  | topic (query : String) (vault : Option String) (limit : Option Nat)
  | locus (vault : String) (path : String)
  | agent (agentId : String) (vaults : List String)

inductive Job where
  | agent
  | pipeline
  | collect
  | distill (scope : JobScope)
  | backup
  | purge
  | reIndex
  | summarize
  | validate (tenantId : String)
  | audit
  | consolidate
  | curate (tenantId : String)
  | forget (scope : ForgetScope)
  | review
  | classify
  | merge
  | annotate
  | migrate (target : JobScope)
  | «export» (scope : JobScope)
  | notify
  | ingest (vault : String)
  | embed (tenantId : String)
  | message (messageId : Ulid) (recipient : String)
  | payloadPurged
  | privacyRescan (vaultId : String) (limit : Nat)

def jobKindMessage : String := "Message"

def jobKindPrivacyRescan : String := "PrivacyRescan"

/-- The value of the `kind` column. -/
def jobKindStr : Job → String
  | .agent => "Agent"
  | .pipeline => "Pipeline"
  | .collect => "Collect"
  | .distill _ => "Distill"
  | .backup => "Backup"
  | .purge => "Purge"
  | .reIndex => "ReIndex"
  | .summarize => "Summarize"
  | .validate _ => "Validate"
  | .audit => "Audit"
  | .consolidate => "Consolidate"
  | .curate _ => "Curate"
  | .forget _ => "Forget"
  | .review => "Review"
  | .classify => "Classify"
  | .merge => "Merge"
  | .annotate => "Annotate"
  | .migrate _ => "Migrate"
  | .export _ => "Export"
  | .notify => "Notify"
  | .ingest _ => "Ingest"
  | .embed _ => "Embed"
  | .message _ _ => jobKindMessage
  | .payloadPurged => "PayloadPurged"
  | .privacyRescan _ _ => jobKindPrivacyRescan

def Job.isMessage : Job → Bool
  | .message _ _ => true
  | _ => false

def Job.isPayloadPurged : Job → Bool
  | .payloadPurged => true
  | _ => false

inductive JobClass where
  | system
  | agent
  | human
  | api
  deriving DecidableEq

inductive JobPriority where
  | high
  | normal
  | low
  | deferred
  deriving DecidableEq

def JobPriority.asU8 : JobPriority → Nat
  | .high => 3
  | .normal => 2
  | .low => 1
  | .deferred => 0

structure JobSpec where
  kind : Job
  jobClass : JobClass
  scope : JobScope
  priority : JobPriority

def jobScopeVault : JobScope → Option String
  | .vault v => some v
  | _ => none

def forgetScopeVault : ForgetScope → Option String
  | .topic _ vault _ => vault
  | .locus vault _ => some vault
  | .agent _ [only] => some only
  | .agent _ _ => none

def specTenant (spec : JobSpec) : String :=
  let jobVault := (jobScopeVault spec.scope).getD "main"
  match spec.kind with
  | .curate tenantId => tenantId
  | .ingest vault => vault
  | .embed tenantId => tenantId
  | .validate tenantId => tenantId
  | .distill scope => (jobScopeVault scope).getD jobVault
  | .forget scope => (forgetScopeVault scope).getD jobVault
  | .export scope => (jobScopeVault scope).getD jobVault
  | .migrate target => (jobScopeVault target).getD jobVault
  | .privacyRescan vaultId _ => vaultId
  | _ => jobVault

/-! ## 2. When it runs -/

inductive TriggerCondition where
  | onDone
  | onAnyTerminal
  | onFailed
  deriving DecidableEq

structure JobTrigger where
  jobId : Ulid
  condition : TriggerCondition

structure JobScheduling where
  scheduledAt : Instant
  awaitJobs : List JobTrigger
  deadline : Option Instant

def JobScheduling.awaitIds (s : JobScheduling) : List Ulid := s.awaitJobs.map (·.jobId)

/-! ## 3. Where it stands -/

inductive JobStatus where
  | pending
  | running
  | waiting
  | done
  | failed
  | dlq
  | cancelled
  | conflict
  deriving DecidableEq

def JobStatus.isTerminal : JobStatus → Bool
  | .done | .dlq | .cancelled | .conflict => true
  | .pending | .running | .waiting | .failed => false

structure JobResult where
  success : Bool
  durationMs : UInt32
  resultNote : Option Ulid

structure JobLifecycle where
  status : JobStatus
  createdAt : Instant
  completedAt : Option Instant
  result : Option JobResult

/-! ## 4. How it is retried -/

structure JobError where
  «at» : Instant
  message : String
  attempt : UInt32

structure JobRetry where
  count : UInt32
  max : UInt32
  lastError : Option String
  errors : List JobError

structure JobRecord where
  id : Ulid
  spec : JobSpec
  scheduling : JobScheduling
  lifecycle : JobLifecycle
  retry : JobRetry

def JobRecord.withStatus (record : JobRecord) (status : JobStatus) : JobRecord :=
  { record with lifecycle := { record.lifecycle with status := status } }

inductive QueueError where
  | storage (msg : String)
  | notFound (id : Ulid)
  | serialization (msg : String)
  | notLeased (id : Ulid)

end Gradatum.Queue
