import Gradatum.Access.Guard
import Gradatum.Queue.Store

/-!
# Creating jobs

`POST /api/v1/jobs` answers a known `Idempotency-Key` with the job it was used for.  The lookup of the key,
the enqueue and the insertion of the key are three calls of the store, and the keys know no tenants.
-/

open Reasoning

namespace Gradatum.Access

open Notes (VaultId)
open Queue (Ulid Instant Job JobRecord jobKindStr specTenant)

/-! ## 1. Requests and replies -/

inductive HttpStatus where
  | badRequest
  | unauthorized
  | forbidden
  | internalServerError
  | notImplemented
  deriving DecidableEq

structure CreateJobRequest where
  /-- `spec.kind`: absent, or refused by the deserializer with its message, or a job. -/
  kind : Option (Except String Job)

inductive JobSpecError where
  | invalid (message : String)
  | unsupported (kind : String)
  deriving DecidableEq

def JobSpecError.message : JobSpecError → String
  | invalid message => s!"invalid spec: {message}"
  | unsupported kind =>
    "kind `" ++ kind ++ "` not triggerable via the API (worker handler absent or stub) — " ++
      "supported kinds: Curate, Distill, Purge, Embed, Forget"

/-- A call, with the ULID and the time that it takes from outside. -/
structure JobCall where
  trust : TrustContext
  /-- The `Idempotency-Key`, if it is there and is text. -/
  header : Option String
  body : CreateJobRequest
  fresh : Ulid
  now : Instant

inductive JobReply where
  /-- 202 with `idempotent: false`. -/
  | accepted (id : Ulid)
  /-- 200 with `idempotent: true`. -/
  | known (id : Ulid)
  | rejected (e : JobSpecError)
  | failed (status : HttpStatus)

def jobKindIsTriggerable : Job → Bool
  | .curate _ | .distill _ | .purge | .embed _ | .forget _ => true
  | _ => false

def forgetAgentVaults : Job → List VaultId
  | .forget (.agent _ vaults) => vaults
  | _ => []

def buildJobRecordFromSpec (fresh : Ulid) (now : Instant) (body : CreateJobRequest) (tenant : VaultId) :
    Except JobSpecError JobRecord := do
  let parsed ← present body.kind (.invalid "`spec.kind` field absent")
  let kind ← parsed.mapError fun e => .invalid ("`spec.kind` invalid or required field missing: " ++ e)
  require (jobKindIsTriggerable kind) (.unsupported (jobKindStr kind))
  require ((forgetAgentVaults kind).length ≤ 1) (.invalid
    ("`ForgetScope::Agent` targets " ++ toString (forgetAgentVaults kind).length ++ " vaults — a job " ++
      "targets exactly one vault. Post one job per vault (fan-out belongs to the enqueue site)."))
  return {
    id := fresh
    spec := { kind := kind, jobClass := .api, scope := .vault tenant, priority := .normal }
    scheduling := { scheduledAt := now, awaitJobs := [], deadline := none }
    lifecycle := { status := .pending, createdAt := now, completedAt := none, result := none }
    retry := { count := 0, max := 3, lastError := none, errors := [] } }

/-! ## 2. The checks -/

def jobsLocus : String := "main/jobs"

def orStatus {α : Type} : Except TenantGuardRefusal α → Except HttpStatus α :=
  Except.mapError fun _ => .forbidden

/-- The tenant that a job is created for.  The grants of the agent are not asked for. -/
def Policy.createJobTenant (policy : Policy) (trust : TrustContext) : Except HttpStatus VaultId := do
  require trust.isAuthenticated .unauthorized
  require (policy.acl trust .write jobsLocus) .forbidden
  if policy.multiTenant then
    require (policy.writeScopeAllowed trust) .forbidden
    let tenant ← present trust.tenantId .forbidden
    orStatus (policy.requireWriteGrant tenant tenant)
    return tenant
  else return "main"

def maxKeyBytes : Nat := 256

def idempotencyKey (header : Option String) : Except HttpStatus String := do
  let key ← present header .badRequest
  require (key ≠ "" && key.utf8ByteSize ≤ maxKeyBytes) .badRequest
  return key

def Policy.refuseForgedTenant (policy : Policy) (trust : TrustContext) (record : JobRecord) :
    Except HttpStatus Unit :=
  if policy.multiTenant then (orStatus (effectiveTenant trust (some (specTenant record.spec)))).map fun _ => ()
  else .ok ()

/-- What the handler of the jobs reads of `AppState`. -/
structure JobsApi where
  policy : Policy
  poolWired : Bool

def lookupKey (keys : String → Option Ulid) (key : String) : Except JobReply Unit :=
  match keys key with
  | some id => .error (.known id)
  | none => .ok ()

def JobsApi.prepareJob (api : JobsApi) (keys : String → Option Ulid) (call : JobCall) :
    Except JobReply (VaultId × String × JobRecord) := do
  let tenant ← (api.policy.createJobTenant call.trust).mapError .failed
  let key ← (idempotencyKey call.header).mapError .failed
  require api.poolWired (.failed .notImplemented)
  -- before the body is looked at
  lookupKey keys key
  let record ← (buildJobRecordFromSpec call.fresh call.now call.body tenant).mapError .rejected
  (api.policy.refuseForgedTenant call.trust record).mapError .failed
  return (tenant, key, record)

theorem createJobTenant_ok {policy : Policy} (hmode : policy.multiTenant = true)
    (h : policy.createJobTenant trust = .ok tenant) :
    policy.writeScopeAllowed trust = true ∧ trust.tenantId = some tenant ∧
      policy.requireWriteGrant tenant tenant = .ok () := by
  simp only [Policy.createJobTenant, bind_eq_ok_iff, require_eq_ok_iff, hmode, if_pos, present_eq_ok_iff,
    orStatus, mapError_eq_ok_iff, pure_eq_ok_iff] at h
  obtain ⟨_, -, _, -, _, hscope, found, hfound, _, hgrant, rfl⟩ := h
  exact ⟨hscope, hfound, hgrant⟩

theorem lookupKey_ok_iff : lookupKey keys key = .ok () ↔ keys key = none := by
  unfold lookupKey
  cases keys key <;> simp

theorem prepareJob_ok {api : JobsApi}
    (h : api.prepareJob keys call = .ok (tenant, key, record)) :
    api.policy.createJobTenant call.trust = .ok tenant ∧ idempotencyKey call.header = .ok key ∧
      keys key = none ∧ buildJobRecordFromSpec call.fresh call.now call.body tenant = .ok record := by
  simp only [JobsApi.prepareJob, bind_eq_ok_iff, mapError_eq_ok_iff, pure_eq_ok_iff] at h
  obtain ⟨tenant', hten, key', hkey, _, -, _, hlook, record', hrec, _, -, heq⟩ := h
  cases heq
  exact ⟨hten, hkey, lookupKey_ok_iff.1 hlook, hrec⟩

end Gradatum.Access
