import Gradatum.Access.Jobs
import Gradatum.Access.Update

/-!
# Write grants

`effective_write_vault` asks for a write scope, a grant of the tenant and, where the agent has grants at all,
one of them.  `patch_note`, `move_note_locus` and `create_job` leave the agent out.
-/

open Reasoning

namespace Gradatum.Access

open Option Bool

open Notes (VaultId NoteId IndexedVault ulidText)
open Queue (Ulid Instant)

/-! ## 1. Requests that write -/

inductive WriteRequest where
  | vaultWrite (authority : FeatureWriteAuthority) (fresh : NoteId) (req : VaultWriteRequest)
  | vaultRestore (req : VaultRestoreRequest)
  | vaultDowngrade (req : VaultDowngradeRequest)
  | patchNote (text : String) (body : NoteStatusPatch)
  | moveNoteLocus (text : String)
  | createJob (header : Option String) (body : CreateJobRequest) (fresh : Ulid) (now : Instant)

/-- The handler goes through `effective_write_vault`. -/
def WriteRequest.composed : WriteRequest → Bool
  | vaultWrite _ _ _ | vaultRestore _ | vaultDowngrade _ => true
  | patchNote _ _ | moveNoteLocus _ | createJob _ _ _ _ => false

/-- The checks of a patch that stand after the guards and before the first call of the vault or the
index. -/
def WriteApi.patchParses (api : WriteApi) (body : NoteStatusPatch) : Bool :=
  match body.status with
  | some text => (NoteStatusPatch.parseStatus text).isSome
  | none =>
    (api.parseOptional (fun _ => "invalid replaced_by (ULID expected)") body.replacedBy).toOption.isSome

def WriteApi.reaches (api : WriteApi) (poolWired : Bool) (keys : String → Option Ulid) (v : IndexedVault)
    (trust : TrustContext) : WriteRequest → Bool
  | .vaultWrite authority fresh req => (api.vaultWrite v trust authority fresh req).toOption.isSome
  | .vaultRestore req => (api.restoreChecks v trust req).toOption.isSome
  | .vaultDowngrade req => (api.downgradeChecks v trust req).toOption.isSome
  | .patchNote text body => (api.parseUlid text).any fun id =>
    (api.patchChecks v trust id).toOption.isSome && api.patchParses body
  | .moveNoteLocus text =>
    (api.parseUlid text).isSome && (api.moveChecks v trust text).toOption.isSome
  | .createJob header body fresh now =>
    ((⟨api.policy, poolWired⟩ : JobsApi).prepareJob keys ⟨trust, header, body, fresh, now⟩).toOption.isSome

/-! ## 2. What they are granted -/

namespace Policy

variable (policy : Policy)

def tenantMayWrite (tenant : VaultId) : Bool :=
  (policy.tenantGrants tenant).any fun grants => grants.any (·.writesAll tenant)

def agentMayWrite (agent : String) (vault : VaultId) : Bool :=
  (policy.agentGrants agent).any fun grants => grants.isEmpty || grants.any (·.writesAll vault)

def grantsBind (sub : String) (scopes : List String) (tenant : VaultId) : Bool :=
  hasWriteScope scopes && policy.tenantMayWrite tenant && policy.agentMayWrite sub tenant

variable {policy}

theorem grantsBind_of_effectiveWriteVault (hmode : policy.multiTenant = true)
    (h : policy.effectiveWriteVault (.bearerToken sub scopes tenant) bodyTenant = .ok vault) :
    policy.grantsBind sub scopes tenant = true := by
  have hten := effectiveWriteVault_tenantId h
  cases hten
  simp only [effectiveWriteVault, bind_eq_ok_iff, hmode, Bool.not_true, false_eq_true, if_false,
    require_eq_ok_iff, requireWriteGrant, requireSubjectWriteGrant, TrustContext.subject,
    requireAgentWriteGrant, writeScopeAllowed, Bool.false_or] at h
  obtain ⟨found, hfound, _, hscope, _, hgrant, _, hagent, -⟩ := h
  cases effectiveTenant_ok hfound
  rw [grantsBind, and_eq_true, and_eq_true]
  exact ⟨⟨hscope, hgrant⟩, hagent⟩

theorem grantsBind_iff_agentMayWrite (hscope : policy.writeScopeAllowed (.bearerToken sub scopes tenant) = true)
    (hmode : policy.multiTenant = true) (hgrant : policy.requireWriteGrant tenant tenant = .ok ()) :
    policy.grantsBind sub scopes tenant = true ↔ policy.agentMayWrite sub tenant = true := by
  rw [writeScopeAllowed, hmode, Bool.not_true, Bool.false_or] at hscope
  rw [requireWriteGrant, require_eq_ok_iff] at hgrant
  have hten : policy.tenantMayWrite tenant = true := hgrant
  rw [grantsBind, hscope, hten, Bool.and_true, Bool.true_and]

end Policy

namespace WriteApi

variable {api : WriteApi} {poolWired : Bool} {keys : String → Option Ulid} {v : IndexedVault} {sub : String}
  {scopes : List String} {tenant : VaultId} {req : WriteRequest}

section

variable (hmode : api.policy.multiTenant = true)

include hmode

theorem granted_of_tenantWriteChecks (h : api.tenantWriteChecks trust = .ok tenant) :
    api.policy.writeScopeAllowed trust = true ∧ api.policy.requireWriteGrant tenant tenant = .ok () := by
  simp only [tenantWriteChecks, bind_eq_ok_iff, hmode, if_pos, require_eq_ok_iff, orForbidden_eq_ok_iff,
    pure_eq_ok_iff] at h
  obtain ⟨_, -, found, -, _, -, _, hscope, _, hgrant, rfl⟩ := h
  exact ⟨hscope, hgrant⟩

theorem grantsBind_of_composed (hcomp : req.composed = true)
    (h : api.reaches poolWired keys v (.bearerToken sub scopes tenant) req = true) :
    api.policy.grantsBind sub scopes tenant = true := by
  cases req with
  | vaultWrite authority fresh req =>
    obtain ⟨spec, hspec⟩ := isSome_iff_exists.1 h
    obtain ⟨prepared, hacc⟩ := vaultWrite_ok (toOption_eq_some_iff.1 hspec)
    exact Policy.grantsBind_of_effectiveWriteVault hmode hacc.tenant
  | vaultRestore req =>
    obtain ⟨found, hfound⟩ := isSome_iff_exists.1 h
    have hchks := toOption_eq_some_iff.1 hfound
    simp only [restoreChecks, vaultWriteChecks, bind_eq_ok_iff, orForbidden_eq_ok_iff] at hchks
    obtain ⟨_, ⟨_, -, _, hvault, -⟩, -⟩ := hchks
    exact Policy.grantsBind_of_effectiveWriteVault hmode hvault
  | vaultDowngrade req =>
    obtain ⟨found, hfound⟩ := isSome_iff_exists.1 h
    have hchks := toOption_eq_some_iff.1 hfound
    simp only [downgradeChecks, vaultWriteChecks, bind_eq_ok_iff, orForbidden_eq_ok_iff] at hchks
    obtain ⟨_, ⟨_, -, _, hvault, -⟩, -⟩ := hchks
    exact Policy.grantsBind_of_effectiveWriteVault hmode hvault
  | patchNote | moveNoteLocus | createJob => cases hcomp

theorem granted_of_not_composed (hcomp : req.composed = false)
    (h : api.reaches poolWired keys v (.bearerToken sub scopes tenant) req = true) :
    api.policy.writeScopeAllowed (.bearerToken sub scopes tenant) = true ∧
      api.policy.requireWriteGrant tenant tenant = .ok () := by
  cases req with
  | vaultWrite | vaultRestore | vaultDowngrade => cases hcomp
  | patchNote text body =>
    rw [reaches, Option.any_eq_true] at h
    obtain ⟨id, -, h⟩ := h
    rw [and_eq_true] at h
    obtain ⟨found, hfound⟩ := isSome_iff_exists.1 h.1
    have hchks := toOption_eq_some_iff.1 hfound
    cases (patchChecks_ok hchks).1
    simp only [patchChecks, bind_eq_ok_iff, pure_eq_ok_iff] at hchks
    obtain ⟨_, hchks, _, -, rfl⟩ := hchks
    exact granted_of_tenantWriteChecks hmode hchks
  | moveNoteLocus text =>
    rw [reaches, and_eq_true] at h
    obtain ⟨found, hfound⟩ := isSome_iff_exists.1 h.2
    have hchks := toOption_eq_some_iff.1 hfound
    cases (moveChecks_ok hchks).1
    simp only [moveChecks, bind_eq_ok_iff, pure_eq_ok_iff] at hchks
    obtain ⟨_, hchks, _, -, rfl⟩ := hchks
    exact granted_of_tenantWriteChecks hmode hchks
  | createJob header body fresh now =>
    obtain ⟨⟨found, key, record⟩, hfound⟩ := isSome_iff_exists.1 h
    obtain ⟨hchks, -⟩ := prepareJob_ok (toOption_eq_some_iff.1 hfound)
    obtain ⟨hscope, hcall, hgrant⟩ := createJobTenant_ok hmode hchks
    cases hcall
    exact ⟨hscope, hgrant⟩

end

/-- A request that writes has all the grants just when its handler composes them or its agent is not
restricted. -/
theorem grantsBind_iff_composed_or_agentMayWrite (hmode : api.policy.multiTenant = true)
    (h : api.reaches poolWired keys v (.bearerToken sub scopes tenant) req = true) :
    api.policy.grantsBind sub scopes tenant = true ↔
      req.composed = true ∨ api.policy.agentMayWrite sub tenant = true := by
  cases hcomp : req.composed with
  | true =>
    rw [grantsBind_of_composed hmode hcomp h]
    exact ⟨fun _ => .inl rfl, fun _ => rfl⟩
  | false =>
    obtain ⟨hscope, hgrant⟩ := granted_of_not_composed hmode hcomp h
    rw [Policy.grantsBind_iff_agentMayWrite hscope hmode hgrant]
    exact ⟨.inr, fun h => h.resolve_left Bool.false_ne_true⟩

end WriteApi

/-! ## 3. An agent without grants -/

def restrictedApi : WriteApi :=
  { plainWriteApi with
    policy := { plainPolicy with agentGrants := fun _ => some [⟨"other", .write, none⟩] } }

def patchRequest : WriteRequest := .patchNote (ulidText 1) { statusReason := some "done" }

theorem grantsBind_patchRequest : plainWriteApi.policy.grantsBind "scribe" ["write"] "main" = true ↔
      patchRequest.composed = true ∨ plainWriteApi.policy.agentMayWrite "scribe" "main" = true := by
  have hreaches : plainWriteApi.reaches true (fun _ => none) .empty (bearerOf "main") patchRequest = true := by
    decide +kernel
  exact WriteApi.grantsBind_iff_composed_or_agentMayWrite rfl hreaches

theorem patchRequest_reaches_without_grant :
    restrictedApi.reaches true (fun _ => none) .empty (bearerOf "main") patchRequest = true ∧
      restrictedApi.policy.grantsBind "scribe" ["write"] "main" = false := by
  decide +kernel

end Gradatum.Access
