import Gradatum.Reasoning.Checks
import Gradatum.Notes.Store

/-!
# Who may do what

The context a request is made in, the allow-lists of tenants and agents, and the guards that handlers
share.
-/

open Reasoning

namespace Gradatum.Access

open Notes (VaultId NoteId Section)

/-! ## 1. The context of a request -/

inductive TrustContext where
  | unauthenticated
  /-- The subject is the agent that bears the token. -/
  | bearerToken (sub : String) (scopes : List String) (tenantId : VaultId)
  | mtls (cn : String)
  | studio (user : String)
  deriving DecidableEq

namespace TrustContext

def isAuthenticated : TrustContext → Bool
  | unauthenticated => false
  | _ => true

def hasScope (scope : String) : TrustContext → Bool
  | bearerToken _ scopes _ => scopes.contains scope
  | _ => false

def tenantId : TrustContext → Option VaultId
  | bearerToken _ _ tenant => some tenant
  | _ => none

def subject : TrustContext → Option String
  | bearerToken sub _ _ => some sub
  | _ => none

def isStudio : TrustContext → Bool
  | studio _ => true
  | _ => false

end TrustContext

def writeScopes : List String := ["write", "admin", "service"]

def hasWriteScope (scopes : List String) : Bool := scopes.any writeScopes.contains

def identityWriteScope : String := "identity_write"

/-! ## 2. Grants -/

inductive GrantAccess where
  | read
  | write
  deriving DecidableEq

def GrantAccess.allowsWrite : GrantAccess → Bool
  | write => true
  | read => false

structure VaultGrant where
  vaultId : VaultId
  access : GrantAccess
  /-- `none` is the whole vault. -/
  «section» : Option String
  deriving DecidableEq

def VaultGrant.coversSection (grant : VaultGrant) (requested : Option String) : Bool :=
  match grant.section, requested with
  | none, _ => true
  | some granted, some requested => granted = requested
  | some _, none => false

def VaultGrant.writesAll (grant : VaultGrant) (vault : VaultId) : Bool :=
  grant.vaultId = vault && grant.access.allowsWrite && grant.coversSection none

inductive AclOp where
  | read
  | write
  deriving DecidableEq

/-- What the guards consult.  `none` is a lookup that fails. -/
structure Policy where
  multiTenant : Bool
  /-- The policy file: the decision on a locus. -/
  acl : TrustContext → AclOp → String → Bool
  tenantGrants : VaultId → Option (List VaultGrant)
  agentGrants : String → Option (List VaultGrant)

inductive ApiError where
  | unauthorized
  | forbidden (message : String)
  | invalidInput (message : String)
  | conflict (message : String)
  | noteNotFound (id : NoteId)
  | vaultNotFound (vault : VaultId)
  | storage (message : String)
  deriving DecidableEq

/-! ## 3. The tenant of a request -/

inductive TenantGuardRefusal where
  /-- The call site gives the message. -/
  | legacy
  | missingWriteGrant (holder : String) (vault : VaultId)
  | missingWriteScope
  deriving DecidableEq

def TenantGuardRefusal.intoForbidden (refusal : TenantGuardRefusal) (legacyMessage : String) :
    ApiError :=
  match refusal with
  | legacy => .forbidden legacyMessage
  | missingWriteGrant holder vault =>
    .forbidden s!"no write grant for tenant '{holder}' on vault '{vault}'"
  | missingWriteScope => .forbidden "write scope required (read-only token)"

/-- The tenant is the one of the token; a tenant in the body must agree with it. -/
def effectiveTenant (trust : TrustContext) (bodyTenant : Option VaultId) :
    Except TenantGuardRefusal VaultId :=
  match trust.tenantId with
  | none => .error .legacy
  | some tenant => if bodyTenant.any (· ≠ tenant) then .error .legacy else .ok tenant

namespace Policy

variable (policy : Policy)

def writeScopeAllowed (trust : TrustContext) : Bool :=
  !policy.multiTenant ||
    match trust with
    | .bearerToken _ scopes _ => hasWriteScope scopes
    | _ => true

def requireWriteGrant (tenant vault : VaultId) : Except TenantGuardRefusal Unit :=
  require ((policy.tenantGrants tenant).any fun grants => grants.any (·.writesAll vault))
    (.missingWriteGrant tenant vault)

def requireAgentWriteGrant (agent : String) (vault : VaultId) : Except TenantGuardRefusal Unit :=
  require ((policy.agentGrants agent).any fun grants =>
    grants.isEmpty || grants.any (·.writesAll vault)) (.missingWriteGrant agent vault)

def requireSubjectWriteGrant (trust : TrustContext) (vault : VaultId) :
    Except TenantGuardRefusal Unit :=
  match trust.subject with
  | some agent => policy.requireAgentWriteGrant agent vault
  | none => .ok ()

def effectiveWriteVault (trust : TrustContext) (bodyTenant : Option VaultId) :
    Except TenantGuardRefusal VaultId := do
  let tenant ← effectiveTenant trust bodyTenant
  if !policy.multiTenant then
    return tenant
  require (policy.writeScopeAllowed trust) .missingWriteScope
  policy.requireWriteGrant tenant tenant
  policy.requireSubjectWriteGrant trust tenant
  return tenant

end Policy

def orForbidden {α : Type} (legacyMessage : String) :
    Except TenantGuardRefusal α → Except ApiError α
  | .ok a => .ok a
  | .error refusal => .error (refusal.intoForbidden legacyMessage)

@[simp] theorem orForbidden_eq_ok_iff : orForbidden message x = .ok a ↔ x = .ok a := by
  cases x with
  | ok | error => simp [orForbidden]

theorem effectiveTenant_ok (h : effectiveTenant trust bodyTenant = .ok tenant) :
    trust.tenantId = some tenant := by
  unfold effectiveTenant at h
  cases hjwt : trust.tenantId with
  | none =>
    rw [hjwt] at h
    cases h
  | some jwt =>
    rw [hjwt] at h
    dsimp only at h
    split at h
    · cases h
    · cases h
      rfl

theorem effectiveWriteVault_tenantId {policy : Policy}
    (h : policy.effectiveWriteVault trust bodyTenant = .ok vault) : trust.tenantId = some vault := by
  rw [Policy.effectiveWriteVault, bind_eq_ok_iff] at h
  obtain ⟨tenant, hten, h⟩ := h
  suffices heq : tenant = vault by
    rw [← heq]
    exact effectiveTenant_ok hten
  split at h
  · exact pure_eq_ok_iff.1 h
  · simp only [bind_eq_ok_iff, pure_eq_ok_iff] at h
    obtain ⟨-, -, -, -, -, -, heq⟩ := h
    exact heq

/-! ## 4. Souls -/

def targetAgent (title : Option String) : String :=
  (title.bind fun t =>
    if "identity/".toList.isPrefixOf t.toList then some (String.ofList (t.toList.drop 9))
    else none).getD ""

def identityAllowed (trust : TrustContext) (sec : String) (title : Option String) : Bool :=
  sec ≠ Section.identity.asStr || trust.isStudio || trust.hasScope identityWriteScope ||
    (targetAgent title ≠ "" && trust.subject.getD "" = targetAgent title)

def enforceIdentityReadGuard (trust : TrustContext) (sec : String) (title : Option String) :
    Except ApiError Unit :=
  require (identityAllowed trust sec title)
    (.forbidden "identity: read restricted to the soul's owner")

def enforceIdentityWriteGuard (trust : TrustContext) (sec : String) (title : Option String) :
    Except ApiError Unit :=
  require (identityAllowed trust sec title)
    (.forbidden "identity: write restricted to the soul's owner")

def ForeignSoul (caller : String) (sec : String) (title : Option String) : Prop :=
  sec = Section.identity.asStr ∧ targetAgent title ≠ "" ∧ targetAgent title ≠ caller

instance (caller sec : String) (title : Option String) : Decidable (ForeignSoul caller sec title) :=
  inferInstanceAs (Decidable (_ ∧ _))

theorem owner_of_identityAllowed (hscope : identityWriteScope ∉ scopes)
    (hsec : sec = Section.identity.asStr)
    (h : identityAllowed (.bearerToken sub scopes tenant) sec title = true) :
    targetAgent title ≠ "" ∧ sub = targetAgent title := by
  simp only [identityAllowed, hsec, TrustContext.isStudio, TrustContext.hasScope,
    TrustContext.subject, Option.getD_some, Bool.or_eq_true, Bool.and_eq_true, decide_eq_true_eq,
    List.contains_iff_mem, ne_eq, not_true, hscope, Bool.false_eq_true, false_or] at h
  exact ⟨h.1, of_decide_eq_true h.2⟩

theorem not_foreignSoul_of_identityAllowed (hscope : identityWriteScope ∉ scopes)
    (h : identityAllowed (.bearerToken sub scopes tenant) sec title = true) :
    ¬ ForeignSoul sub sec title := by
  intro ⟨hsec, _, hother⟩
  exact hother (owner_of_identityAllowed hscope hsec h).2.symm

def plainPolicy : Policy where
  multiTenant := true
  acl := fun _ _ _ => true
  tenantGrants := fun tenant => some [⟨tenant, .write, none⟩]
  agentGrants := fun _ => some []

def bearerOf (tenant : VaultId) : TrustContext := .bearerToken "scribe" ["write"] tenant

end Gradatum.Access
