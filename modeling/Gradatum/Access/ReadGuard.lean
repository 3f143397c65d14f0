import Gradatum.Access.Versions

/-!
# Which notes a caller may see

The guards of the handlers that read more than one note: which vault a request may read, and which of
its notes are withheld because of the tags or the section that the index holds for them.
-/

open Reasoning

namespace Gradatum.Access

open Notes

/-! ## 1. Tags -/

/-- `current` is the token read so far, backwards. -/
def tokensFrom (current : List Char) : List Char → List (List Char)
  | [] => if current = [] then [] else [current.reverse]
  | c :: rest =>
    if isWhiteSpace c then
      if current = [] then tokensFrom [] rest else current.reverse :: tokensFrom [] rest
    else tokensFrom (c :: current) rest

def splitWhitespace (text : String) : List String := (tokensFrom [] text.toList).map String.ofList

/-- The `tags` column holds the tag as a whole token. -/
def carriesTag (tag : String) (tagsRaw : Option String) : Bool :=
  tagsRaw.any fun raw => (splitWhitespace raw).contains tag

/-- `PrivacyReadGuard` withholds a note of the vault with this `tags` column. -/
def Policy.hidesTags (policy : Policy) (trust : TrustContext) (vault : VaultId)
    (tagsRaw : Option String) : Bool :=
  !policy.allowsClassified trust vault && carriesTag classifiedTag tagsRaw

def isIdentityPrivileged (trust : TrustContext) : Bool :=
  trust.isStudio || trust.hasScope identityWriteScope

/-- A note without a section is withheld as well. -/
def identitySectionHidden (privileged : Bool) (sec : String) : Bool :=
  !privileged && (sec = Section.identity.asStr || sec = "")

/-! ## 2. Vaults -/

structure ReadPolicy extends Policy where
  /-- `get_tenant_status` answers that the tenant is active. -/
  activeTarget : VaultId → Bool

def VaultGrant.covers (grant : VaultGrant) (vault : VaultId) (sec : Option String) : Bool :=
  grant.vaultId = vault && grant.coversSection sec

namespace ReadPolicy

variable (policy : ReadPolicy)

def requireReadGrant (tenant vault : VaultId) (sec : Option String) : Except ApiError Unit :=
  require ((policy.tenantGrants tenant).any fun grants => grants.any (·.covers vault sec))
    (.forbidden s!"no read grant for tenant '{tenant}' on vault '{vault}'")

def requireAgentReadGrant (agent : String) (vault : VaultId) (sec : Option String) :
    Except ApiError Unit :=
  let scope := match sec with
    | none => "vault-wide"
    | some name => s!"section '{name}'"
  require ((policy.agentGrants agent).any fun grants =>
      grants.isEmpty || grants.any (·.covers vault sec))
    (.forbidden s!"no read grant for agent '{agent}' on vault '{vault}' ({scope})")

def requireSubjectReadGrant (trust : TrustContext) (vault : VaultId) : Except ApiError Unit :=
  match trust.subject with
  | some agent => policy.requireAgentReadGrant agent vault none
  | none => .ok ()

def requireActiveTarget (vault : VaultId) : Except ApiError Unit :=
  require (policy.activeTarget vault) (.forbidden s!"vault '{vault}' is not active")

def readTarget (tenant : VaultId) : Option VaultId → Except ApiError VaultId
  | none => .ok tenant
  | some text =>
    match VaultId.parse text with
    | .ok vault => .ok vault
    | .error message =>
      let shown := message.quote
      .error (.invalidInput s!"invalid vault_id: invalid vault_id: {shown}")

def effectiveReadVault (trust : TrustContext) (tenant : VaultId) (reqVault : Option VaultId)
    (locusSection : Option String) (denyMessage : String) : Except ApiError VaultId := do
  let target ← readTarget tenant reqVault
  require (policy.acl trust .read (locusForSection target locusSection)) (.forbidden denyMessage)
  policy.requireReadGrant tenant target none
  policy.requireSubjectReadGrant trust target
  policy.requireActiveTarget target
  return target

end ReadPolicy

def guardedPolicy : ReadPolicy where
  toPolicy := { plainPolicy with acl := fun _ _ locus => locus ≠ "main/personal-classified" }
  activeTarget := fun _ => true

end Gradatum.Access
