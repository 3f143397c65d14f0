import Mathlib.Data.List.Dedup
import Gradatum.Queue.Job
import Gradatum.Access.Guard
import Gradatum.Notes.ForgetJob
import Gradatum.Notes.Query

/-!
# The preview of a forget request

`vault_forget` resolves a scope to candidates and sets the protected ones aside.  The guard compares the
vaults that a scope names with that of the caller; each kind of scope has its own default.
-/

open Reasoning

namespace Gradatum.Access

open Notes List
open Queue (ForgetScope)

/-! ## 1. The handler -/

def maxForgottenByLen : Nat := 512

structure VaultForgetRequest where
  scope : ForgetScope
  dryRun : Bool
  forgottenBy : Option String
  confirmUlids : List String
  tenantId : Option VaultId

structure ExcludedNote where
  ulid : NoteId
  «section» : String
  reason : String

structure ForgetPreview where
  ulids : List NoteId
  count : Nat
  excluded : List ExcludedNote
  dryRun : Bool

/-- What the job that is enqueued gets of the request. -/
structure ForgetJobRecord where
  scope : ForgetScope
  confirmUlids : List String
  forgottenBy : Option String
  vault : VaultId

inductive ForgetReply where
  | previewed (preview : ForgetPreview)
  | queued (job : ForgetJobRecord) (preview : ForgetPreview)

def ForgetReply.preview : ForgetReply → ForgetPreview
  | .previewed preview => preview
  | .queued _ preview => preview

def crossVaultViolation (scope : ForgetScope) (tenant : VaultId) : Option VaultId :=
  match scope with
  | .locus vault _ => if vault ≠ tenant then some vault else none
  | .topic _ (some vault) _ => if vault ≠ tenant then some vault else none
  | .agent _ vaults => vaults.find? (· ≠ tenant)
  | .topic _ none _ => none

def multiVaultAgentScope : ForgetScope → Option Nat
  | .agent _ vaults => if 1 < vaults.length then some vaults.length else none
  | _ => none

def multiVaultAgentError (count : Nat) : String :=
  s!"`ForgetScope::Agent` targets {count} vaults — a job targets exactly one vault. " ++
    "Post one job per vault (fan-out belongs to the enqueue site). Repeated vaults count."

section Resolve

variable {s : VaultState} (index : Answers s)

def listNotesByAgent (agentId : String) (vaults : List VaultId) : List NoteId :=
  let effective := if vaults = [] then ["main"] else vaults
  (effective.take 20).dedup.flatMap fun vault =>
    index.select vault fun row => row.author.any (·.id = agentId) && !row.forgotten

def searchFtsForForget (ftsMatches : String → NoteRow → Bool) (vault : VaultId) (query : String)
    (limit : Nat) : Except ApiError (List NoteId) :=
  if 512 < query.utf8ByteSize then .error (.storage "scope resolution failed")
  else if trim query.toList = [] then .ok []
  else .ok ((index.select vault fun row => ftsMatches query row && !row.forgotten).take
    (min limit 200))

/-- The section that comes with each candidate is not read. -/
def resolveScope (ftsMatches : String → NoteRow → Bool) (tenant : VaultId) :
    ForgetScope → Except ApiError (List NoteId)
  | .topic query vault limit =>
    searchFtsForForget index ftsMatches (vault.getD tenant) query (min (limit.getD 50) 200)
  | .locus vault path =>
    .ok (index.select vault fun row => row.locus.any (likeStart path) && !row.forgotten)
  | .agent agentId vaults => .ok (listNotesByAgent index agentId vaults)

end Resolve

def partitionCandidate (s : VaultState) (vault : VaultId) (privileged : Bool) (ulid : NoteId) :
    NoteId ⊕ ExcludedNote :=
  match s.notes ⟨vault, ulid⟩ with
  | none => .inr ⟨ulid, "", "protected: note not resolvable (fail-closed)"⟩
  | some row =>
    let sec := row.section.asStr
    let title := row.title.getD ""
    if Section.isForgetProtected sec title then .inr ⟨ulid, sec, s!"protected section: {sec}"⟩
    else if Section.identityPersonCarveout title && !privileged then
      .inr ⟨ulid, sec, "protected: identity/person/* forget requires the identity_write scope"⟩
    else .inl ulid

def partitionCandidates (s : VaultState) (vault : VaultId) (privileged : Bool)
    (candidates : List NoteId) : List NoteId × List ExcludedNote :=
  let parts := candidates.map (partitionCandidate s vault privileged)
  (parts.filterMap Sum.getLeft?, parts.filterMap Sum.getRight?)

def buildForgetJobRecord (req : VaultForgetRequest) (vault : VaultId) : ForgetJobRecord where
  scope := match req.scope with
    | .topic query none limit => .topic query (some vault) limit
    | scope => scope
  confirmUlids := req.confirmUlids
  forgottenBy := req.forgottenBy
  vault := vault

def vaultForget (policy : Policy) (ftsMatches : String → NoteRow → Bool) (trust : TrustContext)
    (req : VaultForgetRequest) {s : VaultState} (index : Answers s) : Except ApiError ForgetReply := do
  require trust.isAuthenticated .unauthorized
  let vault ← orForbidden "JWT tenant diverges from body"
    (policy.effectiveWriteVault trust req.tenantId)
  require (policy.acl trust .write s!"{vault}/main") (.forbidden "ACL Write denied")
  let foreign := (crossVaultViolation req.scope vault).getD ""
  require (crossVaultViolation req.scope vault).isNone
    (.forbidden (s!"cross-vault forget not supported in v0.4.x: scope.vault='{foreign}' ≠ " ++
      s!"tenant_id='{vault}'. Planned for v0.5.1."))
  require (multiVaultAgentScope req.scope).isNone
    (.invalidInput (multiVaultAgentError ((multiVaultAgentScope req.scope).getD 0)))
  let length := (req.forgottenBy.getD "").utf8ByteSize
  require (length ≤ maxForgottenByLen)
    (.invalidInput s!"forgotten_by exceeds bound: maximum {maxForgottenByLen} bytes, received {length}")
  let confirmed := req.confirmUlids.length
  require (confirmed ≤ 200)
    (.invalidInput s!"confirm_ulids exceeds bound: maximum 200, received {confirmed}")
  let candidates ← resolveScope index ftsMatches vault req.scope
  let (eligible, excluded) :=
    partitionCandidates s vault (trust.hasScope identityWriteScope) candidates
  let expected := eligible.length
  let preview : ForgetPreview := ⟨eligible, expected, excluded, req.dryRun⟩
  if req.dryRun then
    return .previewed preview
  require ((eligible.map ulidText).isPerm req.confirmUlids)
    (.invalidInput s!"confirm_ulids mismatch: expected {expected}, got {confirmed}")
  return .queued (buildForgetJobRecord req vault) preview

/-! ## 2. Where the candidates come from -/

def PreviewStays (vault : VaultId) (s : VaultState) (preview : ForgetPreview) : Prop :=
  ∀ id, id ∈ preview.ulids ∨ id ∈ preview.excluded.map (·.ulid) → (s.notes ⟨vault, id⟩).isSome

/-- If the scope is an agent without a vault, what this agent wrote in `main` has its id in the vault,
too. -/
def AgentStays (vault : VaultId) (s : VaultState) (scope : ForgetScope) : Prop :=
  ∀ agentId, scope = .agent agentId [] → ∀ id row, s.notes ⟨"main", id⟩ = some row →
    row.author.any (·.id = agentId) = true → row.forgotten = false → (s.notes ⟨vault, id⟩).isSome

section Proofs

variable {s : VaultState} {vault : VaultId}

theorem partitionCandidate_cases (s : VaultState) (vault : VaultId) (privileged : Bool) (ulid : NoteId) :
    partitionCandidate s vault privileged ulid = .inl ulid ∨
      ∃ note, partitionCandidate s vault privileged ulid = .inr note ∧ note.ulid = ulid := by
  unfold partitionCandidate
  split
  · exact .inr ⟨_, rfl, rfl⟩
  dsimp only
  split
  · exact .inr ⟨_, rfl, rfl⟩
  split
  · exact .inr ⟨_, rfl, rfl⟩
  · exact .inl rfl

theorem mem_partitionCandidates (privileged : Bool) (candidates : List NoteId) (id : NoteId) :
    (id ∈ (partitionCandidates s vault privileged candidates).1 ∨
      id ∈ (partitionCandidates s vault privileged candidates).2.map (·.ulid)) ↔ id ∈ candidates := by
  induction candidates with
  | nil => simp [partitionCandidates]
  | cons ulid rest ih =>
    simp only [partitionCandidates, map_cons, mem_cons] at ih ⊢
    obtain hpart | ⟨note, hpart, hulid⟩ := partitionCandidate_cases s vault privileged ulid
    · simp only [hpart, filterMap_cons, Sum.getLeft?_inl, Sum.getRight?_inl, mem_cons,
        or_assoc, ih]
    simp only [hpart, filterMap_cons, Sum.getLeft?_inr, Sum.getRight?_inr, map_cons,
      mem_cons, hulid]
    rw [or_left_comm, ih]

variable {ftsMatches : String → NoteRow → Bool} {id : NoteId} {candidates : List NoteId}

theorem vaultForget_ok {index : Answers s}
    (h : vaultForget policy ftsMatches trust req index = .ok reply) :
    ∃ vault candidates, policy.effectiveWriteVault trust req.tenantId = .ok vault ∧
      crossVaultViolation req.scope vault = none ∧
      resolveScope index ftsMatches vault req.scope = .ok candidates ∧
      (∀ id, (id ∈ reply.preview.ulids ∨ id ∈ reply.preview.excluded.map (·.ulid)) ↔
        id ∈ candidates) := by
  simp only [vaultForget, bind_eq_ok_iff, require_eq_ok_iff, orForbidden_eq_ok_iff] at h
  obtain ⟨_, _, vault, hvault, _, _, _, hcross, _, _, _, _, _, _, candidates, hcands, h⟩ := h
  refine ⟨vault, candidates, hvault, Option.isNone_iff_eq_none.mp hcross, hcands, ?_⟩
  have hprev : reply.preview.ulids = (partitionCandidates s vault
        (trust.hasScope identityWriteScope) candidates).1 ∧
      reply.preview.excluded = (partitionCandidates s vault
        (trust.hasScope identityWriteScope) candidates).2 := by
    split at h
    · rw [pure_eq_ok_iff] at h
      subst h
      exact ⟨rfl, rfl⟩
    simp only [bind_eq_ok_iff, require_eq_ok_iff, pure_eq_ok_iff] at h
    obtain ⟨_, _, h⟩ := h
    subst h
    exact ⟨rfl, rfl⟩
  intro id
  rw [hprev.1, hprev.2]
  exact mem_partitionCandidates _ _ id

variable {index : Answers s}

theorem isSome_of_mem_select {cond : NoteRow → Bool}
    (h : id ∈ index.select vault cond) : (s.notes ⟨vault, id⟩).isSome := by
  obtain ⟨row, hrow, -⟩ := (index.mem_select vault cond id).1 h
  exact Option.isSome_of_eq_some hrow

theorem searchFtsForForget_isSome (h : searchFtsForForget index ftsMatches vault query limit = .ok candidates) :
    ∀ id ∈ candidates, (s.notes ⟨vault, id⟩).isSome := by
  intro id hid
  unfold searchFtsForForget at h
  split at h
  · cases h
  split at h
  · cases h
    cases hid
  · cases h
    exact isSome_of_mem_select (mem_of_mem_take hid)

theorem mem_listNotesByAgent :
    id ∈ listNotesByAgent index agentId vaults ↔
      ∃ v ∈ (if vaults = [] then ["main"] else vaults).take 20, ∃ row, s.notes ⟨v, id⟩ = some row ∧
        row.author.any (·.id = agentId) = true ∧ row.forgotten = false := by
  simp only [listNotesByAgent, mem_flatMap, mem_dedup, index.mem_select,
    Bool.and_eq_true, Bool.not_eq_true']

theorem resolveScope_isSome_iff (hcross : crossVaultViolation scope vault = none)
    (h : resolveScope index ftsMatches vault scope = .ok candidates) :
    (∀ id ∈ candidates, (s.notes ⟨vault, id⟩).isSome) ↔ AgentStays vault s scope := by
  cases scope with
  | topic query named limit =>
    have hnamed : named.getD vault = vault := by
      cases named with
      | none => rfl
      | some v => simpa [crossVaultViolation] using hcross
    rw [resolveScope, hnamed] at h
    refine iff_of_true (searchFtsForForget_isSome h) ?_
    intro agentId hscope
    cases hscope
  | locus named path =>
    have hnamed : named = vault := by simpa [crossVaultViolation] using hcross
    subst hnamed
    cases h
    refine iff_of_true (fun id => isSome_of_mem_select) ?_
    intro agentId hscope
    cases hscope
  | agent agentId vaults =>
    cases h
    cases vaults with
    | nil =>
      -- no vault is named, so the guard has nothing to compare
      constructor
      · intro hstays agentId' hscope id row hrow hauth hforg
        cases hscope
        exact hstays id (mem_listNotesByAgent.2
          ⟨"main", mem_singleton_self _, row, hrow, hauth, hforg⟩)
      · intro hstays id hid
        obtain ⟨v, hv, row, hrow, hauth, hforg⟩ := mem_listNotesByAgent.1 hid
        have hmain : v = "main" := mem_singleton.1 hv
        subst hmain
        exact hstays agentId rfl id row hrow hauth hforg
    | cons v rest =>
      refine iff_of_true ?_ ?_
      · intro id hid
        obtain ⟨w, hw, row, hrow, -⟩ := mem_listNotesByAgent.1 hid
        have hsame := find?_eq_none.1 hcross w (mem_of_mem_take hw)
        have hvault : w = vault := by simpa using hsame
        subst hvault
        exact Option.isSome_of_eq_some hrow
      · intro agentId' hscope
        cases hscope

/-! ## 3. The preview of an accepted request -/

/-- The preview of an accepted request names notes of the caller's vault alone just if the scope is not
an agent without a vault, or what this agent wrote in `main` has its ids in the caller's vault. -/
theorem previewStays_iff_agentStays (policy : Policy) (ftsMatches : String → NoteRow → Bool)
    (trust : TrustContext) (req : VaultForgetRequest) (index : Answers s) (reply : ForgetReply)
    (htenant : trust.tenantId = some vault)
    (h : vaultForget policy ftsMatches trust req index = .ok reply) :
    PreviewStays vault s reply.preview ↔ AgentStays vault s req.scope := by
  obtain ⟨vault', candidates, hvault, hcross, hcands, hprev⟩ := vaultForget_ok h
  have hsame : vault' = vault :=
    Option.some.inj ((effectiveWriteVault_tenantId hvault).symm.trans htenant)
  subst hsame
  rw [← resolveScope_isSome_iff hcross hcands]
  constructor
  · intro hstays id hid
    exact hstays id ((hprev id).2 hid)
  · intro hstays id hid
    exact hstays id ((hprev id).1 hid)

end Proofs

def oneAuthoredNote : IndexedVault :=
  .ofNote
    { plainNote 1 none "text" with
      frontmatter := { (plainNote 1 none "text").frontmatter with
        author := some ⟨.subAgent, "scribe", none⟩ } }

def forgetScribe (vaults : List VaultId) : VaultForgetRequest :=
  ⟨.agent "scribe" vaults, true, none, [], none⟩

theorem previewStays_namedVault :
    (vaultForget plainPolicy (fun _ _ => false) (bearerOf "main") (forgetScribe ["main"])
      oneAuthoredNote.answers = .ok (.previewed ⟨[1], 1, [], true⟩)) ∧
      PreviewStays "main" oneAuthoredNote.state ⟨[1], 1, [], true⟩ := by
  refine ⟨rfl, ?_⟩
  apply (previewStays_iff_agentStays plainPolicy (fun _ _ => false) (bearerOf "main")
    (forgetScribe ["main"]) oneAuthoredNote.answers (.previewed ⟨[1], 1, [], true⟩) rfl rfl).2
  intro agentId hscope
  cases hscope

/-- A caller of the vault `alice` is shown the id of a note of the vault `main`. -/
theorem not_previewStays_agentWithoutVault :
    ∃ reply, vaultForget plainPolicy (fun _ _ => false) (bearerOf "alice") (forgetScribe [])
        oneAuthoredNote.answers = .ok reply ∧
      ¬ PreviewStays "alice" oneAuthoredNote.state reply.preview := by
  refine ⟨_, rfl, ?_⟩
  intro hstays
  have hsome := hstays 1 (.inr mem_cons_self)
  cases hsome

end Gradatum.Access
