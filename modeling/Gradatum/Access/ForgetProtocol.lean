import Gradatum.Access.ForgetPreview

/-!
# Preview, confirmation and job

The first call of `vault_forget` shows which notes of a scope are eligible, the second has to echo their ids
and enqueues a job, which resolves the scope once more.  The preview reads the section and the title in the
index, the worker the section in the frontmatter and the first heading of the body.
-/

open Reasoning

namespace Gradatum.Access

open Notes List
open Queue (ForgetScope JobScope)

/-! ## 1. The vault of the job -/

def truncateForLog (s : String) : String :=
  let maxFragment := 48
  if s.length ≤ maxFragment then s else String.ofList (s.toList.take maxFragment) ++ "…"

def scopeLabel : JobScope → String
  | .vaultWide => "VaultWide"
  | .vault v => s!"Vault({truncateForLog v})"
  | .locus path => s!"Locus({truncateForLog path})"
  | .section name => s!"Section({truncateForLog name})"
  | .notes ids => s!"Notes({ids.length} ids)"
  | .session id => s!"Session({ulidText id})"

/-- With one vault a scope that names none stands for it; with several it is ambiguous. -/
def resolveJobVault (scope : JobScope) (multiTenant : Bool) : Except HandlerError VaultId :=
  match scope with
  | .vault v =>
    if !multiTenant then
      if v = "main" then .ok "main"
      else .error ⟨s!"unsupported vault scope (mono-vault): '{v}' ≠ 'main'"⟩
    else
      (VaultId.parse v).mapError fun e =>
        let quoted := e.quote
        ⟨s!"invalid job vault '{v}': invalid vault_id: {quoted}"⟩
  | scope =>
    if multiTenant then
      let label := scopeLabel scope
      .error ⟨s!"ambiguous job vault: scope {label} carries no vault while multi-vault is " ++
        "enabled — the enqueue site must carry JobScope::Vault(v)"⟩
    else .ok "main"

def scopeVaultMismatch (field : String) (found vault : VaultId) : HandlerError :=
  let shown := truncateForLog found
  ⟨s!"forget: scope vault mismatch — ForgetScope::{field} carries '{shown}' while the job " ++
    s!"is scoped on vault '{vault}'. A job targets exactly one vault; the enqueue site " ++
    "must emit one job per vault (JobScope::Vault(v) + ForgetScope on the same v)."⟩

def ensureForgetScopeVault (scope : ForgetScope) (vault : VaultId) : Except HandlerError Unit :=
  match scope with
  | .topic _ none _ => .ok ()
  | .topic _ (some v) _ => require (v = vault) (scopeVaultMismatch "Topic.vault" v vault)
  | .locus v _ => require (v = vault) (scopeVaultMismatch "Locus.vault" v vault)
  | .agent _ [] => .ok ()
  | .agent _ [only] => require (only = vault) (scopeVaultMismatch "Agent.vaults" only vault)
  | .agent _ many =>
    let count := many.length
    .error ⟨s!"forget: multi-vault ForgetScope::Agent ({count} vaults) on a job scoped '{vault}' — " ++
      "a job targets exactly one vault. The enqueue site must fan out one job per vault."⟩

/-! ## 2. The internal routes -/

/-- `InternalClientError::ServerError`: a reply that is not a success. -/
structure ServerError where
  status : Nat
  body : String

def ServerError.display (e : ServerError) : String :=
  let status := e.status
  let body := e.body
  s!"Server error {status}: {body}"

def validateParamLen (param : String) (bound : Nat) (name : String) : Except ServerError Unit :=
  let bytes := param.utf8ByteSize
  require (bytes ≤ bound) ⟨400, s!"parameter `{name}` too long ({bytes} > {bound} bytes)"⟩

def valuesOf (pairs : List (String × String)) (key : String) : List String :=
  (pairs.filter (·.1 = key)).map Prod.snd

/-- The parts of a deployment that a forget request passes through. -/
structure ForgetApi where
  policy : Policy
  server : Server
  /-- The full-text search of the index. -/
  ftsMatches : String → NoteRow → Bool
  /-- `multi_tenant.enabled` as the worker is configured. -/
  workerMultiTenant : Bool
  /-- The text with which `Query<HashMap<String, Vec<String>>>` of axum rejects a query string; one that
  it accepts gives each key the list of its values. -/
  rejectsQuery : List (String × String) → Option String

namespace ForgetApi

variable (api : ForgetApi)

section Routes

variable {s : VaultState} (index : Answers s)

def handleForgetSearch (vault : VaultId) (query : String) (limit : Nat) :
    Except ServerError (List NoteId) := do
  validateParamLen vault 256 "vault"
  validateParamLen query 512 "query"
  (searchFtsForForget index api.ftsMatches vault query (min limit 200)).mapError fun _ =>
    let bytes := query.utf8ByteSize
    ⟨500, "search_fts_for_forget failed: validation error: invalid input: " ++
      s!"search_fts_for_forget: query too long ({bytes} > 512 chars)"⟩

def handleNotesByLocus (vault : VaultId) (path : String) : Except ServerError (List NoteId) := do
  validateParamLen vault 256 "vault"
  validateParamLen path 512 "prefix"
  return index.select vault fun row => row.locus.any (likeStart path) && !row.forgotten

def handleNotesByAgent (query : List (String × String)) : Except ServerError (List NoteId) := do
  match api.rejectsQuery query with
  | some text => throw ⟨400, text⟩
  | none =>
    let agent ← present (valuesOf query "agent").head? ⟨400, "missing `agent` parameter"⟩
    validateParamLen agent 256 "agent"
    return listNotesByAgent index agent (valuesOf query "vaults[]")

/-- The candidates of the job.  The vault is the job's, whatever the scope names. -/
def listCandidates (vault : VaultId) : ForgetScope → Except HandlerError (List NoteId)
  | .topic query _ limit =>
    (api.handleForgetSearch index vault query (min (limit.getD 50) 200)).mapError fun e =>
      ⟨"forget: search_fts_for_forget: " ++ e.display⟩
  | .locus _ path =>
    (handleNotesByLocus index vault path).mapError fun e =>
      ⟨"forget: list_notes_by_locus: " ++ e.display⟩
  | .agent agentId _ =>
    (api.handleNotesByAgent index [("agent", agentId), ("vaults[]", vault)]).mapError fun e =>
      ⟨"forget: list_notes_by_agent: " ++ e.display⟩

end Routes

end ForgetApi

theorem nodup_searchFtsForForget {v : IndexedVault}
    (h : searchFtsForForget v.answers ftsMatches vault query limit = .ok ids) : ids.Nodup := by
  unfold searchFtsForForget at h
  split at h
  · cases h
  split at h
  · cases h
    exact nodup_nil
  · cases h
    exact (v.nodup_select vault _).sublist (take_sublist _ _)

theorem listNotesByAgent_singleton (index : Answers s) (agentId : String) (vault : VaultId) :
    listNotesByAgent index agentId [vault] =
      index.select vault fun row => row.author.any (·.id = agentId) && !row.forgotten := by
  simp [listNotesByAgent]

theorem ForgetApi.nodup_listCandidates {api : ForgetApi} {v : IndexedVault}
    (h : api.listCandidates v.answers vault scope = .ok ids) : ids.Nodup := by
  cases scope with
  | topic query named limit =>
    simp only [listCandidates, handleForgetSearch, mapError_eq_ok_iff, bind_eq_ok_iff] at h
    obtain ⟨_, _, _, _, h⟩ := h
    exact nodup_searchFtsForForget h
  | locus named path =>
    simp only [listCandidates, handleNotesByLocus, mapError_eq_ok_iff, bind_eq_ok_iff,
      pure_eq_ok_iff] at h
    obtain ⟨_, _, _, _, h⟩ := h
    subst h
    exact v.nodup_select vault _
  | agent agentId named =>
    simp only [listCandidates, handleNotesByAgent, mapError_eq_ok_iff] at h
    split at h
    · cases h
    simp only [bind_eq_ok_iff, pure_eq_ok_iff] at h
    obtain ⟨agent, _, _, _, h⟩ := h
    subst h
    have hvaults : valuesOf [("agent", agentId), ("vaults[]", vault)] "vaults[]" = [vault] := by
      simp [valuesOf]
    rw [hvaults, listNotesByAgent_singleton]
    exact v.nodup_select vault _

def confirmMismatch (expected provided : Nat) : HandlerError :=
  ⟨"forget: confirm_ulids does not match the resolved ULIDs — " ++
    s!"expected={expected}, provided={provided}. Re-run a preview and confirm the exact ULIDs."⟩

namespace ForgetApi

variable (api : ForgetApi)

def candidatesOf (input : NoteId → ForgetInput) (ids : List NoteId) (hids : ids.Nodup) :
    Candidates where
  turns := ids.map fun id => (id, input id)
  nodup := by
    rw [List.map_map]
    show (ids.map id).Nodup
    rwa [List.map_id]

/-- The job of a record that `vault_forget` enqueued.  It confirms texts; the loop of the job is given
the ids that they are the texts of. -/
def handleForgetJob (input : NoteId → ForgetInput) (job : ForgetJobRecord) (v : IndexedVault) :
    Except HandlerError JobOutput × VaultState :=
  match resolveJobVault (.vault job.vault) api.workerMultiTenant with
  | .error e => (.error e, v.state)
  | .ok vault =>
    match ensureForgetScopeVault job.scope vault with
    | .error e => (.error e, v.state)
    | .ok _ =>
      match hlisted : api.listCandidates v.answers vault job.scope with
      | .error e => (.error e, v.state)
      | .ok ids =>
        let candidates := candidatesOf input ids (nodup_listCandidates hlisted)
        let eligible := (api.server.eligible vault candidates v.state).map Prod.fst
        if (eligible.map ulidText).isPerm job.confirmUlids then
          api.server.handleForget false ⟨false, eligible, job.forgottenBy⟩ vault candidates
            v.state
        else (.error (confirmMismatch eligible.length job.confirmUlids.length), v.state)

end ForgetApi

/-! ## 3. What the protocol is to do -/

structure ForgetsExactly (vault : VaultId) (ulids : List NoteId) (s : VaultState) (out : JobOutput)
    (s' : VaultState) : Prop where
  counted : out.notesModified.Perm ulids
  marked : ∀ key, s'.isForgotten key = true ↔
    s.isForgotten key = true ∨ (key.vault = vault ∧ key.id ∈ ulids)
  others : ∀ vault' id, id ∉ ulids → SameNote vault' id s s'

def VaultForgetRequest.asPreview (req : VaultForgetRequest) : VaultForgetRequest :=
  { req with dryRun := true }

def VaultForgetRequest.confirming (req : VaultForgetRequest) (preview : ForgetPreview) :
    VaultForgetRequest :=
  { req with dryRun := false, confirmUlids := preview.ulids.map ulidText }

namespace ForgetApi

variable (api : ForgetApi)

def vaultForget (trust : TrustContext) (req : VaultForgetRequest) (v : IndexedVault) :
    Except ApiError ForgetReply :=
  Access.vaultForget api.policy api.ftsMatches trust req v.answers

def Completes (trust : TrustContext) (req : VaultForgetRequest) (input : NoteId → ForgetInput)
    (v : IndexedVault) (preview : ForgetPreview) : Prop :=
  ∃ job again out, api.vaultForget trust (req.confirming preview) v = .ok (.queued job again) ∧
    (api.handleForgetJob input job v).1 = .ok out ∧
    ForgetsExactly job.vault preview.ulids v.state out (api.handleForgetJob input job v).2

/-- The index keeps the note out of no preview of the caller. -/
def rowEligible (trust : TrustContext) (vault : VaultId) (s : VaultState) (id : NoteId) : Bool :=
  (partitionCandidate s vault (trust.hasScope identityWriteScope) id).isLeft

def fileEligible (vault : VaultId) (s : VaultState) (id : NoteId) : Bool :=
  !api.server.isProtected vault s id

/-- The preview and the job come to the same verdicts, within the bounds of both. -/
structure Agrees (trust : TrustContext) (req : VaultForgetRequest) (input : NoteId → ForgetInput)
    (v : IndexedVault) (vault : VaultId) (shown listed : List NoteId) : Prop where
  tenant : api.policy.effectiveWriteVault trust req.tenantId = .ok vault
  shown_eq : resolveScope v.answers api.ftsMatches vault req.scope = .ok shown
  /-- No more than 200 ids can be echoed. -/
  bounded : (shown.filter (rowEligible trust vault v.state)).length ≤ 200
  served : resolveJobVault (.vault vault) api.workerMultiTenant = .ok vault
  listed_eq : api.listCandidates v.answers vault req.scope = .ok listed
  /-- What the index says of a candidate of the preview, the file says of a candidate of the job. -/
  verdicts : ∀ id, (id ∈ shown ∧ rowEligible trust vault v.state id = true) ↔
    (id ∈ listed ∧ api.fileEligible vault v.state id = true)
  /-- The write of no eligible note is refused. -/
  written : ∀ id ∈ listed, api.fileEligible vault v.state id = true →
    api.server.turnCounts vault v.state (id, input id) = true

/-! ## 4. The two calls -/

structure Admits (trust : TrustContext) (req : VaultForgetRequest) (vault : VaultId) : Prop where
  authenticated : trust.isAuthenticated = true
  tenant : api.policy.effectiveWriteVault trust req.tenantId = .ok vault
  acl : api.policy.acl trust .write s!"{vault}/main" = true
  own : crossVaultViolation req.scope vault = none
  single : multiVaultAgentScope req.scope = none
  named : (req.forgottenBy.getD "").utf8ByteSize ≤ maxForgottenByLen

variable {api} {trust : TrustContext} {req : VaultForgetRequest} {v : IndexedVault} {vault : VaultId}
  {shown listed : List NoteId} {preview : ForgetPreview} {input : NoteId → ForgetInput}

theorem partitionCandidates_fst (s : VaultState) (candidates : List NoteId) :
    (partitionCandidates s vault (trust.hasScope identityWriteScope) candidates).1 =
      candidates.filter (rowEligible trust vault s) := by
  unfold partitionCandidates
  induction candidates with
  | nil => rfl
  | cons id rest ih =>
    dsimp only at ih ⊢
    rw [map_cons, filterMap_cons, filter_cons, ih]
    unfold rowEligible
    rcases partitionCandidate_cases s vault (trust.hasScope identityWriteScope) id with
      hpart | ⟨note, hpart, -⟩
    · rw [hpart]
      rfl
    · rw [hpart]
      rfl

theorem vaultForget_asPreview (h : api.vaultForget trust req.asPreview v = .ok (.previewed preview)) :
    ∃ vault shown, api.Admits trust req vault ∧
      resolveScope v.answers api.ftsMatches vault req.scope = .ok shown ∧
      preview.ulids = shown.filter (rowEligible trust vault v.state) := by
  simp only [vaultForget, Access.vaultForget, VaultForgetRequest.asPreview, bind_eq_ok_iff,
    require_eq_ok_iff, orForbidden_eq_ok_iff, if_true, pure_eq_ok_iff,
    Option.isNone_iff_eq_none] at h
  obtain ⟨_, hauth, vault, hten, _, hacl, _, hown, _, hsing, _, hnamed, _, _, shown, hshown, h⟩ := h
  refine ⟨vault, shown, ⟨hauth, hten, hacl, hown, hsing, of_decide_eq_true hnamed⟩, hshown, ?_⟩
  injection h with h
  rw [← h]
  exact partitionCandidates_fst v.state shown

theorem vaultForget_confirming_iff (hadm : api.Admits trust req vault)
    (hshown : resolveScope v.answers api.ftsMatches vault req.scope = .ok shown)
    (hulids : preview.ulids = shown.filter (rowEligible trust vault v.state)) (job : ForgetJobRecord) :
    (∃ again, api.vaultForget trust (req.confirming preview) v = .ok (.queued job again)) ↔
      preview.ulids.length ≤ 200 ∧ job = buildForgetJobRecord (req.confirming preview) vault := by
  have hparts : (partitionCandidates v.state vault (trust.hasScope identityWriteScope) shown).1 =
      preview.ulids := (partitionCandidates_fst v.state shown).trans hulids.symm
  have hperm : (preview.ulids.map ulidText).isPerm (preview.ulids.map ulidText) = true :=
    isPerm_iff.2 (.refl _)
  simp only [vaultForget, Access.vaultForget, VaultForgetRequest.confirming, bind_eq_ok_iff,
    require_eq_ok_iff, orForbidden_eq_ok_iff, Bool.false_eq_true, if_false, pure_eq_ok_iff,
    Option.isNone_iff_eq_none]
  constructor
  · rintro ⟨again, _, _, vault', hten, _, _, _, _, _, _, _, _, _, hbound, _, _, _, _, hreply⟩
    cases hadm.tenant.symm.trans hten
    injection hreply with hjob
    exact ⟨by simpa using hbound, hjob.symm⟩
  · rintro ⟨hbound, hjob⟩
    have hecho : decide ((preview.ulids.map ulidText).length ≤ 200) = true := by simpa using hbound
    generalize hpartition : partitionCandidates v.state vault (trust.hasScope identityWriteScope) shown =
      parts at hparts
    refine ⟨⟨parts.1, parts.1.length, parts.2, false⟩, (), hadm.authenticated, vault, hadm.tenant,
      (), hadm.acl, (), hadm.own, (), hadm.single, (), decide_eq_true hadm.named, (), hecho,
      shown, hshown, (), ?_, ?_⟩
    · rw [hpartition, hparts]
      exact hperm
    · rw [hpartition, hjob]

theorem ensureForgetScopeVault_ok (hadm : api.Admits trust req vault) (preview : ForgetPreview) :
    ensureForgetScopeVault (buildForgetJobRecord (req.confirming preview) vault).scope vault =
      .ok () := by
  have hown := hadm.own
  have hsing := hadm.single
  unfold buildForgetJobRecord VaultForgetRequest.confirming
  dsimp only
  cases hscope : req.scope with
  | topic query named limit =>
    rw [hscope] at hown
    cases named with
    | none => simp [ensureForgetScopeVault, require]
    | some other =>
      have hother : other = vault := by simpa [crossVaultViolation] using hown
      simp [ensureForgetScopeVault, require, hother]
  | locus other path =>
    rw [hscope] at hown
    have hother : other = vault := by simpa [crossVaultViolation] using hown
    simp [ensureForgetScopeVault, require, hother]
  | agent agentId vaults =>
    rw [hscope] at hown hsing
    rcases vaults with _ | ⟨only, _ | ⟨second, rest⟩⟩
    · rfl
    · have honly : only = vault := by simpa [crossVaultViolation] using hown
      simp [ensureForgetScopeVault, require, honly]
    · simp [multiVaultAgentScope] at hsing

theorem resolveJobVault_vault (h : resolveJobVault (.vault named) multiTenant = .ok resolved) :
    resolved = named := by
  unfold resolveJobVault at h
  cases multiTenant with
  | false =>
    by_cases hmain : named = "main"
    · simpa [hmain, eq_comm] using h
    · simp [hmain] at h
  | true =>
    simp only [Bool.not_true, Bool.false_eq_true, if_false, mapError_eq_ok_iff] at h
    exact VaultId.parse_ok h

/-! ## 5. The job of a confirmed preview -/

theorem eligible_candidatesOf (ids : List NoteId) (hids : ids.Nodup) (s : VaultState) :
    api.server.eligible vault (candidatesOf input ids hids) s =
      (ids.filter (api.fileEligible vault s)).map fun id => (id, input id) := by
  unfold Server.eligible candidatesOf
  rw [filter_map]
  rfl

theorem map_fst_turns (ids : List NoteId) : (ids.map fun id => (id, input id)).map Prod.fst = ids := by
  rw [map_map]
  exact map_id ids

variable {job : ForgetJobRecord}

theorem handleForgetJob_eq (hserv : resolveJobVault (.vault job.vault) api.workerMultiTenant = .ok vault)
    (hscope : ensureForgetScopeVault job.scope vault = .ok ())
    (hlist : api.listCandidates v.answers vault job.scope = .ok listed) :
    api.handleForgetJob input job v =
      let candidates := candidatesOf input listed (nodup_listCandidates hlist)
      let eligible := listed.filter (api.fileEligible vault v.state)
      if (eligible.map ulidText).isPerm job.confirmUlids then
        api.server.handleForget false ⟨false, eligible, job.forgottenBy⟩ vault candidates v.state
      else (.error (confirmMismatch eligible.length job.confirmUlids.length), v.state) := by
  unfold handleForgetJob
  rw [hserv]
  dsimp only
  rw [hscope]
  dsimp only
  split
  · rename_i e herror
    rw [hlist] at herror
    cases herror
  rename_i ids hids
  cases hlist.symm.trans hids
  rw [eligible_candidatesOf, map_fst_turns]

theorem handleForgetJob_ok (h : (api.handleForgetJob input job v).1 = .ok out) :
    ∃ listed, resolveJobVault (.vault job.vault) api.workerMultiTenant = .ok job.vault ∧
      api.listCandidates v.answers job.vault job.scope = .ok listed := by
  unfold handleForgetJob at h
  split at h
  · cases h
  rename_i vault hserv
  cases resolveJobVault_vault hserv
  split at h
  · cases h
  split at h
  · cases h
  · rename_i listed hlist
    exact ⟨listed, hserv, hlist⟩

/-- A job that got so far forgets the confirmed notes just if they are the ones it finds eligible, and
the turn of each of them counts. -/
theorem forgetsExactly_iff (hnodup : ulids.Nodup)
    (hrows : ∀ id ∈ ulids, (v.state.notes ⟨vault, id⟩).isSome)
    (hconf : job.confirmUlids = ulids.map ulidText)
    (hserv : resolveJobVault (.vault job.vault) api.workerMultiTenant = .ok vault)
    (hscope : ensureForgetScopeVault job.scope vault = .ok ())
    (hlist : api.listCandidates v.answers vault job.scope = .ok listed) :
    (∃ out, (api.handleForgetJob input job v).1 = .ok out ∧
        ForgetsExactly vault ulids v.state out (api.handleForgetJob input job v).2) ↔
      (∀ id, id ∈ ulids ↔ id ∈ listed ∧ api.fileEligible vault v.state id = true) ∧
        ∀ id ∈ listed, api.fileEligible vault v.state id = true →
          api.server.turnCounts vault v.state (id, input id) = true := by
  have hdistinct := nodup_listCandidates hlist
  -- what the job does once the texts agree
  obtain ⟨out, hjob, hmod⟩ := handleForget_confirmed api.server job.forgottenBy vault
    (candidatesOf input listed hdistinct) v.state
  rw [eligible_candidatesOf, map_fst_turns] at hjob
  rw [eligible_candidatesOf] at hmod
  have hmem : ∀ id, id ∈ listed.filter (api.fileEligible vault v.state) ↔
      id ∈ listed ∧ api.fileEligible vault v.state id = true := fun id => mem_filter
  have helig : (listed.filter (api.fileEligible vault v.state)).Nodup := hdistinct.filter _
  have hturns : (((listed.filter (api.fileEligible vault v.state)).map
      fun id => (id, input id)).map Prod.fst).Nodup := by rwa [map_fst_turns]
  have hcntd := hmod
  rw [forgotten_forgetEach _ _ _ _ hturns, filter_map, map_fst_turns] at hcntd
  rw [handleForgetJob_eq hserv hscope hlist, hconf]
  dsimp only
  simp only [← hmem]
  have hall : (∀ id ∈ listed, api.fileEligible vault v.state id = true →
        api.server.turnCounts vault v.state (id, input id) = true) ↔
      ∀ id ∈ listed.filter (api.fileEligible vault v.state),
        api.server.turnCounts vault v.state (id, input id) = true := by
    simp only [hmem, and_imp]
  rw [hall, hjob]
  generalize listed.filter (api.fileEligible vault v.state) = elig at *
  constructor
  · intro ⟨out', hout, hexact⟩
    split at hout
    · rename_i htexts
      cases hout
      -- the texts give the number of turns, and the counted ones are as many
      have hlen : elig.length = ulids.length := by
        simpa using (isPerm_iff.1 htexts).length_eq
      have hperm := hexact.counted
      rw [hcntd] at hperm
      have hfilt : elig.filter ((api.server.turnCounts vault v.state) ∘ fun id => (id, input id)) =
          elig := by
        apply filter_eq_self.2
        apply length_filter_eq_length_iff.1
        rw [hperm.length_eq, hlen]
      rw [hfilt] at hperm
      exact ⟨fun id => hperm.symm.mem_iff, filter_eq_self.1 hfilt⟩
    · cases hout
  · intro ⟨hsame, hcnts⟩
    have hperm : elig.Perm ulids := (perm_ext_iff_of_nodup helig hnodup).2 fun id => (hsame id).symm
    have htexts : (elig.map ulidText).isPerm (ulids.map ulidText) = true :=
      isPerm_iff.2 (hperm.map ulidText)
    rw [if_pos htexts]
    have hmodified' : out.notesModified = elig := hcntd.trans (filter_eq_self.2 hcnts)
    have hturnRows : ∀ turn ∈ elig.map fun id => (id, input id),
        (v.state.notes ⟨vault, turn.1⟩).isSome := by
      intro turn hturn
      obtain ⟨id, hid, rfl⟩ := mem_map.1 hturn
      exact hrows id (hperm.mem_iff.1 hid)
    refine ⟨out, rfl, ?_, ?_, ?_⟩
    · rw [hmodified']
      exact hperm
    · intro key
      rw [isForgotten_forgetEach _ _ hturns hturnRows, ← hmod, hmodified', hperm.mem_iff]
    · intro vault' id hid
      apply sameNote_forgetEach
      intro turn hturn heq
      obtain ⟨id', hid', rfl⟩ := mem_map.1 hturn
      exact hid (heq ▸ hperm.mem_iff.1 hid')

/-! ## 6. The protocol -/

theorem nodup_resolveScope (hadm : api.Admits trust req vault)
    (hshown : resolveScope v.answers api.ftsMatches vault req.scope = .ok shown) : shown.Nodup := by
  have hsing := hadm.single
  cases hscope : req.scope with
  | topic query named limit =>
    rw [hscope] at hshown
    exact nodup_searchFtsForForget hshown
  | locus named path =>
    rw [hscope] at hshown
    cases hshown
    exact v.nodup_select named _
  | agent agentId vaults =>
    rw [hscope] at hshown hsing
    cases hshown
    match vaults with
    | [] =>
      have hmain : listNotesByAgent v.answers agentId [] =
          listNotesByAgent v.answers agentId ["main"] := rfl
      rw [hmain, listNotesByAgent_singleton]
      exact v.nodup_select "main" _
    | [only] =>
      rw [listNotesByAgent_singleton]
      exact v.nodup_select only _
    | _ :: _ :: _ => simp [multiVaultAgentScope] at hsing

theorem isSome_of_rowEligible {id : NoteId}
    (h : rowEligible trust vault s id = true) : (s.notes ⟨vault, id⟩).isSome := by
  unfold rowEligible partitionCandidate at h
  cases hrow : s.notes ⟨vault, id⟩ with
  | none =>
    rw [hrow] at h
    cases h
  | some row => rfl

theorem listCandidates_buildForgetJobRecord :
    api.listCandidates v.answers vault (buildForgetJobRecord req vault).scope =
      api.listCandidates v.answers vault req.scope := by
  unfold buildForgetJobRecord
  dsimp only
  cases req.scope with
  | topic query named limit =>
    cases named with
    | none => rfl
    | some other => rfl
  | locus | agent => rfl

/-- The echo of a preview is accepted and forgets the notes of the preview and no others just if they
are at most 200, the worker serves the vault and can list the scope, the index and the files say the
same of every candidate, and no write is refused. -/
theorem completes_iff_agrees (api : ForgetApi) (trust : TrustContext) (req : VaultForgetRequest)
    (input : NoteId → ForgetInput) (v : IndexedVault) (preview : ForgetPreview)
    (hpreview : api.vaultForget trust req.asPreview v = .ok (.previewed preview)) :
    api.Completes trust req input v preview ↔
      ∃ vault shown listed, api.Agrees trust req input v vault shown listed := by
  obtain ⟨vault, shown, hadm, hshown, hulids⟩ := vaultForget_asPreview hpreview
  have hacc := vaultForget_confirming_iff hadm hshown hulids
  have hscope := ensureForgetScopeVault_ok hadm preview
  have hnodup : preview.ulids.Nodup := by
    rw [hulids]
    exact (nodup_resolveScope hadm hshown).filter _
  have hmem : ∀ id, id ∈ preview.ulids ↔ id ∈ shown ∧ rowEligible trust vault v.state id = true := by
    intro id
    rw [hulids, mem_filter]
  have hrows : ∀ id ∈ preview.ulids, (v.state.notes ⟨vault, id⟩).isSome :=
    fun id hid => isSome_of_rowEligible ((hmem id).1 hid).2
  constructor
  · intro ⟨job, again, out, hqueued, hout, hexact⟩
    obtain ⟨hbound, rfl⟩ := (hacc job).1 ⟨again, hqueued⟩
    obtain ⟨listed, hserv, hlist⟩ := handleForgetJob_ok hout
    obtain ⟨hverd, hwrit⟩ :=
      (forgetsExactly_iff hnodup hrows rfl hserv hscope hlist).1 ⟨out, hout, hexact⟩
    refine ⟨vault, shown, listed, hadm.tenant, hshown, ?_, hserv, ?_, ?_, hwrit⟩
    · rwa [← hulids]
    · exact listCandidates_buildForgetJobRecord.symm.trans hlist
    · intro id
      rw [← hmem]
      exact hverd id
  · intro ⟨vault', shown', listed, h⟩
    cases hadm.tenant.symm.trans h.tenant
    cases hshown.symm.trans h.shown_eq
    have hbound : preview.ulids.length ≤ 200 := by
      rw [hulids]
      exact h.bounded
    obtain ⟨again, hqueued⟩ := (hacc _).2 ⟨hbound, rfl⟩
    have hverd : ∀ id, id ∈ preview.ulids ↔
        id ∈ listed ∧ api.fileEligible vault v.state id = true := by
      intro id
      rw [hmem]
      exact h.verdicts id
    have hlist : api.listCandidates v.answers vault
        (buildForgetJobRecord (req.confirming preview) vault).scope = .ok listed :=
      listCandidates_buildForgetJobRecord.trans h.listed_eq
    have hserv : resolveJobVault (.vault (buildForgetJobRecord (req.confirming preview) vault).vault)
        api.workerMultiTenant = .ok vault := h.served
    obtain ⟨out, hout, hexact⟩ :=
      (forgetsExactly_iff hnodup hrows rfl hserv hscope hlist).2 ⟨hverd, h.written⟩
    exact ⟨_, again, out, hqueued, hout, hexact⟩

def oneVaultApi : ForgetApi where
  policy := plainPolicy
  server := plainServer
  ftsMatches := fun _ _ => false
  workerMultiTenant := false
  rejectsQuery := fun query => if query = [] then none else some "Failed to deserialize query string"

def firstTurn (_ : NoteId) : ForgetInput := ⟨1, .at 1, 1⟩

def forgetDesk : VaultForgetRequest := ⟨.locus "main" "desk", true, none, [], none⟩

def filedNote (body : String) : Note := plainNote 1 (some ⟨"desk", by decide⟩) body

theorem completes_filedNote :
    oneVaultApi.Completes (bearerOf "main") forgetDesk firstTurn (.ofNote (filedNote "text"))
      ⟨[1], 1, [], true⟩ := by
  apply (completes_iff_agrees oneVaultApi (bearerOf "main") forgetDesk firstTurn (.ofNote (filedNote "text"))
    ⟨[1], 1, [], true⟩ rfl).2
  refine ⟨"main", [1], [1], rfl, rfl, by decide, rfl, rfl, fun id => ?_, ?_⟩
  · constructor
    · intro ⟨hid, _⟩
      cases mem_singleton.1 hid
      exact ⟨hid, by decide +kernel⟩
    intro ⟨hid, _⟩
    cases mem_singleton.1 hid
    exact ⟨hid, by decide +kernel⟩
  · intro id hid _
    cases mem_singleton.1 hid
    decide +kernel

/-- The card of a person, whose body begins with another heading than its title. -/
def personCard : Note :=
  { filedNote "# Ada" with
    frontmatter := { (filedNote "# Ada").frontmatter with «section» := .identity } }

def renamedCard : IndexedVault :=
  (IndexedVault.ofNote personCard).update []
    ((stateOf personCard).updateRow ⟨"main", 1⟩ fun row =>
      { row with title := some "identity/person/ada" })
    (by
      intro key row hrow
      by_cases hkey : key = ⟨"main", 1⟩
      · subst hkey
        exact .inl rfl
      · rw [VaultState.updateRow_of_ne _ _ hkey] at hrow
        exact .inl (Option.isSome_of_eq_some hrow))

def cardKeeper : TrustContext := .bearerToken "scribe" ["write", "identity_write"] "main"

/-- The caller is shown the card, and the echo is accepted; the job takes the card for a protected one
and fails. -/
theorem not_completes_renamedCard :
    ∃ preview, oneVaultApi.vaultForget cardKeeper forgetDesk.asPreview renamedCard =
        .ok (.previewed preview) ∧ preview.ulids = [1] ∧
      ¬ oneVaultApi.Completes cardKeeper forgetDesk firstTurn renamedCard preview := by
  have hulids : (partitionCandidates renamedCard.state "main"
      (cardKeeper.hasScope identityWriteScope) [1]).1 = [1] := by decide +kernel
  have hadm : oneVaultApi.Admits cardKeeper forgetDesk "main" :=
    ⟨rfl, rfl, rfl, rfl, rfl, by decide⟩
  refine ⟨_, rfl, hulids, ?_⟩
  intro ⟨job, again, out, hqueued, hout, _⟩
  obtain ⟨-, rfl⟩ := (vaultForget_confirming_iff hadm rfl (partitionCandidates_fst _ _) job).1
    ⟨again, hqueued⟩
  -- nothing is eligible for the job, and one id was confirmed
  have hok : Except.isOk _ = true := congrArg Except.isOk hout
  revert hok
  decide +kernel

end ForgetApi

end Gradatum.Access
