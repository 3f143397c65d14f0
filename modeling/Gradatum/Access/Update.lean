import Gradatum.Access.Write
import Gradatum.Notes.Mutation

/-!
# Changing a note

`vault_restore` brings a version back, `vault_downgrade` and `patch_note` set the status of a note,
`move_note_locus` moves its file.
-/

open Reasoning

namespace Gradatum.Access

open Notes ProjectMap

/-! ## 1. Requests -/

structure VaultRestoreRequest where
  noteId : String
  tsMs : Int
  tenantId : Option VaultId := none

structure VaultDowngradeRequest where
  noteId : String
  reason : String
  replacedBy : Option String := none
  tenantId : Option VaultId := none

structure NoteStatusPatch where
  status : Option String := none
  statusReason : Option String := none
  replacedBy : Option String := none
  addTags : Option (List String) := none

structure PatchInput where
  changed : Instant
  write : WriteInput
  now : Int
  tags : WriteInput

inductive UpdateError where
  /-- The handler of the route refuses the request without a text. -/
  | badRequest
  | api (e : ApiError)
  | mutation (e : MutationError)
  | invalidTag (tag : Tag)
  | tooManyTags (found : Nat)
  deriving DecidableEq

def ofMutation : Except MutationError Unit × VaultState → Except UpdateError Unit × VaultState
  | (.ok (), s) => (.ok (), s)
  | (.error e, s) => (.error (.mutation e), s)

def ofAddTags : Except AddTagsError Unit × VaultState → Except UpdateError Unit × VaultState
  | (.ok (), s) => (.ok (), s)
  | (.error (.mutation e), s) => (.error (.mutation e), s)
  | (.error (.invalidTag tag), s) => (.error (.invalidTag tag), s)
  | (.error (.tooMany found), s) => (.error (.tooManyTags found), s)

/-- A status by its name in kebab case. -/
def NoteStatusPatch.parseStatus : String → Option NoteStatus
  | "draft" => some .draft
  | "staging" => some .staging
  | "pending-review" => some .pendingReview
  | "live" => some .live
  | "deprecated" => some .deprecated
  | "garbage" => some .garbage
  | _ => none

def maxAddTagsPerCall : Nat := 20

namespace WriteApi

variable (api : WriteApi) (v : IndexedVault)

/-! ## 2. Checks -/

variable (trust : TrustContext)

/-- The guard of souls for a note by the text of the request.  A text that is no ULID names no row. -/
def guardText (tenant : VaultId) (text : String) : Except ApiError Unit :=
  let (title, sec) := match api.parseUlid text with
    | some id => resolveTitleSectionFailclosed v.state tenant ⟨text, id⟩
    | none => (none, "")
  enforceIdentityWriteGuard trust sec title

/-- The sequence of `patch_note` and `move_note_locus`, whose requests name no tenant.  It is written out
beside `effective_write_vault` and does not ask for the grants of the agent. -/
def tenantWriteChecks : Except ApiError VaultId := do
  require trust.isAuthenticated .unauthorized
  let tenant ← present trust.tenantId (.forbidden "context without tenant — vault access denied")
  require (api.policy.acl trust .write (tenant ++ "/main")) (.forbidden "acl deny write")
  if api.policy.multiTenant then
    require (api.policy.writeScopeAllowed trust)
      (TenantGuardRefusal.missingWriteScope.intoForbidden "acl deny write")
    orForbidden "acl deny write" (api.policy.requireWriteGrant tenant tenant)
  return tenant

/-- A ULID of a field that may be absent. -/
def parseOptional (message : String → String) (text : Option String) :
    Except ApiError (Option NoteId) :=
  match text with
  | none => .ok none
  | some text => (present (api.parseUlid text) (.invalidInput (message text))).map some

def bareUlidExpected (field text : String) : String :=
  "invalid " ++ field ++ " " ++ echoRef text ++
    " — a bare ULID is expected (this endpoint does not resolve \"section/ULID\", titles or slugs)"

/-- A structure card that is tracked is not downgraded.  The check is skipped where the note cannot be
read. -/
def restrictChildren (tenant : VaultId) (id : NoteId) : Except ApiError Unit :=
  match (api.readBackReader tenant).toOption.bind fun reader => reader.readNote v.state id with
  | none => .ok ()
  | some note =>
    match structureCardIdentity api.parseUlid note.body with
    | none => .ok ()
    | some identity =>
      require (!structureHasChildren api.parseUlid v tenant (identityText identity)) (.invalidInput
        ("project-map: cannot downgrade structure card " ++ identityText identity ++
          " — it still has children pointing at it via [[track:]] (RESTRICT; detach or " ++
          "downgrade them first)"))

/-! ## 3. The handlers -/

def restoreChecks (req : VaultRestoreRequest) : Except ApiError (VaultId × NoteId) := do
  let tenant ← api.vaultWriteChecks trust req.tenantId
  let ref ← api.resolveNoteRefStrict v.answers tenant req.noteId
  let (title, sec) := resolveTitleSectionFailclosed v.state tenant ref
  enforceIdentityWriteGuard trust sec title
  return (tenant, ref.id)

def vaultRestore (input : WriteInput) (req : VaultRestoreRequest) :
    Except UpdateError Unit × VaultState :=
  match api.restoreChecks v trust req with
  | .error e => (.error (.api e), v.state)
  | .ok (tenant, id) => ofMutation (api.server.vault.historyRestore tenant input id req.tsMs v.state)

def downgradeChecks (req : VaultDowngradeRequest) :
    Except ApiError (VaultId × NoteId × Option NoteId) := do
  let tenant ← api.vaultWriteChecks trust req.tenantId
  api.guardText v trust tenant req.noteId
  let id ← present (api.parseUlid req.noteId) (.invalidInput (bareUlidExpected "note_id" req.noteId))
  let replacedBy ← api.parseOptional (bareUlidExpected "replaced_by") req.replacedBy
  api.restrictChildren v tenant id
  return (tenant, id, replacedBy)

def vaultDowngrade (now : Int) (req : VaultDowngradeRequest) : Except UpdateError Unit × VaultState :=
  match api.downgradeChecks v trust req with
  | .error e => (.error (.api e), v.state)
  | .ok (tenant, id, replacedBy) =>
    ofMutation (v.state.downgradeNote tenant now id req.reason replacedBy)

def patchChecks (id : NoteId) : Except ApiError VaultId := do
  let tenant ← api.tenantWriteChecks trust
  api.guardText v trust tenant (ulidText id)
  return tenant

def patchColumns (tenant : VaultId) (now : Int) (id : NoteId) (reason replacedBy : Option String)
    (s : VaultState) : Except UpdateError Unit × VaultState :=
  match api.parseOptional (fun _ => "invalid replaced_by (ULID expected)") replacedBy with
  | .error e => (.error (.api e), s)
  | .ok replacedBy => ofMutation (s.patchNoteStatus tenant now id none reason replacedBy)

def patchNoteImpl (input : PatchInput) (id : NoteId) (body : NoteStatusPatch) :
    Except UpdateError Unit × VaultState :=
  match api.patchChecks v trust id with
  | .error e => (.error (.api e), v.state)
  | .ok tenant =>
    match body.status with
    | none => api.patchColumns tenant input.now id body.statusReason body.replacedBy v.state
    | some text =>
      match NoteStatusPatch.parseStatus text with
      | none => (.error (.api (.invalidInput "status hors enum NoteStatus")), v.state)
      | some target =>
        match api.server.vault.updateNoteStatus tenant input.changed input.write target
          body.statusReason id v.state with
        | (.error e, s) => (.error (.mutation e), s)
        | (.ok (), s) =>
          -- the new status stays where `replaced_by` is refused
          if body.replacedBy.isSome then
            api.patchColumns tenant input.now id none body.replacedBy s
          else (.ok (), s)

def validateAddTags (tags : List String) : Bool :=
  !tags.isEmpty && tags.length ≤ maxAddTagsPerCall && tags.all isTag

def patchNote (input : PatchInput) (text : String) (body : NoteStatusPatch) :
    Except UpdateError Unit × VaultState :=
  match api.parseUlid text with
  | none => (.error .badRequest, v.state)
  | some id =>
    if body.status.isNone && body.statusReason.isNone && body.replacedBy.isNone && body.addTags.isNone
    then (.error .badRequest, v.state)
    else if !body.addTags.all validateAddTags then (.error .badRequest, v.state)
    else
      match api.patchNoteImpl v trust input id body with
      | (.error e, s) => (.error e, s)
      | (.ok (), s) =>
        match body.addTags, trust.tenantId with
        | some tags, some tenant =>
          ofAddTags (api.server.vault.addTags tenant input.tags (unionTags [] tags) id s)
        | _, _ => (.ok (), s)

def moveChecks (text : String) : Except ApiError VaultId := do
  let tenant ← api.tenantWriteChecks trust
  api.guardText v trust tenant text
  return tenant

def moveNoteLocus (input : WriteInput) (text : String) (locus : LocusId) :
    Except UpdateError Unit × VaultState :=
  match api.parseUlid text with
  | none => (.error .badRequest, v.state)
  | some id =>
    match api.moveChecks v trust text with
    | .error e => (.error (.api e), v.state)
    | .ok tenant =>
      match api.server.vault.ensureWitnessOwnsVault tenant id with
      | .error e => (.error (.mutation e), v.state)
      | .ok () => ofMutation (api.server.vault.moveLocus input locus id v.state)

/-! ## 4. What they do -/

end WriteApi

theorem ofMutation_snd (reply : Except MutationError Unit × VaultState) :
    (ofMutation reply).2 = reply.2 := by
  obtain ⟨_ | _, _⟩ := reply <;> rfl

theorem ofAddTags_snd (reply : Except AddTagsError Unit × VaultState) :
    (ofAddTags reply).2 = reply.2 := by
  obtain ⟨(_ | _ | _) | _, _⟩ := reply <;> rfl

namespace WriteApi

section Cases

variable {api : WriteApi} {v : IndexedVault} {trust : TrustContext}

theorem tenantWriteChecks_ok (h : api.tenantWriteChecks trust = .ok tenant) :
    trust.tenantId = some tenant := by
  simp only [tenantWriteChecks, bind_eq_ok_iff, present_eq_ok_iff] at h
  obtain ⟨_, -, found, hfound, _, -, h⟩ := h
  have heq : found = tenant := by
    split at h
    · simp only [bind_eq_ok_iff, pure_eq_ok_iff] at h
      obtain ⟨_, -, _, -, heq⟩ := h
      exact heq
    · exact pure_eq_ok_iff.1 h
  rw [← heq]
  exact hfound

variable {id : NoteId}

theorem restoreChecks_ok (h : api.restoreChecks v trust req = .ok (tenant, id)) :
    trust.tenantId = some tenant ∧ ∃ ref, api.resolveNoteRefOpt v.answers tenant req.noteId = some ref ∧
      enforceIdentityWriteGuard trust (resolveTitleSectionFailclosed v.state tenant ref).2
        (resolveTitleSectionFailclosed v.state tenant ref).1 = .ok () ∧ id = ref.id := by
  simp only [restoreChecks, bind_eq_ok_iff, pure_eq_ok_iff] at h
  obtain ⟨found, hfound, ref, href, _, hguard, heq⟩ := h
  cases heq
  refine ⟨vaultWriteChecks_ok hfound, ref, ?_, hguard, rfl⟩
  unfold Api.resolveNoteRefStrict at href
  split at href
  · rename_i ref' href'
    cases href
    exact href'
  · cases href

theorem patchChecks_ok (h : api.patchChecks v trust id = .ok tenant) :
    trust.tenantId = some tenant ∧ api.guardText v trust tenant (ulidText id) = .ok () := by
  simp only [patchChecks, bind_eq_ok_iff, pure_eq_ok_iff] at h
  obtain ⟨found, hfound, _, hguard, rfl⟩ := h
  exact ⟨tenantWriteChecks_ok hfound, hguard⟩

theorem moveChecks_ok (h : api.moveChecks v trust text = .ok tenant) :
    trust.tenantId = some tenant ∧ api.guardText v trust tenant text = .ok () := by
  simp only [moveChecks, bind_eq_ok_iff, pure_eq_ok_iff] at h
  obtain ⟨found, hfound, _, hguard, rfl⟩ := h
  exact ⟨tenantWriteChecks_ok hfound, hguard⟩

theorem downgradeChecks_ok (h : api.downgradeChecks v trust req = .ok (tenant, id, replacedBy)) :
    trust.tenantId = some tenant ∧ api.guardText v trust tenant req.noteId = .ok () ∧
      api.parseUlid req.noteId = some id ∧ api.restrictChildren v tenant id = .ok () := by
  simp only [downgradeChecks, bind_eq_ok_iff, present_eq_ok_iff, pure_eq_ok_iff] at h
  obtain ⟨found, hfound, _, hguard, parsed, hpars, _, -, _, hrestrict, heq⟩ := h
  cases heq
  exact ⟨vaultWriteChecks_ok hfound, hguard, hpars, hrestrict⟩

theorem patchColumns_snd : (api.patchColumns tenant now id reason replacedBy s).2 = s ∨
      ∃ other, (api.patchColumns tenant now id reason replacedBy s).2 =
        (s.patchNoteStatus tenant now id none reason other).2 := by
  unfold patchColumns
  split
  · exact .inl rfl
  · rename_i other _
    exact .inr ⟨other, ofMutation_snd _⟩

variable (api v trust)

theorem patchNoteImpl_cases (input : PatchInput) (id : NoteId) (body : NoteStatusPatch) :
    (api.patchNoteImpl v trust input id body).2 = v.state ∨
      ∃ tenant s, api.patchChecks v trust id = .ok tenant ∧
        (s = v.state ∨ ∃ target, s = (api.server.vault.updateNoteStatus tenant input.changed input.write
          target body.statusReason id v.state).2) ∧
        ((api.patchNoteImpl v trust input id body).2 = s ∨ ∃ reason other,
          (api.patchNoteImpl v trust input id body).2 =
            (s.patchNoteStatus tenant input.now id none reason other).2) := by
  unfold patchNoteImpl
  split
  · exact .inl rfl
  rename_i tenant hchks
  split
  · refine .inr ⟨tenant, v.state, hchks, .inl rfl, ?_⟩
    exact patchColumns_snd.imp_right fun ⟨other, h⟩ => ⟨_, other, h⟩
  split
  · exact .inl rfl
  rename_i target _
  split
  · rename_i e s hreply
    exact .inr ⟨tenant, s, hchks, .inr ⟨target, by rw [hreply]⟩, .inl rfl⟩
  rename_i s hreply
  refine .inr ⟨tenant, s, hchks, .inr ⟨target, by rw [hreply]⟩, ?_⟩
  split
  · exact patchColumns_snd.imp_right fun ⟨other, h⟩ => ⟨_, other, h⟩
  · exact .inl rfl

theorem patchNote_cases (input : PatchInput) (text : String) (body : NoteStatusPatch) :
    (api.patchNote v trust input text body).2 = v.state ∨ ∃ id, api.parseUlid text = some id ∧
        ((api.patchNote v trust input text body).2 = (api.patchNoteImpl v trust input id body).2 ∨
          ∃ tenant tags, trust.tenantId = some tenant ∧
            (api.patchNoteImpl v trust input id body).1 = .ok () ∧
            (api.patchNote v trust input text body).2 = (api.server.vault.addTags tenant input.tags tags id
              (api.patchNoteImpl v trust input id body).2).2) := by
  unfold patchNote
  split
  · exact .inl rfl
  rename_i id hid
  split
  · exact .inl rfl
  split
  · exact .inl rfl
  refine .inr ⟨id, hid, ?_⟩
  split
  · rename_i e s hreply
    exact .inl (by rw [hreply])
  rename_i s hreply
  split
  · rename_i tags tenant _ hten
    refine .inr ⟨tenant, unionTags [] tags, hten, by rw [hreply], ?_⟩
    rw [ofAddTags_snd, hreply]
  · exact .inl (by rw [hreply])

theorem vaultDowngrade_cases (now : Int) (req : VaultDowngradeRequest) :
    (api.vaultDowngrade v trust now req).2 = v.state ∨ ∃ tenant id replacedBy, ∃ f : NoteRow → NoteRow,
        api.downgradeChecks v trust req = .ok (tenant, id, replacedBy) ∧
        (∀ row, (f row).status = .downgraded) ∧
        (api.vaultDowngrade v trust now req).2 = v.state.updateRow ⟨tenant, id⟩ f := by
  unfold vaultDowngrade
  split
  · exact .inl rfl
  rename_i tenant id replacedBy hchks
  rw [ofMutation_snd]
  unfold VaultState.downgradeNote
  split
  · exact .inl rfl
  split
  · exact .inl rfl
  · exact .inr ⟨tenant, id, replacedBy, _, hchks, fun _ => rfl, VaultState.updateExisting_snd _ _ _⟩

theorem moveNoteLocus_cases (input : WriteInput) (text : String) (locus : LocusId) :
    (api.moveNoteLocus v trust input text locus).2 = v.state ∨
      ∃ tenant id, api.parseUlid text = some id ∧ api.moveChecks v trust text = .ok tenant ∧
        tenant = api.server.vault.vaultId ∧ (api.moveNoteLocus v trust input text locus).2 =
          (api.server.vault.moveLocus input locus id v.state).2 := by
  unfold moveNoteLocus Vault.ensureWitnessOwnsVault
  split
  · exact .inl rfl
  rename_i id hid
  split
  · exact .inl rfl
  rename_i tenant hchks
  split
  · exact .inl rfl
  rename_i hserv
  split at hserv
  · cases hserv
  · rename_i hsame
    exact .inr ⟨tenant, id, hid, hchks, not_not.1 hsame, ofMutation_snd _⟩

end Cases

/-! ## 5. The vault after a request

A write goes to the vault that the frontmatter of the note names, so it may add a row there. -/

section Rows

variable {api : WriteApi} {v : IndexedVault} {trust : TrustContext} {s : VaultState} {id : NoteId}

theorem rows_updateRow (h : (s.updateRow key f).notes key' = some row) : (s.notes key').isSome := by
  by_cases hkey : key' = key
  · rw [hkey, VaultState.updateRow_self, Option.map_eq_some_iff] at h
    obtain ⟨old, hold, -⟩ := h
    rw [hkey]
    exact Option.isSome_of_eq_some hold
  · rw [VaultState.updateRow_of_ne _ _ hkey] at h
    exact Option.isSome_of_eq_some h

theorem rows_vaultDowngrade (h : (api.vaultDowngrade v trust now req).2.notes key = some row) :
    (v.state.notes key).isSome ∨ key ∈ ([] : List NoteKey) := by
  left
  rcases api.vaultDowngrade_cases v trust now req with
    hsame | ⟨tenant, id, replacedBy, f, -, -, hnew⟩
  · rw [hsame] at h
    exact Option.isSome_of_eq_some h
  · rw [hnew] at h
    exact rows_updateRow h

def writtenKeys (api : WriteApi) (s : VaultState) (id : NoteId) : List NoteKey :=
  (api.server.vault.readNote s id).toList.map fun note =>
    api.server.vault.writeKey note.frontmatter.vaultId id

theorem rows_commit (hnote : api.server.vault.readNote s id = some note)
    (h : (api.server.vault.commit input
      (api.server.vault.judged input frontmatter body id none s) s).notes key = some row)
    (hvault : frontmatter.vaultId = note.frontmatter.vaultId) :
    (s.notes key).isSome ∨ key ∈ api.writtenKeys s id := by
  rcases (Vault.rowStep_commit input frontmatter body id none s key).status row h with
    ⟨old, hold, -⟩ | ⟨hkey, -⟩
  · exact .inl (Option.isSome_of_eq_some hold)
  right
  rw [writtenKeys, hnote, hkey, hvault]
  exact List.mem_cons_self

theorem rows_patchNoteImpl (h : (api.patchNoteImpl v trust input id body).2.notes key = some row) :
    (v.state.notes key).isSome ∨ key ∈ api.writtenKeys v.state id := by
  rcases api.patchNoteImpl_cases v trust input id body with hsame | ⟨tenant, s, -, hstat, hcols⟩
  · rw [hsame] at h
    exact .inl (Option.isSome_of_eq_some h)
  have hrow : (s.notes key).isSome := by
    rcases hcols with hsame | ⟨reason, other, hnew⟩
    · rw [hsame] at h
      exact Option.isSome_of_eq_some h
    · rw [hnew, VaultState.patchNoteStatus, VaultState.updateExisting_snd] at h
      exact rows_updateRow h
  obtain ⟨found, hfound⟩ := Option.isSome_iff_exists.1 hrow
  rcases hstat with rfl | ⟨target, rfl⟩
  · exact .inl hrow
  rcases updateNoteStatus_cases (v := api.server.vault) tenant input.changed input.write target
    body.statusReason id v.state with hsame | ⟨note, hnote, -, hnew⟩
  · rw [hsame] at hrow
    exact .inl hrow
  · rw [hnew] at hfound
    exact rows_commit hnote hfound rfl

def patchedKeys (api : WriteApi) (v : IndexedVault) (trust : TrustContext) (input : PatchInput)
    (text : String) (body : NoteStatusPatch) : List NoteKey :=
  match api.parseUlid text with
  | none => []
  | some id =>
    api.writtenKeys v.state id ++ api.writtenKeys (api.patchNoteImpl v trust input id body).2 id

theorem rows_patchNote (h : (api.patchNote v trust input text body).2.notes key = some row) :
    (v.state.notes key).isSome ∨ key ∈ api.patchedKeys v trust input text body := by
  rcases api.patchNote_cases v trust input text body with hsame | ⟨id, hid, hpatch⟩
  · rw [hsame] at h
    exact .inl (Option.isSome_of_eq_some h)
  rw [patchedKeys, hid]
  dsimp only
  rw [List.mem_append, ← or_assoc]
  rcases hpatch with hsame | ⟨tenant, tags, -, -, htags⟩
  · rw [hsame] at h
    exact .inl (rows_patchNoteImpl h)
  rw [htags] at h
  rcases addTags_cases (v := api.server.vault) tenant input.tags tags id
    (api.patchNoteImpl v trust input id body).2 with hsame | ⟨note, hnote, -, hnew⟩
  · rw [hsame] at h
    exact .inl (rows_patchNoteImpl h)
  rw [hnew] at h
  refine (rows_commit hnote h rfl).imp_left fun hrow => ?_
  obtain ⟨found, hfound⟩ := Option.isSome_iff_exists.1 hrow
  exact rows_patchNoteImpl hfound

def restoredKeys (api : WriteApi) (v : IndexedVault) (trust : TrustContext) (req : VaultRestoreRequest) :
    List NoteKey :=
  match api.restoreChecks v trust req with
  | .error _ => []
  | .ok (_, id) => (api.server.vault.historyGet v.state id req.tsMs).toList.map fun snapshot =>
    api.server.vault.writeKey snapshot.frontmatter.vaultId id

theorem rows_vaultRestore (h : (api.vaultRestore v trust input req).2.notes key = some row) :
    (v.state.notes key).isSome ∨ key ∈ api.restoredKeys v trust req := by
  unfold vaultRestore at h
  unfold restoredKeys
  split at h
  · exact .inl (Option.isSome_of_eq_some h)
  rename_i tenant id hchks
  rw [ofMutation_snd] at h
  rcases (rowStep_historyRestore tenant input id req.tsMs).status row h with
    ⟨old, hold, -⟩ | ⟨snapshot, hsnap, hkey, -⟩
  · exact .inl (Option.isSome_of_eq_some hold)
  right
  rw [hsnap, hkey]
  exact List.mem_cons_self

def movedKeys (api : WriteApi) (v : IndexedVault) (text : String) : List NoteKey :=
  (api.parseUlid text).toList.flatMap (api.writtenKeys v.state)

theorem rows_moveNoteLocus (h : (api.moveNoteLocus v trust input text locus).2.notes key = some row) :
    (v.state.notes key).isSome ∨ key ∈ api.movedKeys v text := by
  rcases api.moveNoteLocus_cases v trust input text locus with hsame | ⟨tenant, id, hid, -, -, hnew⟩
  · rw [hsame] at h
    exact .inl (Option.isSome_of_eq_some h)
  rw [hnew] at h
  have hstep : RowStep _ (v.state.notes key)
      ((api.server.vault.moveLocus input locus id v.state).2.notes key) := rowStep_moveLocus input locus id
  rcases hstep.status row h with ⟨old, hold, -⟩ | ⟨note, hnote, hkey, -⟩
  · exact .inl (Option.isSome_of_eq_some hold)
  right
  rw [movedKeys, hid, Option.toList_some, List.flatMap_singleton, writtenKeys, hnote, hkey]
  exact List.mem_cons_self

end Rows

variable (api : WriteApi) (v : IndexedVault) (trust : TrustContext)

def afterRestore (input : WriteInput) (req : VaultRestoreRequest) : IndexedVault :=
  v.update (api.restoredKeys v trust req) (api.vaultRestore v trust input req).2
    fun _ _ => rows_vaultRestore

def afterDowngrade (now : Int) (req : VaultDowngradeRequest) : IndexedVault :=
  v.update [] (api.vaultDowngrade v trust now req).2 fun _ _ => rows_vaultDowngrade

def afterPatch (input : PatchInput) (text : String) (body : NoteStatusPatch) : IndexedVault :=
  v.update (api.patchedKeys v trust input text body) (api.patchNote v trust input text body).2
    fun _ _ => rows_patchNote

def afterMove (input : WriteInput) (text : String) (locus : LocusId) : IndexedVault :=
  v.update (api.movedKeys v text) (api.moveNoteLocus v trust input text locus).2
    fun _ _ => rows_moveNoteLocus

end WriteApi

end Gradatum.Access
