import Gradatum.Access.Cards
import Gradatum.Access.Identity
import Gradatum.Notes.Curated
import Gradatum.ProjectMap.RoleMutation

/-!
# Writing notes

`vault_write` checks a request and enqueues a `Curate` job that stores the note.  The checks of a section are
made for the section that the request hints at.
-/

open Reasoning

namespace Gradatum.Access

open Notes ProjectMap

/-! ## 1. Requests and jobs -/

structure VaultWriteRequest where
  title : String
  body : String
  tenantId : Option VaultId := none
  tags : List String := []
  author : Option String := none
  sectionHint : Option String := none
  noteId : Option String := none
  expectedSha256 : Option String := none
  occurredAt : Option String := none
  deriving DecidableEq

structure CreateFeatureCardRequest where
  title : String
  body : String
  tenantId : Option VaultId := none
  tags : List String := []
  author : Option String := none
  occurredAt : Option String := none

structure MutateRoleItem where
  noteId : String
  roleType : String
  newValue : String
  expectedSha256 : String
  historyLine : Option String := none

inductive FeatureWriteAuthority where
  | external
  | serverAllocated
  deriving DecidableEq

structure CurateSpec where
  noteId : NoteId
  tenantId : VaultId
  title : String
  body : String
  author : Option String
  tags : List String
  sectionHint : Option String
  expectedSha256 : Option ContentHash
  occurredAt : Option String
  deriving DecidableEq

def CurateSpec.key (spec : CurateSpec) : NoteKey := ⟨spec.tenantId, spec.noteId⟩

inductive MutateRoleRefusal where
  | role (e : RoleMutationError)
  | badNoteId (text : String)
  | api (e : ApiError)
  deriving DecidableEq

inductive MutateRoleVerdict where
  | queued (spec : CurateSpec)
  | refused (reason : MutateRoleRefusal)
  | notFound
  | conflict (currentSha256 : Option String)
  deriving DecidableEq

/-- `AppState` with what the write path reads. -/
structure WriteApi extends Api where
  validatePersonCard : String → Except String Unit
  /-- `parse_temporal_str_as_ms`. -/
  parseTemporal : String → Option Int
  /-- The tags that a list of texts is normalised to. -/
  parseTags : List String → List Tag
  rolesOfBody_eq : server.vault.rolesOfBody = rolesOfBody parseUlid
  /-- The instance that writes is that of the vault `main`. -/
  servesMain : server.vault.vaultId = "main"

def hexDigits : List Char := "0123456789abcdef".toList

/-- A digest in lower case. -/
def hexText (hash : ContentHash) : String :=
  String.ofList ((List.range 64).reverse.map fun i => hexDigits.getD (hash / 16 ^ i % 16) '0')

def parseSha256Hex (hex : String) : Option ContentHash :=
  let digits := hex.toList.map fun c => hexDigits.idxOf c.toLower
  if digits.length = 64 ∧ digits.all (· < 16) then
    some (digits.foldl (fun value digit => value * 16 + digit) 0)
  else none

def effectiveAuthor (reqAuthor subject : Option String) : Except ApiError String := do
  require reqAuthor.isNone (.invalidInput
    "author provided: identity comes from the credential, it is not self-declared (R2)")
  match subject with
  | some id => return id
  | none => throw .unauthorized

def debugTexts (texts : List String) : String :=
  "[" ++ String.intercalate ", " (texts.map String.quote) ++ "]"

def personNamespace : String := "person/"

def afterPrefix (pre text : String) : Option String :=
  if pre.toList.isPrefixOf text.toList then some (String.ofList (text.toList.drop pre.length)) else none

def featureText (number : Nat) : String :=
  "F-" ++ (if number < 10 then "0" else "") ++ toString number

def withFeature (body feature : String) : String := body ++ "\n\n[[feature:" ++ feature ++ "]]"

def MutateRoleItem.line (item : MutateRoleItem) : Option String :=
  item.historyLine.filter (trim ·.toList ≠ [])

namespace WriteApi

variable (api : WriteApi) (v : IndexedVault)

/-! ## 2. Cards -/

def hasExplicitTrack (body : String) : Bool := !(tracksOf (bodyLinks api.parseUlid body)).isEmpty

def injectTrack (tenant : VaultId) (body : String) : String :=
  if api.hasExplicitTrack body then body
  else
    match derivableTrackTarget api.parseUlid body with
    | some want =>
      if isStructureTarget api.parseUlid v tenant want then body ++ "\n\n[[track:" ++ want ++ "]]"
      else body
    | none => body

def prepareCard (tenant : VaultId) (req : VaultWriteRequest) : Except ApiError VaultWriteRequest := do
  let body := api.injectTrack v tenant req.body
  match validateCardBody api.parseUlid body with
  | .error e => throw (.invalidInput ("project-map schema: " ++ e.message))
  | .ok () => pure ()
  -- an injected track has been resolved
  if api.hasExplicitTrack req.body then
    enforceExplicitTrack api.parseUlid v tenant (bodyLinks api.parseUlid body)
  return { req with body := body, title := deriveCanonicalTitle api.parseUlid body req.title }

def isCardHint (req : VaultWriteRequest) : Bool := req.sectionHint = some Section.projectMap.asStr

def prepare (tenant : VaultId) (req : VaultWriteRequest) : Except ApiError VaultWriteRequest :=
  if isCardHint req then api.prepareCard v tenant req else .ok req

/-- The identities that the guard compares: those of links anywhere in the body. -/
def featureIdentity (body : String) : List String :=
  featureIdentityFromTargets api.parseUlid (extractWikilinks body)

def existingIdentity (tenant : VaultId) (req : VaultWriteRequest) (id : NoteId) :
    Except ApiError (List String) :=
  if req.noteId.isSome then do
    let reader ← api.readBackReader tenant
    return match reader.readNote v.state id with
      | some note => api.featureIdentity note.body
      | none => []
  else return []

def guardFeature (authority : FeatureWriteAuthority) (tenant : VaultId) (req : VaultWriteRequest)
    (id : NoteId) : Except ApiError Unit :=
  if authority = .external ∧ isCardHint req then do
    let submitted := api.featureIdentity req.body
    let current ← api.existingIdentity v tenant req id
    require (submitted = current) (.invalidInput
      ("project-map: the [[feature:…]] role is immutable (card identity) — current " ++
        debugTexts current ++ ", submitted " ++ debugTexts submitted ++ ". Create through " ++
        "create_feature_card; a rename is a new card plus [[supersedes:]] on the old one."))
  else return ()

/-! ## 3. The other checks -/

def checkMessaging (req : VaultWriteRequest) : Except ApiError Unit :=
  require (req.sectionHint ≠ some Section.messaging.asStr)
    (.invalidInput "messaging: reserved section, write only via message_send")

def isIdentityHint (req : VaultWriteRequest) : Bool := req.sectionHint = some Section.identity.asStr

def checkPerson (privileged : Bool) (person : String) (req : VaultWriteRequest) :
    Except ApiError Unit := do
  require (person ≠ "")
    (.invalidInput "person: title must be identity/person/<id> (non-empty id)")
  require privileged
    (.forbidden "person: identity/person/* is writable only via the identity_write scope")
  (api.validatePersonCard req.body).mapError fun e => .invalidInput ("person schema: " ++ e)

def checkSoul (privileged : Bool) (caller target : String) (req : VaultWriteRequest) :
    Except ApiError Unit := do
  require (privileged || target = caller)
    (.forbidden "identity: an agent may only write its own soul")
  (validateSoul req.body).mapError fun e => .invalidInput ("identity schema: " ++ e.message)

variable (trust : TrustContext)

def checkIdentity (req : VaultWriteRequest) : Except ApiError Unit := do
  require (!("identity/".toList.isPrefixOf req.title.toList && !isIdentityHint req)) (.invalidInput
    "identity: section_hint=\"identity\" required when the title starts with identity/")
  if isIdentityHint req then
    let target := targetAgent (some req.title)
    require (target ≠ "") (.invalidInput "identity: title must be identity/<agent-id> (non-empty)")
    let privileged := trust.hasScope identityWriteScope
    match afterPrefix personNamespace target with
    | some person => api.checkPerson privileged person req
    | none => checkSoul privileged (trust.subject.getD "") target req

def preallocatedId (fresh : NoteId) (req : VaultWriteRequest) : Except ApiError NoteId :=
  match req.noteId with
  | none => .ok fresh
  | some text =>
    match api.parseUlid text with
    | some id => .ok id
    | none => .error (.invalidInput ("invalid note_id " ++ echoRef text ++
        " — a bare pre-allocated ULID is expected (this endpoint does not resolve " ++
        "\"section/ULID\", titles or slugs)"))

def checkSha (req : VaultWriteRequest) : Except ApiError Unit :=
  require (!(req.noteId.isSome && req.expectedSha256.any fun sha => (parseSha256Hex sha).isNone))
    (.invalidInput "malformed expected_sha256")

/-- A note that is there is replaced with its hash only, and a row without a file without one. -/
def guardOverwrite (tenant : VaultId) (req : VaultWriteRequest) (id : NoteId) :
    Except ApiError Unit :=
  if req.noteId.isNone then return ()
  -- a note of another vault than `main` that the index does not know is new
  else if tenant ≠ "main" ∧ (v.state.notes ⟨tenant, id⟩).isNone then return ()
  else do
    let reader ← api.readBackReader tenant
    match reader.readNote v.state id with
    | some _ =>
      require req.expectedSha256.isSome (.conflict "overwrite without expected_sha256")
    | none =>
      require (!(req.expectedSha256.isSome && (v.state.notes ⟨reader.vaultId, id⟩).isSome))
        (.conflict "ghost note (.md missing): expected_sha256 unverifiable")

def checkOccurredAt (req : VaultWriteRequest) : Except ApiError Unit :=
  require (req.occurredAt.all fun text => (api.parseTemporal text).isSome)
    (.invalidInput "invalid occurred_at")

/-! ## 4. The handlers -/

def buildCurateJob (req : VaultWriteRequest) (author : String) (id : NoteId) (tenant : VaultId) :
    CurateSpec where
  noteId := id
  tenantId := tenant
  title := req.title
  body := req.body
  author := some author
  tags := req.tags
  sectionHint := req.sectionHint
  expectedSha256 := req.expectedSha256.bind parseSha256Hex
  occurredAt := req.occurredAt

/-- The checks that `vault_write` makes before the job is enqueued.  `fresh` is the ULID it generates. -/
def vaultWrite (authority : FeatureWriteAuthority) (fresh : NoteId)
    (req : VaultWriteRequest) : Except ApiError CurateSpec := do
  require trust.isAuthenticated .unauthorized
  let tenant ← orForbidden "tenant cross mismatch" (api.policy.effectiveWriteVault trust req.tenantId)
  require (api.policy.acl trust .write (tenant ++ "/main")) (.forbidden "acl deny")
  let req ← api.prepare v tenant req
  checkMessaging req
  api.checkIdentity trust req
  let id ← api.preallocatedId fresh req
  api.guardFeature v authority tenant req id
  checkSha req
  api.guardOverwrite v tenant req id
  api.checkOccurredAt req
  let author ← effectiveAuthor req.author trust.subject
  return buildCurateJob req author id tenant

def vaultWriteChecks (tenantId : Option VaultId) : Except ApiError VaultId := do
  require trust.isAuthenticated .unauthorized
  let tenant ← orForbidden "tenant cross mismatch" (api.policy.effectiveWriteVault trust tenantId)
  require (api.policy.acl trust .write (tenant ++ "/main")) (.forbidden "acl deny write")
  return tenant

/-- The checks before a number is allocated. -/
def admitFeatureCard (req : CreateFeatureCardRequest) : Except ApiError VaultId := do
  let tenant ← api.vaultWriteChecks trust req.tenantId
  require (!(extractWikilinks req.body).any fun target =>
      "feature:".toList.isPrefixOf (trimStart target.toList))
    (.invalidInput ("create_feature_card: the body must not carry a [[feature:…]] link — " ++
      "the server assigns the number"))
  -- a body that is not a card uses up no number
  match validateCardBody api.parseUlid (withFeature req.body "F-00") with
  | .error e => throw (.invalidInput ("project-map schema: " ++ e.message))
  | .ok () => return tenant

def featureWrite (tenant : VaultId) (number : Nat) (req : CreateFeatureCardRequest) : VaultWriteRequest where
  title := req.title
  body := withFeature req.body (featureText number)
  tenantId := some tenant
  tags := req.tags
  author := req.author
  sectionHint := some Section.projectMap.asStr
  occurredAt := req.occurredAt

/-- `number` is the one that the index allocates. -/
def createFeatureCard (number : Nat) (fresh : NoteId)
    (req : CreateFeatureCardRequest) : Except ApiError CurateSpec := do
  let tenant ← api.admitFeatureCard trust req
  api.vaultWrite v trust .serverAllocated fresh (featureWrite tenant number req)

def currentCardTitle (tenant : VaultId) (ref : NoteRef) (body : String) : String :=
  let indexed := ((getTitleSection v.state tenant ref).bind Prod.fst).filter (trim ·.toList ≠ [])
  (indexed.or (extractH1Title body)).getD ""

def mutatedBody (role : MutableRole) (item : MutateRoleItem) (body : String) :
    Except RoleMutationError String := do
  match item.line with
  | some line => validateHistoryLine line
  | none => pure ()
  let mutated ← mutateTypedRole api.parseUlid body role item.newValue
  return match item.line with
    | some line => appendHistoryLine mutated line
    | none => mutated

def roleWrite (tenant : VaultId) (item : MutateRoleItem) :
    Except MutateRoleVerdict VaultWriteRequest := do
  let role ← (MutableRole.fromWire item.roleType).mapError fun e => .refused (.role e)
  let reader ← (api.readBackReader tenant).mapError fun e => .refused (.api e)
  let id ← present (api.parseUlid item.noteId) (.refused (.badNoteId item.noteId))
  let note ← present (reader.readNote v.state id) .notFound
  let currentSha := hexText note.contentHash
  require (item.expectedSha256 = currentSha) (.conflict (some currentSha))
  let body ← (api.mutatedBody role item note.body).mapError fun e => .refused (.role e)
  return {
    title := currentCardTitle v tenant ⟨item.noteId, id⟩ note.body
    body := body
    tenantId := some tenant
    tags := note.frontmatter.tags
    sectionHint := some Section.projectMap.asStr
    noteId := some item.noteId
    expectedSha256 := some item.expectedSha256 }

def mutateOneRole (tenant : VaultId) (item : MutateRoleItem) :
    MutateRoleVerdict :=
  match api.roleWrite v tenant item with
  | .error verdict => verdict
  | .ok req =>
    -- the request names its note, so no ULID is generated
    match api.vaultWrite v trust .external 0 req with
    | .ok spec => .queued spec
    | .error (.conflict _) => .conflict none
    | .error (.noteNotFound _) => .notFound
    | .error e => .refused (.api e)

/-- `vault_mutate_role`, for one item.  Each item of a request gets its own verdict, and jobs may run
between two of them, so a longer request is several of these. -/
def mutateRole (tenantId : Option VaultId)
    (item : MutateRoleItem) : Except ApiError MutateRoleVerdict := do
  let tenant ← api.vaultWriteChecks trust tenantId
  return api.mutateOneRole v trust tenant item

/-! ## 5. What an accepted write has passed -/

/-- The checks that the write of `req` passed on its way to the job `spec`.  `prepared` is the request as
the section of its hint leaves it. -/
structure Accepted (api : WriteApi) (v : IndexedVault) (trust : TrustContext)
    (authority : FeatureWriteAuthority) (fresh : NoteId) (req prepared : VaultWriteRequest)
    (spec : CurateSpec) : Prop where
  authenticated : trust.isAuthenticated = true
  tenant : api.policy.effectiveWriteVault trust req.tenantId = .ok spec.tenantId
  acl : api.policy.acl trust .write (spec.tenantId ++ "/main") = true
  prepares : api.prepare v spec.tenantId req = .ok prepared
  messaging : checkMessaging prepared = .ok ()
  identity : api.checkIdentity trust prepared = .ok ()
  id : api.preallocatedId fresh prepared = .ok spec.noteId
  feature : api.guardFeature v authority spec.tenantId prepared spec.noteId = .ok ()
  sha : checkSha prepared = .ok ()
  overwrite : api.guardOverwrite v spec.tenantId prepared spec.noteId = .ok ()
  author : effectiveAuthor prepared.author trust.subject = .ok (spec.author.getD "")
  job : spec = buildCurateJob prepared (spec.author.getD "") spec.noteId spec.tenantId

variable {api} {v} {trust : TrustContext}

theorem vaultWrite_ok (h : api.vaultWrite v trust authority fresh req = .ok spec) :
    ∃ prepared, Accepted api v trust authority fresh req prepared spec := by
  simp only [vaultWrite, bind_eq_ok_iff, require_eq_ok_iff, orForbidden_eq_ok_iff, pure_eq_ok_iff,
    exists_const] at h
  obtain ⟨hauth, tenant, hten, hacl, prepared, hprep, _, hmes, _, hidentity, id, hid, _,
    hfeat, _, hsha, _, hover, -, -, author, hautho, rfl⟩ := h
  exact ⟨prepared, hauth, hten, hacl, hprep, hmes, hidentity, hid, hfeat, hsha,
    hover, hautho, rfl⟩

theorem prepareCard_ok (h : api.prepareCard v tenant req = .ok prepared) : prepared = { req with
        body := api.injectTrack v tenant req.body
        title := deriveCanonicalTitle api.parseUlid (api.injectTrack v tenant req.body) req.title } ∧
      validateCardBody api.parseUlid (api.injectTrack v tenant req.body) = .ok () ∧
      (api.hasExplicitTrack req.body = true →
        enforceExplicitTrack api.parseUlid v tenant
          (bodyLinks api.parseUlid (api.injectTrack v tenant req.body)) = .ok ()) := by
  unfold prepareCard at h
  dsimp only at h
  split at h
  · cases h
  rename_i hvalid
  split at h
  · rename_i hexpl
    rw [bind_eq_ok_iff] at h
    obtain ⟨_, hcheck, h⟩ := h
    exact ⟨(pure_eq_ok_iff.1 h).symm, hvalid, fun _ => hcheck⟩
  · rename_i hexpl
    exact ⟨(pure_eq_ok_iff.1 h).symm, hvalid, fun hcard => absurd hcard hexpl⟩

theorem prepare_ok (h : api.prepare v tenant req = .ok prepared) :
    (isCardHint req = true ∧ api.prepareCard v tenant req = .ok prepared) ∨
      (isCardHint req = false ∧ prepared = req) := by
  unfold prepare at h
  split at h
  · rename_i hcard
    exact .inl ⟨hcard, h⟩
  rename_i hcard
  cases h
  exact .inr ⟨Bool.eq_false_of_not_eq_true hcard, rfl⟩

theorem prepare_keeps (h : api.prepare v tenant req = .ok prepared) :
    prepared.noteId = req.noteId ∧ prepared.sectionHint = req.sectionHint := by
  rcases prepare_ok h with ⟨-, hcard⟩ | ⟨-, rfl⟩
  · rw [(prepareCard_ok hcard).1]
    exact ⟨rfl, rfl⟩
  · exact ⟨rfl, rfl⟩

theorem Accepted.preallocated (h : Accepted api v trust authority fresh req prepared spec) :
    api.preallocatedId fresh req = .ok spec.noteId := by
  rw [← h.id, preallocatedId, preallocatedId, (prepare_keeps h.prepares).1]

theorem createFeatureCard_noteId
    (h : api.createFeatureCard v trust number fresh req = .ok spec) : spec.noteId = fresh := by
  simp only [createFeatureCard, bind_eq_ok_iff] at h
  obtain ⟨tenant, -, h⟩ := h
  obtain ⟨prepared, hacc⟩ := vaultWrite_ok h
  exact (Except.ok.inj hacc.preallocated).symm

theorem roleWrite_ok (h : api.roleWrite v tenant item = .ok req) : ∃ role reader id note body,
      MutableRole.fromWire item.roleType = .ok role ∧ api.readBackReader tenant = .ok reader ∧
      api.parseUlid item.noteId = some id ∧ reader.readNote v.state id = some note ∧
      item.expectedSha256 = hexText note.contentHash ∧
      api.mutatedBody role item note.body = .ok body ∧
      req = {
        title := currentCardTitle v tenant ⟨item.noteId, id⟩ note.body
        body := body
        tenantId := some tenant
        tags := note.frontmatter.tags
        sectionHint := some Section.projectMap.asStr
        noteId := some item.noteId
        expectedSha256 := some item.expectedSha256 } := by
  simp only [roleWrite, bind_eq_ok_iff, mapError_eq_ok_iff, present_eq_ok_iff, require_eq_ok_iff,
    decide_eq_true_eq, pure_eq_ok_iff] at h
  obtain ⟨role, hrole, reader, hreader, id, hid, note, hnote, _, hsha, body, hbody, hreq⟩ := h
  exact ⟨role, reader, id, note, body, hrole, hreader, hid, hnote, hsha, hbody, hreq.symm⟩

theorem roleWrite_ne_queued (h : api.roleWrite v tenant item = .error verdict) :
    verdict ≠ .queued spec := by
  rintro rfl
  simp only [roleWrite, bind_eq_error_iff] at h
  rcases h with hrole | ⟨_, -, hreader | ⟨_, -, hid | ⟨_, -, hnote | ⟨_, -, hsha |
    ⟨_, -, hbody | ⟨_, -, hreq⟩⟩⟩⟩⟩⟩
  · cases (error_of_mapError hrole).choose_spec
  · cases (error_of_mapError hreader).choose_spec
  · cases error_of_present hid
  · cases error_of_present hnote
  · cases error_of_require hsha
  · cases (error_of_mapError hbody).choose_spec
  · cases hreq

theorem vaultWriteChecks_ok (h : api.vaultWriteChecks trust tenantId = .ok tenant) :
    trust.tenantId = some tenant := by
  simp only [vaultWriteChecks, bind_eq_ok_iff, orForbidden_eq_ok_iff, pure_eq_ok_iff] at h
  obtain ⟨_, -, found, hfound, _, -, heq⟩ := h
  rw [← heq]
  exact effectiveWriteVault_tenantId hfound

theorem mutateRole_queued (h : api.mutateRole v trust tenantId item = .ok (.queued spec)) :
    ∃ req, api.roleWrite v spec.tenantId item = .ok req ∧
      api.vaultWrite v trust .external 0 req = .ok spec := by
  simp only [mutateRole, bind_eq_ok_iff, pure_eq_ok_iff] at h
  obtain ⟨tenant, hten, h⟩ := h
  unfold mutateOneRole at h
  split at h
  · rename_i verdict hverd
    exact absurd h (roleWrite_ne_queued hverd)
  rename_i req hreq
  split at h
  · rename_i spec' hwrite
    cases h
    obtain ⟨prepared, hacc⟩ := vaultWrite_ok hwrite
    have hsame := (vaultWriteChecks_ok hten).symm.trans (effectiveWriteVault_tenantId hacc.tenant)
    cases hsame
    exact ⟨req, hreq, hwrite⟩
  · cases h
  · cases h
  · cases h

end WriteApi

def plainWriteApi : WriteApi where
  toApi :=
    { plainApi with
      server :=
        { plainApi.server with
          vault := { plainServer.vault with rolesOfBody := rolesOfBody plainApi.parseUlid } } }
  validatePersonCard := fun _ => .ok ()
  parseTemporal := fun _ => none
  parseTags := id
  rolesOfBody_eq := rfl
  servesMain := rfl

end Gradatum.Access
