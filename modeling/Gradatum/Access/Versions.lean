import Gradatum.Access.Api
import Gradatum.Notes.Distill
import Gradatum.Notes.Mutation

/-!
# Reading versions of notes

`vault_read`, `vault_history_get` and `vault_diff` answer with lines of versions.  A line of an answer carries
the versions that it is a line of.
-/

open Reasoning

namespace Gradatum.Access

open Notes List

/-! ## 1. Versions and their lines -/

structure StoredVersion where
  vault : VaultId
  note : Note
  title : Option String

structure Line where
  text : String
  sources : List StoredVersion

def StoredVersion.lines (version : StoredVersion) : List Line :=
  (textLines version.note.body).map fun text => ⟨text, [version]⟩

def diffLinesBrut : List Line → List Line → List Line
  | [], bs => bs.map fun lb => ⟨s!"+{lb.text}", lb.sources⟩
  | la :: as, [] => ⟨s!"-{la.text}", la.sources⟩ :: diffLinesBrut as []
  | la :: as, lb :: bs =>
    if la.text = lb.text then ⟨s!" {la.text}", la.sources ++ lb.sources⟩ :: diffLinesBrut as bs
    else ⟨s!"-{la.text}", la.sources⟩ :: ⟨s!"+{lb.text}", lb.sources⟩ :: diffLinesBrut as bs

/-- A title that is blank counts as none. -/
def nonblank (title : Option String) : Option String := title.filter fun t => trim t.toList ≠ []

inductive Selector where
  | current
  | at (stamp : Int)
  deriving DecidableEq

def parseI64 (text : String) : Option Int :=
  let (negative, digits) := match text.toList with
    | '-' :: digits => (true, digits)
    | '+' :: digits => (false, digits)
    | digits => (false, digits)
  let value : Int := digits.foldl (fun n c => 10 * n + (c.toNat - '0'.toNat)) 0
  let signed := if negative then -value else value
  if digits ≠ [] ∧ digits.all Char.isDigit ∧ -2 ^ 63 ≤ signed ∧ signed < 2 ^ 63 then some signed
  else none

def parseSelector (text : String) : Option Selector :=
  if text = "current" then some .current else (parseI64 text).map .at

section Versions

variable (v : Vault) (s : VaultState) (id : NoteId)

/-- The title of the current version is in the index; a note without one has the heading of its body. -/
def currentVersion : Option StoredVersion :=
  (v.readNote s id).map fun note =>
    ⟨v.vaultId, note, (nonblank ((s.notes ⟨v.vaultId, id⟩).bind (·.title))).or
      (extractH1Title note.body)⟩

def snapshotVersion (stamp : Int) : Option StoredVersion :=
  (v.historyGet s id stamp).map fun note => ⟨v.vaultId, note, extractH1Title note.body⟩

def selectVersion : Selector → Option StoredVersion
  | .current => currentVersion v s id
  | .at stamp => snapshotVersion v s id stamp

/-- What the storage says about a version it does not find is left out of the message. -/
def resolveHistoryBody (selector : Selector) : Except ApiError StoredVersion :=
  match selector, selectVersion v s id selector with
  | _, some version => .ok version
  | .current, none => .error (.storage "resolve_history_body current: ")
  | .at _, none => .error (.storage "resolve_history_body snapshot: ")

end Versions

/-! ## 2. The handlers -/

structure VaultReadRequest where
  tenantId : Option VaultId
  path : String
  «section» : Option String

structure VaultReadResponse where
  path : NoteId
  title : Option String
  /-- The version whose body is the content. -/
  content : StoredVersion
  «section» : Section
  status : RowStatus
  author : Option String
  tags : List Tag
  vaultId : VaultId
  created : Instant
  updated : Option Instant
  sizeBytes : Nat
  sha256 : ContentHash

structure VaultHistoryGetRequest where
  tenantId : Option VaultId
  noteId : String
  tsMs : Int

structure VaultHistoryGetResponse where
  noteId : String
  tsMs : Int
  /-- The version whose body is returned. -/
  body : StoredVersion
  «section» : String

structure VaultDiffRequest where
  tenantId : Option VaultId
  noteId : String
  a : String
  b : String

structure VaultDiffResponse where
  lines : List Line
  count : Nat

def sectionEchoMaxChars : Nat := 64

def validatedSection (sec : Option String) : Except ApiError Unit :=
  let echoed := String.ofList ((sec.getD "").toList.take sectionEchoMaxChars)
  let expected := ", ".intercalate (Section.all.map Section.asStr)
  require (sec.all fun name => (Section.fromCanonicalStr name).isSome)
    (.invalidInput s!"unknown section: {echoed}; expected one of {expected}")

def locusForSection (tenant : VaultId) (sec : Option String) : String :=
  let name := sec.getD "main"
  s!"{tenant}/{name}"

def Policy.allowsClassified (policy : Policy) (trust : TrustContext) (vault : VaultId) : Bool :=
  policy.acl trust .read s!"{vault}/{classifiedTag}"

def readTitle (s : VaultState) (tenant : VaultId) (ref : NoteRef) (body : String) : Option String :=
  (nonblank ((getTitleSection s tenant ref).bind Prod.fst)).or (extractH1Title body)

def orNotFound {α : Type} (e : ApiError) : Option α → Except ApiError α
  | some a => .ok a
  | none => .error e

namespace Api

variable (api : Api) (trust : TrustContext) {s : VaultState} (index : Answers s)

def vaultReadResponse (tenant : VaultId) (title : Option String) (version : StoredVersion) :
    VaultReadResponse :=
  let note := version.note
  let privacyAllowed := api.policy.allowsClassified trust note.frontmatter.vaultId
  { path := note.id
    title := title
    content := version
    «section» := note.frontmatter.section
    status := ((s.notes ⟨tenant, note.id⟩).map (·.status)).getD note.frontmatter.status
    author := note.frontmatter.author.map (·.id)
    tags := note.frontmatter.tags.filter fun tag => privacyAllowed || tag ≠ classifiedTag
    vaultId := note.frontmatter.vaultId
    created := note.frontmatter.created
    updated := note.frontmatter.updated
    sizeBytes := note.body.utf8ByteSize
    sha256 := note.contentHash }

def vaultRead (req : VaultReadRequest) : Except ApiError VaultReadResponse := do
  require trust.isAuthenticated .unauthorized
  validatedSection req.section
  let tenant ← orForbidden "tenant cross mismatch" (effectiveTenant trust req.tenantId)
  require (api.policy.acl trust .read (locusForSection tenant req.section)) (.forbidden "acl deny")
  let path := req.path
  let ref ← orNotFound (.storage s!"not found: {path}") (api.resolveNoteRefOpt index tenant path)
  let reader ← api.readBackReader tenant
  let version ← orNotFound (.noteNotFound ref.id) (currentVersion reader s ref.id)
  let title := readTitle s tenant ref version.note.body
  enforceIdentityReadGuard trust version.note.frontmatter.section.asStr title
  return api.vaultReadResponse (s := s) trust tenant title version

def vaultHistoryGet (req : VaultHistoryGetRequest) : Except ApiError VaultHistoryGetResponse := do
  require trust.isAuthenticated .unauthorized
  let tenant ← orForbidden "tenant cross mismatch" (effectiveTenant trust req.tenantId)
  require (api.policy.acl trust .read s!"{tenant}/main") (.forbidden "acl deny")
  let ref ← api.resolveNoteRefStrict index tenant req.noteId
  let reader ← api.readBackReader tenant
  let snapshot ← orNotFound (.storage "history_get : ") (snapshotVersion reader s ref.id req.tsMs)
  let sec := snapshot.note.frontmatter.section.asStr
  enforceIdentityReadGuard trust sec (extractH1Title snapshot.note.body)
  return ⟨ref.text, req.tsMs, snapshot, sec⟩

/-- The guard goes by the note as the index has it now, and both versions come from the vault that the
server was started for. -/
def vaultDiff (req : VaultDiffRequest) : Except ApiError VaultDiffResponse := do
  require trust.isAuthenticated .unauthorized
  let tenant ← orForbidden "tenant cross mismatch" (effectiveTenant trust req.tenantId)
  require (api.policy.acl trust .read s!"{tenant}/main") (.forbidden "acl deny")
  let invalid := ApiError.invalidInput "invalid selector (expected 'current' or timestamp ms)"
  let a ← orNotFound invalid (parseSelector req.a)
  let b ← orNotFound invalid (parseSelector req.b)
  let ref ← api.resolveNoteRefStrict index tenant req.noteId
  let (title, sec) := resolveTitleSectionFailclosed s tenant ref
  enforceIdentityReadGuard trust sec title
  let versionA ← resolveHistoryBody api.server.vault s ref.id a
  let versionB ← resolveHistoryBody api.server.vault s ref.id b
  let lines := diffLinesBrut versionA.lines versionB.lines
  return ⟨lines, lines.length⟩

end Api

inductive ReadRequest where
  | read (req : VaultReadRequest)
  | historyGet (req : VaultHistoryGetRequest)
  | diff (req : VaultDiffRequest)

def Api.answerLines (api : Api) (trust : TrustContext) {s : VaultState} (index : Answers s) :
    ReadRequest → Except ApiError (List Line)
  | .read req => (api.vaultRead trust index req).map (·.content.lines)
  | .historyGet req => (api.vaultHistoryGet trust index req).map (·.body.lines)
  | .diff req => (api.vaultDiff trust index req).map (·.lines)

/-! ## 3. Where the lines come from -/

def StoredVersion.Readable (caller : String) (tenant : VaultId) (version : StoredVersion) : Prop :=
  version.vault = tenant ∧
    ¬ ForeignSoul caller version.note.frontmatter.section.asStr version.title

def LinesReadable (caller : String) (tenant : VaultId) (lines : List Line) : Prop :=
  ∀ line ∈ lines, ∀ version ∈ line.sources, version.Readable caller tenant

theorem linesFrom_eq_nil (h : linesFrom current rest = []) : current = [] ∧ rest = [] := by
  induction rest generalizing current with
  | nil =>
    rw [linesFrom] at h
    split at h
    · exact ⟨by assumption, rfl⟩
    · cases h
  | cons c rest ih =>
    rw [linesFrom] at h
    split at h
    · cases h
    · cases (ih h).1

variable {version : StoredVersion}

theorem lines_ne_nil_of_heading (h : extractH1Title version.note.body ≠ none) : version.lines ≠ [] := by
  intro hlines
  apply h
  have hchars : version.note.body.toList = [] :=
    (linesFrom_eq_nil (map_eq_nil_iff.1 (map_eq_nil_iff.1 hlines))).2
  rw [extractH1Title, hchars]
  rfl

theorem linesReadable_lines : LinesReadable caller tenant version.lines ↔
      (version.lines ≠ [] → version.Readable caller tenant) := by
  constructor
  · intro hreadable hne
    obtain ⟨line, hline⟩ := exists_mem_of_ne_nil _ hne
    obtain ⟨text, -, rfl⟩ := List.mem_map.1 hline
    exact hreadable _ hline version mem_cons_self
  · intro hreadable line hline source hsrc
    have hne : version.lines ≠ [] := ne_nil_of_mem hline
    obtain ⟨text, -, rfl⟩ := List.mem_map.1 hline
    cases mem_singleton.1 hsrc
    exact hreadable hne

theorem linesReadable_cons : LinesReadable caller tenant (line :: lines) ↔
      (∀ version ∈ line.sources, version.Readable caller tenant) ∧ LinesReadable caller tenant lines :=
  forall_mem_cons

theorem linesReadable_diffLinesBrut (as bs : List Line) :
    LinesReadable caller tenant (diffLinesBrut as bs) ↔
      LinesReadable caller tenant as ∧ LinesReadable caller tenant bs := by
  induction as, bs using diffLinesBrut.induct with
  | case1 bs =>
    rw [diffLinesBrut, LinesReadable, List.forall_mem_map]
    exact (and_iff_right (forall_mem_nil _)).symm
  | case2 la as ih =>
    rw [diffLinesBrut, linesReadable_cons, ih, linesReadable_cons, and_assoc]
  | case3 la as lb bs heq ih =>
    rw [diffLinesBrut, if_pos heq, linesReadable_cons, ih, linesReadable_cons, linesReadable_cons,
      forall_mem_append, and_and_and_comm]
  | case4 la as lb bs hne ih =>
    rw [diffLinesBrut, if_neg hne, linesReadable_cons, linesReadable_cons, ih, linesReadable_cons,
      linesReadable_cons, ← and_assoc, and_and_and_comm]

/-! ## 4. What an answer has passed -/

@[simp] theorem orNotFound_eq_ok_iff : orNotFound e x = .ok a ↔ x = some a := by
  cases x with
  | none | some => simp [orNotFound]

theorem resolveHistoryBody_eq_ok_iff {id : NoteId} :
    resolveHistoryBody v s id selector = .ok version ↔ selectVersion v s id selector = some version := by
  unfold resolveHistoryBody
  cases hselect : selectVersion v s id selector with
  | some found => simp
  | none => cases selector <;> simp

section Answers

variable {api : Api} {s : VaultState} {index : Answers s}

theorem effectiveTenant_bearer
    (h : effectiveTenant (.bearerToken sub scopes tenant) bodyTenant = .ok vault) : vault = tenant :=
  (Option.some.inj (effectiveTenant_ok h)).symm

theorem vaultRead_ok (hmode : api.policy.multiTenant = true)
    (h : api.vaultRead (.bearerToken sub scopes tenant) index req = .ok response) :
    ∃ ref, api.resolveNoteRefOpt index tenant req.path = some ref ∧
      currentVersion (api.instanceOf tenant) s ref.id = some response.content ∧
      identityAllowed (.bearerToken sub scopes tenant) response.content.note.frontmatter.section.asStr
        (readTitle s tenant ref response.content.note.body) = true := by
  simp only [Api.vaultRead, enforceIdentityReadGuard, bind_eq_ok_iff, require_eq_ok_iff,
    orForbidden_eq_ok_iff, orNotFound_eq_ok_iff, pure_eq_ok_iff] at h
  obtain ⟨_, _, _, _, vault, hvault, _, _, ref, href, reader, hreader, version, hver, _, hguard,
    hresp⟩ := h
  cases effectiveTenant_bearer hvault
  cases api.readBackReader_ok hmode hreader
  cases hresp
  exact ⟨ref, href, hver, hguard⟩

theorem vaultHistoryGet_ok (hmode : api.policy.multiTenant = true)
    (h : api.vaultHistoryGet (.bearerToken sub scopes tenant) index req = .ok response) :
    ∃ id, snapshotVersion (api.instanceOf tenant) s id req.tsMs = some response.body ∧
      identityAllowed (.bearerToken sub scopes tenant) response.body.note.frontmatter.section.asStr
        (extractH1Title response.body.note.body) = true := by
  simp only [Api.vaultHistoryGet, enforceIdentityReadGuard, bind_eq_ok_iff, require_eq_ok_iff,
    orForbidden_eq_ok_iff, orNotFound_eq_ok_iff, pure_eq_ok_iff] at h
  obtain ⟨_, _, vault, hvault, _, _, ref, _, reader, hreader, version, hver, _, hguard,
    hresp⟩ := h
  cases effectiveTenant_bearer hvault
  cases api.readBackReader_ok hmode hreader
  cases hresp
  exact ⟨ref.id, hver, hguard⟩

theorem vaultDiff_ok (h : api.vaultDiff (.bearerToken sub scopes tenant) index req = .ok response) :
    ∃ ref a b versionA versionB, api.resolveNoteRefOpt index tenant req.noteId = some ref ∧
      parseSelector req.a = some a ∧ parseSelector req.b = some b ∧
      selectVersion api.server.vault s ref.id a = some versionA ∧
      selectVersion api.server.vault s ref.id b = some versionB ∧
      response.lines = diffLinesBrut versionA.lines versionB.lines := by
  simp only [Api.vaultDiff, enforceIdentityReadGuard, bind_eq_ok_iff, require_eq_ok_iff,
    orForbidden_eq_ok_iff, orNotFound_eq_ok_iff, pure_eq_ok_iff, resolveHistoryBody_eq_ok_iff] at h
  obtain ⟨_, _, vault, hvault, _, _, a, ha, b, hb, ref, href, _, _, versionA, hA, versionB, hB,
    hresp⟩ := h
  cases effectiveTenant_bearer hvault
  cases hresp
  refine ⟨ref, a, b, versionA, versionB, ?_, ha, hb, hA, hB, rfl⟩
  unfold Api.resolveNoteRefStrict at href
  split at href
  · cases href
    assumption
  · cases href

variable {id : NoteId}

theorem currentVersion_eq_some (h : currentVersion v s id = some version) :
    version.vault = v.vaultId ∧ version.title =
      (nonblank ((s.notes ⟨v.vaultId, id⟩).bind (·.title))).or (extractH1Title version.note.body) := by
  obtain ⟨note, -, hver⟩ := Option.map_eq_some_iff.1 h
  cases hver
  exact ⟨rfl, rfl⟩

theorem snapshotVersion_eq_some (h : snapshotVersion v s id stamp = some version) :
    version.vault = v.vaultId ∧ version.title = extractH1Title version.note.body := by
  obtain ⟨note, -, hver⟩ := Option.map_eq_some_iff.1 h
  cases hver
  exact ⟨rfl, rfl⟩

theorem selectVersion_vault (h : selectVersion v s id selector = some version) : version.vault = v.vaultId := by
  cases selector with
  | current => exact (currentVersion_eq_some h).1
  | «at» stamp => exact (snapshotVersion_eq_some h).1

theorem readTitle_of_isCanonical (href : ref.isCanonical = true)
    (h : currentVersion (api.instanceOf tenant) s ref.id = some version) :
    readTitle s tenant ref version.note.body = version.title := by
  rw [(currentVersion_eq_some h).2, readTitle, getTitleSection, if_pos href, Option.bind_map]
  rfl

theorem readTitle_of_not_isCanonical (href : ¬ ref.isCanonical = true) :
    readTitle s tenant ref body = extractH1Title body := by
  rw [readTitle, getTitleSection, if_neg href]
  rfl

theorem resolveNoteRefOpt_cases (h : api.resolveNoteRefOpt index tenant reference = some ref) :
    (api.parseUlid (lastSegment reference) = some ref.id ∧ ref.text = lastSegment reference) ∨
      (api.parseUlid (lastSegment reference) = none ∧ ref.isCanonical = true) := by
  unfold Api.resolveNoteRefOpt at h
  split at h
  · cases h
    exact .inl ⟨by assumption, rfl⟩
  · obtain ⟨id, -, hid⟩ := Option.map_eq_some_iff.1 h
    cases hid
    exact .inr ⟨by assumption, NoteRef.isCanonical_ofId id⟩

end Answers

/-! ## 5. Which answers stay within what the caller may read -/

/-- For a `vault_read` by a ULID in another spelling than the index has: the note is not the soul of
another agent.  For a `vault_diff`: the tenant's vault is the one the server was started for, and
neither version with any text is of the soul of another agent. -/
def SelectsReadable (api : Api) (caller : String) (tenant : VaultId) {s : VaultState}
    (index : Answers s) : ReadRequest → Prop
  | .read req => ∀ id version, api.parseUlid (lastSegment req.path) = some id →
      lastSegment req.path ≠ ulidText id →
      currentVersion (api.instanceOf tenant) s id = some version →
      ¬ ForeignSoul caller version.note.frontmatter.section.asStr version.title
  | .historyGet _ => True
  | .diff req => ∀ ref, api.resolveNoteRefOpt index tenant req.noteId = some ref →
      ∀ text ∈ [req.a, req.b], ∀ selector version, parseSelector text = some selector →
        selectVersion api.server.vault s ref.id selector = some version → version.lines ≠ [] →
        api.server.vault.vaultId = tenant ∧
          ¬ ForeignSoul caller version.note.frontmatter.section.asStr version.title

section Main

variable {api : Api} {sub : String} {scopes : List String} {tenant : VaultId} {s : VaultState}
  {index : Answers s}

theorem vaultRead_readable_iff (hmode : api.policy.multiTenant = true)
    (hscope : identityWriteScope ∉ scopes)
    (h : api.vaultRead (.bearerToken sub scopes tenant) index req = .ok response) :
    LinesReadable sub tenant response.content.lines ↔
      SelectsReadable api sub tenant index (.read req) := by
  obtain ⟨ref, href, hver, hguard⟩ := vaultRead_ok hmode h
  have hpas := not_foreignSoul_of_identityAllowed hscope hguard
  rw [linesReadable_lines]
  constructor
  · intro hreadable id version hid hne hcur hforn
    rcases resolveNoteRefOpt_cases href with ⟨hparse, htext⟩ | ⟨hparse, -⟩
    · have hsame : id = ref.id := Option.some.inj (hid.symm.trans hparse)
      subst hsame
      have hcont : version = response.content :=
        Option.some.inj (hcur.symm.trans hver)
      subst hcont
      -- the heading names the caller, so there is a line to show
      have hspel : ¬ ref.isCanonical = true := by
        rw [NoteRef.isCanonical, htext]
        exact fun hcanon => hne (of_decide_eq_true hcanon)
      rw [readTitle_of_not_isCanonical hspel] at hguard
      refine (hreadable (lines_ne_nil_of_heading fun hhead => ?_)).2 hforn
      rw [hhead] at hguard
      exact (owner_of_identityAllowed hscope hforn.1 hguard).1 rfl
    · rw [hparse] at hid
      cases hid
  · intro hsel _
    refine ⟨(currentVersion_eq_some hver).1, ?_⟩
    by_cases hcanon : ref.isCanonical = true
    · rw [readTitle_of_isCanonical hcanon hver] at hpas
      exact hpas
    · rcases resolveNoteRefOpt_cases href with ⟨hparse, htext⟩ | ⟨-, hknown⟩
      · refine hsel ref.id response.content hparse ?_ hver
        rw [← htext]
        exact fun hspel => hcanon (decide_eq_true hspel)
      · exact absurd hknown hcanon

theorem vaultHistoryGet_readable (hmode : api.policy.multiTenant = true)
    (hscope : identityWriteScope ∉ scopes)
    (h : api.vaultHistoryGet (.bearerToken sub scopes tenant) index req = .ok response) :
    LinesReadable sub tenant response.body.lines := by
  obtain ⟨id, hver, hguard⟩ := vaultHistoryGet_ok hmode h
  rw [linesReadable_lines]
  intro _
  obtain ⟨hvault, htitle⟩ := snapshotVersion_eq_some hver
  rw [← htitle] at hguard
  exact ⟨hvault, not_foreignSoul_of_identityAllowed hscope hguard⟩

theorem vaultDiff_readable_iff (h : api.vaultDiff (.bearerToken sub scopes tenant) index req = .ok response) :
    LinesReadable sub tenant response.lines ↔ SelectsReadable api sub tenant index (.diff req) := by
  obtain ⟨ref, a, b, versionA, versionB, href, ha, hb, hA, hB, hlines⟩ := vaultDiff_ok h
  rw [hlines, linesReadable_diffLinesBrut, linesReadable_lines, linesReadable_lines]
  constructor
  · intro ⟨hreadableA, hreadableB⟩ ref' href' text htext selector version hsel hver hne
    cases href.symm.trans href'
    rw [← selectVersion_vault hver]
    rcases mem_cons.1 htext with rfl | htext
    · cases ha.symm.trans hsel
      cases hA.symm.trans hver
      exact hreadableA hne
    · cases mem_singleton.1 htext
      cases hb.symm.trans hsel
      cases hB.symm.trans hver
      exact hreadableB hne
  · intro hsele
    have hone : ∀ text ∈ [req.a, req.b], ∀ selector version, parseSelector text = some selector →
        selectVersion api.server.vault s ref.id selector = some version → version.lines ≠ [] →
        version.Readable sub tenant := by
      intro text htext selector version hsel hver hne
      rw [StoredVersion.Readable, selectVersion_vault hver]
      exact hsele ref href text htext selector version hsel hver hne
    exact ⟨hone req.a mem_cons_self a versionA ha hA,
      hone req.b (mem_cons_of_mem _ mem_cons_self) b versionB hb hB⟩

/-- For a bearer without the scope `identity_write` and with multi-tenancy, an answer shows lines that
the caller may read just if the request selects readable versions, which only `vault_diff` and the
unusual spelling of a ULID in `vault_read` can miss. -/
theorem answerLines_readable_iff (api : Api) (sub : String) (scopes : List String) (tenant : VaultId)
    (index : Answers s) (req : ReadRequest) (lines : List Line)
    (hmode : api.policy.multiTenant = true) (hscope : identityWriteScope ∉ scopes)
    (h : api.answerLines (.bearerToken sub scopes tenant) index req = .ok lines) :
    LinesReadable sub tenant lines ↔ SelectsReadable api sub tenant index req := by
  cases req with
  | read req =>
    obtain ⟨response, hresp, hlines⟩ := map_eq_ok_iff.1 h
    rw [← hlines]
    exact vaultRead_readable_iff hmode hscope hresp
  | historyGet req =>
    obtain ⟨response, hresp, hlines⟩ := map_eq_ok_iff.1 h
    rw [← hlines]
    exact iff_of_true (vaultHistoryGet_readable hmode hscope hresp) trivial
  | diff req =>
    obtain ⟨response, hresp, hlines⟩ := map_eq_ok_iff.1 h
    rw [← hlines]
    exact vaultDiff_readable_iff hresp

end Main

def diffCurrent : ReadRequest := .diff ⟨none, ulidText 1, "current", "current"⟩

theorem answerLines_readable_ownVault :
    ∃ lines, plainApi.answerLines (bearerOf "main") oneLiveNote.answers diffCurrent = .ok lines ∧
      LinesReadable "scribe" "main" lines := by
  refine ⟨_, rfl, ?_⟩
  apply (answerLines_readable_iff plainApi "scribe" ["write"] "main" oneLiveNote.answers diffCurrent _
    rfl (by decide) rfl).2
  intro ref href text htext selector version hsel hver _
  refine ⟨rfl, fun hforn => ?_⟩
  cases href
  have hcur : text = "current" := by simpa using htext
  rw [hcur] at hsel
  cases hsel
  cases hver
  exact absurd hforn.1 (by decide)

theorem not_answerLines_readable_otherVault :
    ∃ lines, plainApi.answerLines (bearerOf "alice") oneLiveNote.answers diffCurrent = .ok lines ∧
      ¬ LinesReadable "scribe" "alice" lines := by
  refine ⟨_, rfl, ?_⟩
  intro hreadable
  have hvault := (hreadable _ mem_cons_self _ mem_cons_self).1
  exact absurd hvault (by decide)

end Gradatum.Access
