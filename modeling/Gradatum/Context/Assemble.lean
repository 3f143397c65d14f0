import Mathlib.Data.Rat.Floor
import Gradatum.Context.Select

/-!
# The assembly of a context

`assemble_context` has three modes.  Raw puts bodies one after the other, assembled ranks the candidates,
quotes some and refers to others, and compact folds what a session was sent before into a new view.
-/

open Reasoning

namespace Gradatum.Context

open Notes
open Access (Policy TrustContext ApiError isSentinel carriesTag identitySectionHidden
  isIdentityPrivileged)

/-! ## 1. Texts -/

def partSeparator : String := "\n\n---\n\n"

def renderRaw (parts : List String) : String := partSeparator.intercalate parts

def selectedBefore (a b : Selected) : Prop := b.score < a.score ∨ a.score = b.score ∧ a.noteId ≤ b.noteId

instance : DecidableRel selectedBefore := fun a b =>
  inferInstanceAs (Decidable (b.score < a.score ∨ a.score = b.score ∧ a.noteId ≤ b.noteId))

def renderNote (tools : Toolkit) (note : Selected) : String :=
  "### " ++ note.title ++ " · " ++ note.section ++ " · " ++ note.date ++ " · score=" ++
    tools.formatScore note.score ++ "\n" ++ note.body ++ "\n\n— source: [[" ++ note.noteId ++ "]]"

/-- `render_assembled` without references, which is how it is called. -/
def renderAssembled (tools : Toolkit) (query : String) (notes : List Selected) : String :=
  if notes = [] then ""
  else
    let sorted := notes.insertionSort selectedBefore
    let header := "Context assembled for: «" ++ query ++ "» · " ++ toString sorted.length ++ " note" ++
      (if sorted.length = 1 then "" else "s")
    header ++ "\n\n" ++ partSeparator.intercalate (sorted.map (renderNote tools))

def renderReferencesBlock (stubs : List Stub) : String :=
  if stubs = [] then "" else "\n\n## References\n\n" ++ "\n".intercalate (stubs.map renderStub)

/-! ## 2. Skills -/

structure SkillEntry where
  ulid : String
  title : String
  body : String
  embedding : List ℚ
  deriving DecidableEq

structure SkillIndex where
  entries : List SkillEntry

/-- The records of the section `skills` with the embeddings of their bodies, of which there are none where
the embedder fails or takes too long. -/
def buildSkillIndex (records : List NoteRecord) (embeddings : Option (List (List ℚ))) : SkillIndex :=
  match embeddings with
  | none => ⟨[]⟩
  | some embeddings => ⟨(records.zip embeddings).map fun (r, embedding) =>
    ⟨r.id, r.title.getD "(untitled)", r.bodyText, embedding⟩⟩

def rankSkills (tools : Toolkit) (index : SkillIndex) (queryEmb : List ℚ) (maxSkills : Nat) :
    List SkillEntry :=
  if maxSkills = 0 ∨ queryEmb = [] then []
  else (index.entries.insertionSort fun a b =>
    tools.cosineSimilarity queryEmb b.embedding ≤ tools.cosineSimilarity queryEmb a.embedding).take maxSkills

def skillsIntro : String := "## Skills disponibles\n\n"

def renderSkill (skill : SkillEntry) : String :=
  "### " ++ skill.title ++ "\n" ++ skill.body ++ "\n\n— source: [[" ++ skill.ulid ++ "]]\n\n"

def fittingSkills (tools : Toolkit) (subBudget used : Nat) : List SkillEntry → List SkillEntry × Nat
  | [] => ([], used)
  | skill :: rest =>
    let tokens := tools.estimate (renderSkill skill)
    if subBudget < saturatingAdd used tokens then ([], used)
    else
      let (more, total) := fittingSkills tools subBudget (saturatingAdd used tokens) rest
      (skill :: more, total)

def headerSkills (tools : Toolkit) (skills : List SkillEntry) (subBudget : Nat) : List SkillEntry × Nat :=
  let introTokens := tools.estimate skillsIntro
  if skills = [] ∨ subBudget = 0 ∨ subBudget < introTokens then ([], 0)
  else match fittingSkills tools subBudget introTokens skills with
    | ([], _) => ([], 0)
    | found => found

def renderSkillsHeader (skills : List SkillEntry) : String :=
  if skills = [] then "" else skillsIntro ++ String.join (skills.map renderSkill)

/-! ## 3. Requests and responses -/

inductive ContextMode where
  | raw
  | assembled
  | compact
  deriving DecidableEq

structure VaultContextRequest where
  query : String
  maxTokens : Option Nat
  budgetTokens : Option Nat
  mode : ContextMode
  injectSkills : Bool
  referenceMode : Bool
  sessionId : Option String

inductive ContextText where
  /-- Parts of bodies, each with the id of its note. -/
  | raw (parts : List (String × String))
  | assembled (skills : List SkillEntry) (query : String) (notes : List Selected) (references : List Stub)

/-- The text without its references, which the budget is measured on. -/
def ContextText.renderInline (tools : Toolkit) : ContextText → String
  | raw parts => renderRaw (parts.map Prod.snd)
  | assembled skills query notes _ =>
    (if skills = [] then "" else renderSkillsHeader skills ++ "\n\n") ++ renderAssembled tools query notes

def ContextText.render (tools : Toolkit) : ContextText → String
  | raw parts => renderRaw (parts.map Prod.snd)
  | assembled skills query notes references =>
    (assembled skills query notes references).renderInline tools ++ renderReferencesBlock references

structure IncludedNote where
  ulid : String
  title : String
  «section» : String
  date : String
  score : ℚ
  deriving DecidableEq

structure ContextDiagnostics where
  candidatesConsidered : Nat
  includedCount : Nat
  embedFallback : Bool
  skillsInjected : Nat
  deriving DecidableEq

structure ContextCounts where
  inline : Nat
  stub : Nat
  dropped : Nat
  deriving DecidableEq

structure VaultContextResponse where
  text : ContextText
  included : List IncludedNote
  budgetUsed : Nat
  diagnostics : ContextDiagnostics
  references : List Stub
  counts : ContextCounts
  cacheBreakpointHint : Bool

def emptyResponse (embedFallback : Bool) : VaultContextResponse where
  text := .raw []
  included := []
  budgetUsed := 0
  diagnostics := ⟨0, 0, embedFallback, 0⟩
  references := []
  counts := ⟨0, 0, 0⟩
  cacheBreakpointHint := false

/-! ## 4. The server -/

structure ContextConfig where
  defaultBudgetTokens : Nat
  stubBudgetTokens : Nat
  maxSkills : Nat
  skillsBudgetFraction : ℚ
  cacheBreakpointThresholdTokens : Nat

structure SentEntry where
  ulid : String
  snippet : String
  tsMs : Int
  deriving DecidableEq

abbrev SentMap := Table fun e : SentEntry => e.ulid

structure RetrievalOutcome where
  candidates : List Candidate
  queryEmbedding : Option (List ℚ)
  embedFallback : Bool

inductive RawLookup where
  /-- The query is an id: the note and those that link to it. -/
  | ulidDirect (backlinks : List String)
  /-- Nothing of the query is left to search for. -/
  | blank
  | fts (hits : Except ApiError (List String))

structure AppState where
  tools : Toolkit
  policy : Policy
  vault : VaultId
  index : SearchIndex
  config : ContextConfig
  nowMs : Int
  rawLookup : RawLookup
  retrieval : Except ApiError RetrievalOutcome
  /-- The composite score of a candidate. -/
  score : Candidate → Option ℚ
  /-- `get_sent`, where there is a store; `none` is a read that fails. -/
  sessionTrace : Option (String → Option SentMap)
  /-- The index of the skills from an earlier call. -/
  skillsIndex : Option SkillIndex
  /-- `list_notes` of the section `skills`. -/
  skillRecords : Except ApiError (List NoteRecord)
  embedBatch : List String → Option (List (List ℚ))

structure Assembly where
  response : VaultContextResponse
  marked : List SentEntry

namespace AppState

variable (state : AppState) (trust : TrustContext)

/-- The note carries the tag that the caller may not read. -/
def withheld (id : String) : Bool :=
  !isSentinel id && (state.index.notes.find? id).any fun r =>
    state.policy.hidesTags trust state.vault r.tagsRaw

def hiddenCandidates (ids : List String) : Except ApiError (List String) :=
  if ids = [] ∨ state.policy.allowsClassified trust state.vault then .ok []
  else match state.index.tagsFailure with
    | some e => .error e
    | none => .ok ((state.index.notes.select fun r =>
      ids.contains r.id && !isSentinel r.id && carriesTag classifiedTag r.tagsRaw).map NoteRecord.id)

def visible (candidates : List Candidate) : Except ApiError (List Candidate) := do
  let hidden ← state.hiddenCandidates trust (candidates.map Candidate.noteId)
  return candidates.filter fun c => !hidden.contains c.noteId

def budget (req : VaultContextRequest) : Nat :=
  max 1 (min 8000 ((req.budgetTokens.or req.maxTokens).getD state.config.defaultBudgetTokens))

def hint (budgetUsed : Nat) : Bool := state.config.cacheBreakpointThresholdTokens < budgetUsed

/-- `get_or_build_skill_index`, whose answer is also what is kept for later calls. -/
def getOrBuildSkillIndex : Option SkillIndex :=
  state.skillsIndex.or
    (state.skillRecords.toOption.map fun records =>
      buildSkillIndex records
        (if records = [] then none else state.embedBatch (records.map NoteRecord.bodyText)))

end AppState

/-! ## 5. Raw -/

/-- `div_ceil(3).max(1)`. -/
def rawTokens (text : String) : Nat := max 1 ((text.length + 2) / 3)

def includedOfRecord (tools : Toolkit) (record : NoteRecord) : IncludedNote :=
  ⟨record.id, record.title.getD record.id, record.section, tools.date record.created, 0⟩

/-- The body, or as much of it as the rest of the budget allows. -/
def rawPart (record : NoteRecord) (remaining : Nat) : String :=
  if remaining < rawTokens record.bodyText then
    String.ofList (record.bodyText.toList.take (3 * remaining))
  else record.bodyText

/-- The loop over the ids: the notes that are included, with their parts of the text. -/
def rawNotes (tools : Toolkit) (index : SearchIndex) (privileged : Bool) (maxTokens : Nat) (used : Nat) :
    List String → List (IncludedNote × String)
  | [] => []
  | id :: rest =>
    if maxTokens ≤ used then []
    else match index.getNote id with
      | none => rawNotes tools index privileged maxTokens used rest
      | some record =>
        if identitySectionHidden privileged record.section then
          rawNotes tools index privileged maxTokens used rest
        else
          let part := rawPart record (maxTokens - used)
          (includedOfRecord tools record, part) ::
            rawNotes tools index privileged maxTokens (used + rawTokens part) rest

namespace AppState

variable (state : AppState) (trust : TrustContext)

/-- The candidates of the raw mode, if there is something to search for. -/
def rawIds (req : VaultContextRequest) : Except ApiError (Option (List String)) :=
  match state.rawLookup with
  | .ulidDirect backlinks => .ok (some (req.query :: backlinks))
  | .blank => .ok none
  | .fts hits => hits.map some

def assembleRaw (req : VaultContextRequest) : Except ApiError VaultContextResponse := do
  let maxTokens := max 1 (min 8000 (req.maxTokens.getD 2000))
  match ← state.rawIds req with
  | none => return emptyResponse false
  | some ids => do
      let hidden ← state.hiddenCandidates trust ids
      let ids := ids.filter fun id => !hidden.contains id
      let notes := rawNotes state.tools state.index (isIdentityPrivileged trust) maxTokens 0 ids
      let text := ContextText.raw (notes.map fun (note, part) => (note.ulid, part))
      let budgetUsed := (text.render state.tools).length / 3
      return {
        text := text
        included := notes.map Prod.fst
        budgetUsed := budgetUsed
        diagnostics := ⟨ids.length, notes.length, false, 0⟩
        references := []
        counts := ⟨notes.length, 0, ids.length - notes.length⟩
        cacheBreakpointHint := state.hint budgetUsed }

end AppState

/-! ## 6. Sessions -/

def sessionIdUlidLen : Nat := 26

def markSentSnippetChars : Nat := 120

def isSessionIdValid (s : String) : Bool :=
  s.utf8ByteSize = sessionIdUlidLen && s.toList.all fun c => c.isAlphanum

/-- `entry(..).or_insert(..)`: the first stub of an id stays. -/
def orInsert (stubs : List Stub) (stub : Stub) : List Stub :=
  if stubs.any (·.ulid = stub.ulid) then stubs else stubs ++ [stub]

def stubMap (stubs : List Stub) : List Stub :=
  (stubs.foldl orInsert []).insertionSort fun a b => a.ulid ≤ b.ulid

def freezeSnippet (sent : SentMap) (stub : Stub) : Stub :=
  match sent.find? stub.ulid with
  | some entry => { stub with snippet := entry.snippet }
  | none => stub

/-- A note that was sent before and is now only referred to. -/
def forcedStub (sent : SentMap) (s : Selected) : Option Stub :=
  (sent.find? s.noteId).map fun entry => ⟨s.noteId, s.title, s.section, entry.snippet⟩

/-- No note is quoted twice in a session. -/
def withoutRepromotion (sent : SentMap) (selected : List Selected) (stubs : List Stub) :
    List Selected × List Stub :=
  (selected.filter fun s => (sent.find? s.noteId).isNone,
    stubMap (selected.filterMap (forcedStub sent) ++ stubs.map (freezeSnippet sent)))

def withoutSouls (privileged : Bool) (selected : List Selected) (stubs : List Stub) :
    List Selected × List Stub :=
  if privileged then (selected, stubs)
  else (selected.filter fun s => !identitySectionHidden false s.section,
    stubs.filter fun s => !identitySectionHidden false s.section)

def includedOf (s : Selected) : IncludedNote := ⟨s.noteId, s.title, s.section, s.date, s.score⟩

/-! ## 7. Assembled -/

namespace AppState

variable (state : AppState) (trust : TrustContext)

def invalidSessionId : ApiError :=
  .invalidInput "invalid session_id: expected ULID of 26 alphanumeric chars (Crockford base32)"

variable (req : VaultContextRequest)

def skillsHeader (queryEmbedding : Option (List ℚ)) : List SkillEntry × Nat :=
  if req.injectSkills then
    match queryEmbedding, state.getOrBuildSkillIndex with
    | some embedding, some index =>
      let subBudget :=
        max 64 (min (2 ^ 32 - 1) ⌊(state.budget req : ℚ) * state.config.skillsBudgetFraction⌋.toNat)
      let ranked := rankSkills state.tools index embedding state.config.maxSkills
      let shown := (headerSkills state.tools ranked subBudget).1
      (shown, if shown = [] then 0 else ranked.length)
    | _, _ => ([], 0)
  else ([], 0)

def sessionSent : Option SentMap :=
  req.sessionId.bind fun sid => state.sessionTrace.bind fun store => store sid

def splitAssembled (candidates : List Candidate) : List Selected × List Stub :=
  let stubBudget := if req.referenceMode then state.config.stubBudgetTokens else 0
  let (selected, stubs, _) :=
    selectBudgetAware state.tools state.index state.score candidates (state.budget req) stubBudget
  let (selected, stubs) := match state.sessionSent req with
    | some sent => withoutRepromotion sent selected stubs
    | none => (selected, stubs)
  withoutSouls (isIdentityPrivileged trust) selected stubs

def markSent (selected : List Selected) : List SentEntry :=
  if (state.sessionSent req).isSome then
    selected.map fun s => ⟨s.noteId, (stubFromSelected s markSentSnippetChars).snippet, state.nowMs⟩
  else []

def assembleAssembled : Except ApiError Assembly := do
  require (req.sessionId.all isSessionIdValid) invalidSessionId
  let outcome ← state.retrieval
  let candidates ← state.visible trust outcome.candidates
  if candidates = [] then return ⟨emptyResponse outcome.embedFallback, []⟩
  let (selected, stubs) := state.splitAssembled trust req candidates
  let (skills, injected) := state.skillsHeader req outcome.queryEmbedding
  let text := ContextText.assembled skills req.query selected stubs
  let budgetUsed := state.tools.estimate (text.renderInline state.tools)
  return {
    response := {
      text := text
      included := selected.map includedOf
      budgetUsed := budgetUsed
      diagnostics := ⟨candidates.length, selected.length, outcome.embedFallback, injected⟩
      references := stubs
      counts := ⟨selected.length, stubs.length, candidates.length - (selected.length + stubs.length)⟩
      cacheBreakpointHint := state.hint budgetUsed }
    marked := state.markSent req selected }

end AppState

/-! ## 8. Compact -/

def foldScore (sizeTokens : Nat) (ageMs : Int) : ℚ := sizeTokens * max ageMs 0

def compactScore (nowMs : Int) (sent : SentMap) (id : String) : ℚ :=
  match sent.find? id with
  | some entry => 1 / (1 + foldScore entry.snippet.utf8ByteSize (nowMs - entry.tsMs))
  | none => 1 / (1 + foldScore 0 0)

def unionSent (candidates : List Candidate) (sent : SentMap) : List Candidate :=
  candidates ++ (sent.rows.filter fun e => !candidates.any (·.noteId = e.ulid)).map fun e => ⟨e.ulid, 0⟩

def minimalStub (entry : SentEntry) : Stub := ⟨entry.ulid, entry.ulid, "", entry.snippet⟩

def compactStubs (sent : SentMap) (selected : List Selected) (stubs : List Stub) : List Stub :=
  stubMap (stubs.map (freezeSnippet sent) ++
    (sent.rows.filter fun e => !selected.any (·.noteId = e.ulid)).map minimalStub)

namespace AppState

variable (state : AppState) (trust : TrustContext)

def sessionRequired : ApiError :=
  .invalidInput "mode=compact requires a session_id (compact without a session is meaningless)"

/-- Without a store, or where it cannot be read, nothing was sent. -/
def sentOrEmpty (sid : String) : SentMap := (state.sessionTrace.bind fun store => store sid).getD Table.empty

def splitCompact (req : VaultContextRequest) (sent : SentMap) (candidates : List Candidate) :
    List Selected × List Stub :=
  let scored := candidates.map fun c => { c with rrfScore := compactScore state.nowMs sent c.noteId }
  let (selected, stubs, _) := selectBudgetAware state.tools state.index state.score scored
    (state.budget req) state.config.stubBudgetTokens
  withoutSouls (isIdentityPrivileged trust) selected stubs

def assembleCompact (req : VaultContextRequest) : Except ApiError VaultContextResponse := do
  let sid ← present req.sessionId sessionRequired
  require (isSessionIdValid sid) invalidSessionId
  let sent := state.sentOrEmpty sid
  let outcome ← state.retrieval
  let candidates ← state.visible trust (unionSent outcome.candidates sent)
  if candidates = [] then return emptyResponse outcome.embedFallback
  let (selected, stubs) := state.splitCompact trust req sent candidates
  let stubs := compactStubs sent selected stubs
  let text := ContextText.assembled [] req.query selected stubs
  let budgetUsed := state.tools.estimate (text.renderInline state.tools)
  return {
    text := text
    included := selected.map includedOf
    budgetUsed := budgetUsed
    diagnostics := ⟨candidates.length, selected.length, outcome.embedFallback, 0⟩
    references := stubs
    counts := ⟨selected.length, stubs.length, candidates.length - (selected.length + stubs.length)⟩
    cacheBreakpointHint := state.hint budgetUsed }

def assembleContext (req : VaultContextRequest) : Except ApiError VaultContextResponse :=
  match req.mode with
  | .raw => state.assembleRaw trust req
  | .assembled => (state.assembleAssembled trust req).map Assembly.response
  | .compact => state.assembleCompact trust req

end AppState

end Gradatum.Context
