import Gradatum.Reasoning.Checks
import Gradatum.Notes.Text
import Gradatum.Notes.Note

/-!
# Typed links of a project-map card

A card states what it is in links of the form `[[role:value]]`.
-/

open Reasoning

namespace Gradatum.ProjectMap

open List String

open Notes (NoteId trim eq_takeWhile_append isWhiteSpace trim_of_forall trimmed_trim)

/-! ## 1. Values -/

inductive StatusKind where
  | brainstorming
  | «open»
  | inProgress
  | blocked
  | done
  | obsolete
  deriving DecidableEq

def StatusKind.all : List StatusKind := [.brainstorming, .open, .inProgress, .blocked, .done, .obsolete]

def StatusKind.asWire : StatusKind → String
  | .brainstorming => "BRAINSTORMING"
  | .open => "OPEN"
  | .inProgress => "IN_PROGRESS"
  | .blocked => "BLOCKED"
  | .done => "DONE"
  | .obsolete => "OBSOLETE"

def StatusKind.fromWire (value : String) : Option StatusKind :=
  StatusKind.all.find? fun status => status.asWire = value

inductive KindKind where
  | feature
  | enhancement
  | fix
  | task
  | roadmap
  | backlog
  deriving DecidableEq

def KindKind.all : List KindKind := [.feature, .enhancement, .fix, .task, .roadmap, .backlog]

def KindKind.asWire : KindKind → String
  | .feature => "FEATURE"
  | .enhancement => "ENHANCEMENT"
  | .fix => "FIX"
  | .task => "TASK"
  | .roadmap => "ROADMAP"
  | .backlog => "BACKLOG"

def KindKind.fromWire (value : String) : Option KindKind :=
  KindKind.all.find? fun kind => kind.asWire = value

/-- The kinds of the cards that other cards are attached to. -/
def KindKind.isStructure : KindKind → Bool
  | .roadmap | .backlog => true
  | _ => false

inductive VisibilityKind where
  | interne
  | «public»
  deriving DecidableEq

def VisibilityKind.asWire : VisibilityKind → String
  | .interne => "interne"
  | .public => "public"

def VisibilityKind.fromWire : String → Option VisibilityKind
  | "interne" => some .interne
  | "public" => some .public
  | _ => none

inductive ReleaseKind where
  | roadmap
  | planned
  | released
  | dropped
  deriving DecidableEq

def ReleaseKind.asWire : ReleaseKind → String
  | .roadmap => "roadmap"
  | .planned => "planned"
  | .released => "released"
  | .dropped => "dropped"

def ReleaseKind.fromWire : String → Option ReleaseKind
  | "roadmap" => some .roadmap
  | "planned" => some .planned
  | "released" => some .released
  | "dropped" => some .dropped
  | _ => none

inductive AnnexRole where
  | spec
  | plan
  | context
  deriving DecidableEq

inductive ProjectMapLink where
  | project (name : String)
  | status (status : StatusKind)
  | kind (kind : KindKind)
  | version (project version : String)
  | annex (role : AnnexRole) (target : String)
  | dep («section» ulid : String)
  | feature (id : String)
  | release (release : ReleaseKind)
  | supersedes (id : String)
  | parent (id : String)
  | track (project target : String)
  | visibility (visibility : VisibilityKind)
  | porteuse (project version : String)
  deriving DecidableEq

inductive SchemaError where
  | missingPrefix (raw : String)
  | invalidStatus (value : String)
  | invalidKind (value : String)
  | malformedVersion (value : String)
  | emptyValue (pre : String)
  | valueTooLong (pre value : String) (len : Nat)
  | invalidChars (pre value : String)
  | projectCardinality (found : Nat)
  | statusCardinality (found : Nat)
  | kindCardinality (found : Nat)
  | versionCardinality (found : Nat)
  | versionProjectMismatch (project versionProject : String)
  | featureIdentInvalid (value : String)
  | invalidRelease (value : String)
  | featureCardinality (found : Nat)
  | releaseCardinality (found : Nat)
  | malformedTrack (value : String)
  | trackCardinality (found : Nat)
  | trackOnStructureCard (found : Nat)
  | invalidVisibility (value : String)
  | visibilityCardinality (found : Nat)
  | visibilityForbidden (found : Nat)
  | visibilityWorkCardCardinality (found : Nat)
  | malformedPorteuse (value : String)
  | porteuseCardinality (found : Nat)
  | porteuseForbidden (found : Nat)
  | structureVersionCardinality (found : Nat)
  | structureFeatureForbidden (found : Nat)
  | workCardNotDerivable
  | unknownRole (pre value : String)
  | incoherentReleaseVersion (version : String)
  deriving DecidableEq

def SchemaError.isMissingPrefix : SchemaError → Bool
  | missingPrefix _ => true
  | _ => false

def SchemaError.message : SchemaError → String
  | missingPrefix raw =>
    "link without typed prefix nor section:ULID format: " ++ raw.quote
  | invalidStatus value => "invalid status " ++ value.quote ++
      " (expected SCREAMING_SNAKE ∈ BRAINSTORMING/OPEN/IN_PROGRESS/BLOCKED/DONE/OBSOLETE)"
  | invalidKind value => "invalid kind " ++ value.quote ++
      " (expected SCREAMING_SNAKE ∈ FEATURE/ENHANCEMENT/FIX/TASK — CHORE and SPIKE were removed on " ++
      "2026-08-19, use TASK)"
  | malformedVersion value => "malformed version " ++ value.quote ++ " (expected project/x.y.z)"
  | emptyValue pre => "empty value for prefix " ++ pre.quote
  | valueTooLong pre value len => "value " ++ value.quote ++ " too long for prefix " ++ pre.quote ++
      s!" (max 64 chars, got {len})"
  | invalidChars pre value => "value " ++ value.quote ++
      " contains forbidden characters for prefix " ++ pre.quote ++ " (allowed: a-z 0-9 . _ -)"
  | projectCardinality found => s!"exactly 1 project: link required, found {found}"
  | statusCardinality found => s!"exactly 1 status: link required, found {found}"
  | kindCardinality found => s!"exactly 1 kind: link required, found {found}"
  | versionCardinality found => s!"at most 1 version: link allowed, found {found}"
  | versionProjectMismatch project versionProject =>
    "namespaced version " ++ versionProject.quote ++ " ≠ project " ++ project.quote
  | featureIdentInvalid value => "invalid feature identifier " ++ value.quote ++
      " (expected F-NN or F-NNN, e.g. F-37, F-061)"
  | invalidRelease value => "invalid release " ++ value.quote ++
      " (expected lowercase ∈ roadmap/planned/released/dropped)"
  | featureCardinality found => s!"at most 1 feature: link allowed on a work card, found {found}"
  | releaseCardinality found => "incorrect number of release: links (0 on a structure card, at " ++
      s!"most 1 on a work card), found {found}"
  | malformedTrack value => "malformed track " ++ value.quote ++
      " (expected project/<version|backlog>)"
  | trackCardinality found => s!"at most 1 track: link allowed on a work card, found {found}"
  | trackOnStructureCard found =>
    s!"track: link forbidden on a structure card (ROADMAP/BACKLOG), found {found}"
  | invalidVisibility value => "invalid visibilite " ++ value.quote ++
      " (expected lowercase ∈ interne/public)"
  | visibilityCardinality found =>
    s!"ROADMAP card: exactly 1 visibilite: link required, found {found}"
  | visibilityForbidden found => "visibilite: link forbidden on a BACKLOG (a backlog is never " ++
      s!"published), found {found}"
  | visibilityWorkCardCardinality found =>
    s!"at most 1 visibilite: link allowed on a work card, found {found}"
  | malformedPorteuse value => "malformed porteuse " ++ value.quote ++ " (expected project/x.y.z)"
  | porteuseCardinality found => s!"at most 1 porteuse: link allowed on a ROADMAP, found {found}"
  | porteuseForbidden found =>
    s!"porteuse: link forbidden here (only on a ROADMAP), found {found}"
  | structureVersionCardinality found => "structure card (ROADMAP/BACKLOG): exactly 1 " ++
      s!"addressable version: link required, found {found}"
  | structureFeatureForbidden found => "feature: link forbidden on a structure card " ++
      s!"(ROADMAP/BACKLOG are never numbered), found {found}"
  | workCardNotDerivable => "feature work card must be derivable: needs a [[version:]] or a " ++
      "[[track:]] (found neither)"
  | unknownRole pre value => "unknown or misspelled role prefix " ++ pre.quote ++ " (value " ++
      value.quote ++ "): not a reserved role, and not a valid content dependency (a dependency " ++
      "target must be a ULID or an F-NN id). Fix the spelling against the reserved roles, or use " ++
      "a valid dependency target."
  | incoherentReleaseVersion version => "incoherent roles: [[release:roadmap]] means no committed " ++
      s!"target version, but a concrete [[version:.../{version}]] is present. Use " ++
      "[[release:planned]] for a committed version, or drop the version (or use the " ++
      "[[version:<project>/backlog]] sentinel) for a backlog card."

/-! ## 2. Parsing -/

def splitOnce (c : Char) (text : String) : Option (String × String) :=
  if c ∈ text.toList then
    some (String.ofList (text.toList.takeWhile (· ≠ c)),
      String.ofList ((text.toList.dropWhile (· ≠ c)).drop 1))
  else none

def splitPrefix (target : String) : String × String := (splitOnce ':' target).getD (target, "")

def maxIdentLen : Nat := 64

def isIdentChar (c : Char) : Bool := c.isLower || c.isDigit || c = '.' || c = '_' || c = '-'

def validateIdent (pre value : String) : Except SchemaError Unit := do
  require (value.utf8ByteSize ≤ maxIdentLen) (.valueTooLong pre value value.utf8ByteSize)
  require (value.toList.all isIdentChar) (.invalidChars pre value)

def isFeatureIdent (value : String) : Bool :=
  match value.toList with
  | 'F' :: '-' :: digits => (digits.length = 2 || digits.length = 3) && digits.all Char.isDigit
  | _ => false

def validateFeatureIdent (value : String) : Except SchemaError Unit :=
  require (isFeatureIdent value) (.featureIdentInvalid value)

def parsePair (first second : String) (link : String → String → ProjectMapLink)
    (malformed : String → SchemaError) (value : String) : Except SchemaError ProjectMapLink :=
  match splitOnce '/' value with
  | some (a, b) =>
    if a ≠ "" ∧ b ≠ "" then do
      validateIdent first a
      validateIdent second b
      return link a b
    else .error (malformed value)
  | none => .error (malformed value)

def parseTrack : String → Except SchemaError ProjectMapLink :=
  parsePair "track.project" "track.target" .track .malformedTrack

def parsePorteuse : String → Except SchemaError ProjectMapLink :=
  parsePair "porteuse.project" "porteuse.version" .porteuse .malformedPorteuse

def parseVersion : String → Except SchemaError ProjectMapLink :=
  parsePair "version.project" "version.version" .version .malformedVersion

def parseWire {α : Type} (fromWire : String → Option α) (link : α → ProjectMapLink)
    (invalid : String → SchemaError) (value : String) : Except SchemaError ProjectMapLink :=
  match fromWire value with
  | some a => .ok (link a)
  | none => .error (invalid value)

def parseFeature (link : String → ProjectMapLink) (value : String) :
    Except SchemaError ProjectMapLink := do
  validateFeatureIdent value
  return link value

def reservedPrefixes : List String :=
  ["project", "status", "kind", "version", "spec", "plan", "context", "feature", "release",
    "supersedes", "parent", "track", "visibilite", "porteuse"]

section Parse

-- `Ulid::from_string`
variable (parseUlid : String → Option NoteId)

/-- A dependency points at a note or at a feature; any other value is a misspelled role. -/
def parseDep (sec value raw : String) : Except SchemaError ProjectMapLink := do
  require (value ≠ "") (.missingPrefix raw)
  require ((parseUlid value).isSome || isFeatureIdent value) (.unknownRole sec value)
  return .dep sec value

def parseLink (raw : String) : Except SchemaError ProjectMapLink := do
  let raw := String.ofList (trim raw.toList)
  let (pre, value) := splitPrefix raw
  require (!(reservedPrefixes.contains pre && value = "")) (.emptyValue pre)
  match pre with
  | "project" => do
      validateIdent "project" value
      return .project value
  | "status" => parseWire StatusKind.fromWire .status .invalidStatus value
  | "kind" => parseWire KindKind.fromWire .kind .invalidKind value
  | "version" => parseVersion value
  | "spec" => return .annex .spec value
  | "plan" => return .annex .plan value
  | "context" => return .annex .context value
  | "feature" => parseFeature .feature value
  | "release" => parseWire ReleaseKind.fromWire .release .invalidRelease value
  | "supersedes" => parseFeature .supersedes value
  | "parent" => parseFeature .parent value
  | "track" => parseTrack value
  | "visibilite" => parseWire VisibilityKind.fromWire .visibility .invalidVisibility value
  | "porteuse" => parsePorteuse value
  | other => parseDep parseUlid other value raw

def parsedLinks (targets : List String) : List ProjectMapLink :=
  targets.filterMap fun target => (parseLink parseUlid target).toOption

end Parse

/-! ## 3. Cardinalities -/

variable (links : List ProjectMapLink)

def projectsOf : List String :=
  links.filterMap fun
    | .project name => some name
    | _ => none

def statusesOf : List StatusKind :=
  links.filterMap fun
    | .status status => some status
    | _ => none

def kindsOf : List KindKind :=
  links.filterMap fun
    | .kind kind => some kind
    | _ => none

def versionsOf : List (String × String) :=
  links.filterMap fun
    | .version project version => some (project, version)
    | _ => none

def featuresOf : List String :=
  links.filterMap fun
    | .feature id => some id
    | _ => none

def releasesOf : List ReleaseKind :=
  links.filterMap fun
    | .release release => some release
    | _ => none

def tracksOf : List (String × String) :=
  links.filterMap fun
    | .track project target => some (project, target)
    | _ => none

def visibilitiesOf : List VisibilityKind :=
  links.filterMap fun
    | .visibility visibility => some visibility
    | _ => none

def porteusesOf : List (String × String) :=
  links.filterMap fun
    | .porteuse project version => some (project, version)
    | _ => none

/-- The links of a ROADMAP or BACKLOG: it is pointed at and points at nothing. -/
def validateStructure : Except SchemaError Unit := do
  require ((featuresOf links).length = 0) (.structureFeatureForbidden (featuresOf links).length)
  require ((releasesOf links).length = 0) (.releaseCardinality (releasesOf links).length)
  require ((versionsOf links).length = 1) (.structureVersionCardinality (versionsOf links).length)

def incoherentVersion : Option String :=
  if (releasesOf links).getLast? = some .roadmap then
    ((versionsOf links).map Prod.snd).find? (· ≠ "backlog")
  else none

def validateWork : Except SchemaError Unit := do
  require ((featuresOf links).length ≤ 1) (.featureCardinality (featuresOf links).length)
  require ((releasesOf links).length ≤ 1) (.releaseCardinality (releasesOf links).length)
  require (!(1 ≤ (featuresOf links).length && (versionsOf links).isEmpty && (tracksOf links).isEmpty))
    .workCardNotDerivable
  match incoherentVersion links with
  | some version => .error (.incoherentReleaseVersion version)
  | none => .ok ()

def validateTracks (kind : KindKind) (links : List ProjectMapLink) : Except SchemaError Unit :=
  let found := (tracksOf links).length
  if kind.isStructure then require (found = 0) (.trackOnStructureCard found)
  else require (found ≤ 1) (.trackCardinality found)

def validateVisibility (kind : KindKind) (links : List ProjectMapLink) : Except SchemaError Unit :=
  let found := (visibilitiesOf links).length
  match kind with
  | .roadmap => require (found = 1) (.visibilityCardinality found)
  | .backlog => require (found = 0) (.visibilityForbidden found)
  | .feature | .enhancement | .fix | .task => require (found ≤ 1) (.visibilityWorkCardCardinality found)

def validatePorteuse (kind : KindKind) (links : List ProjectMapLink) : Except SchemaError Unit :=
  let found := (porteusesOf links).length
  if kind = .roadmap then require (found ≤ 1) (.porteuseCardinality found)
  else require (found = 0) (.porteuseForbidden found)

def validateKind (kind : KindKind) (links : List ProjectMapLink) : Except SchemaError Unit := do
  validateTracks kind links
  validateVisibility kind links
  validatePorteuse kind links
  if kind.isStructure then validateStructure links else validateWork links

def validateLinks : Except SchemaError Unit := do
  require ((projectsOf links).length = 1) (.projectCardinality (projectsOf links).length)
  require ((statusesOf links).length = 1) (.statusCardinality (statusesOf links).length)
  match kindsOf links with
  | [kind] =>
    require ((versionsOf links).length ≤ 1) (.versionCardinality (versionsOf links).length)
    let project := (projectsOf links).headD ""
    match versionsOf links with
    | (versionProject, _) :: _ =>
      require (versionProject = project) (.versionProjectMismatch project versionProject)
    | [] => pure ()
    validateKind kind links
  | kinds => .error (.kindCardinality kinds.length)

/-! ## 4. What a parsed link is -/

/-- The characters of a name, none of which ends a line, a link or a part of one. -/
def IsIdent (text : String) : Prop := ∀ c ∈ text.toList, isIdentChar c = true

def IsPair (pair : String × String) : Prop := IsIdent pair.1 ∧ IsIdent pair.2

theorem validateIdent_ok (h : validateIdent pre value = .ok ()) : IsIdent value := by
  simp only [validateIdent, bind_eq_ok_iff, require_eq_ok_iff, List.all_eq_true] at h
  obtain ⟨_, -, hchars⟩ := h
  exact hchars

theorem splitOnce_eq_some (h : splitOnce c text = some (a, b)) :
    text.toList = a.toList ++ c :: b.toList := by
  unfold splitOnce at h
  split at h
  · rename_i hmem
    cases h
    rw [toList_ofList, toList_ofList]
    exact eq_takeWhile_append hmem
  · cases h

theorem parsePair_ok (h : parsePair first second link malformed value = .ok result) :
    ∃ pair, result = link pair.1 pair.2 ∧ IsPair pair ∧
      value.toList = pair.1.toList ++ '/' :: pair.2.toList := by
  unfold parsePair at h
  split at h
  · rename_i a b hsplit
    split at h
    · simp only [bind_eq_ok_iff, pure_eq_ok_iff] at h
      obtain ⟨_, ha, _, hb, rfl⟩ := h
      exact ⟨(a, b), rfl, ⟨validateIdent_ok ha, validateIdent_ok hb⟩, splitOnce_eq_some hsplit⟩
    · cases h
  · cases h

theorem parseWire_ok (h : parseWire fromWire link invalid value = .ok result) :
    ∃ a, fromWire value = some a ∧ result = link a := by
  unfold parseWire at h
  split at h
  · rename_i a hwire
    exact ⟨a, hwire, (Except.ok.inj h).symm⟩
  · cases h

/-- A version and a track are spelled as in the text they were parsed from, and their two parts are
names. -/
def ProjectMapLink.Spells (raw : List Char) : ProjectMapLink → Prop
  | .version a b => IsPair (a, b) ∧ raw = "version:".toList ++ (a.toList ++ '/' :: b.toList)
  | .track a b => IsPair (a, b) ∧ raw = "track:".toList ++ (a.toList ++ '/' :: b.toList)
  | _ => True

section Parsed

theorem parseFeature_ok (h : parseFeature link value = .ok result) :
    result = link value ∧ isFeatureIdent value = true := by
  simp only [parseFeature, validateFeatureIdent, bind_eq_ok_iff, require_eq_ok_iff, pure_eq_ok_iff] at h
  obtain ⟨_, hident, rfl⟩ := h
  exact ⟨rfl, hident⟩

theorem splitPrefix_spells (hpre : (splitPrefix target).1 = pre)
    (hvalue : (splitPrefix target).2.toList = value) (hne : value ≠ []) :
    target.toList = pre.toList ++ ':' :: value := by
  unfold splitPrefix at hpre hvalue
  cases hsplit : splitOnce ':' target with
  | none =>
    rw [hsplit] at hvalue
    exact absurd hvalue.symm hne
  | some parts =>
    rw [hsplit] at hpre hvalue
    rw [← hpre, ← hvalue]
    exact splitOnce_eq_some hsplit

def ProjectMapLink.ReadFrom (pre value : String) : ProjectMapLink → Prop
  | .project name => name = value ∧ IsIdent value
  | .version a b => pre = "version" ∧ parseVersion value = .ok (.version a b)
  | .track a b => pre = "track" ∧ parseTrack value = .ok (.track a b)
  | .feature id | .supersedes id | .parent id => id = value ∧ isFeatureIdent value = true
  | _ => True

theorem parseLink_readFrom (h : parseLink parseUlid raw = .ok result) :
    result.ReadFrom (splitPrefix (String.ofList (trim raw.toList))).1
      (splitPrefix (String.ofList (trim raw.toList))).2 := by
  unfold parseLink at h
  dsimp only at h
  rw [bind_eq_ok_iff] at h
  obtain ⟨_, -, h⟩ := h
  -- the cases are the reserved roles in their order, and a dependency
  split at h
  · simp only [bind_eq_ok_iff, pure_eq_ok_iff] at h
    obtain ⟨_, hident, rfl⟩ := h
    exact ⟨rfl, validateIdent_ok hident⟩
  · obtain ⟨_, -, rfl⟩ := parseWire_ok h
    exact True.intro
  · obtain ⟨_, -, rfl⟩ := parseWire_ok h
    exact True.intro
  · rename_i hpre
    obtain ⟨_, rfl, -, -⟩ := parsePair_ok h
    exact ⟨hpre, h⟩
  · cases h
    exact True.intro
  · cases h
    exact True.intro
  · cases h
    exact True.intro
  · obtain ⟨rfl, hident⟩ := parseFeature_ok h
    exact ⟨rfl, hident⟩
  · obtain ⟨_, -, rfl⟩ := parseWire_ok h
    exact True.intro
  · obtain ⟨rfl, hident⟩ := parseFeature_ok h
    exact ⟨rfl, hident⟩
  · obtain ⟨rfl, hident⟩ := parseFeature_ok h
    exact ⟨rfl, hident⟩
  · rename_i hpre
    obtain ⟨_, rfl, -, -⟩ := parsePair_ok h
    exact ⟨hpre, h⟩
  · obtain ⟨_, -, rfl⟩ := parseWire_ok h
    exact True.intro
  · obtain ⟨_, rfl, -, -⟩ := parsePair_ok h
    exact True.intro
  · simp only [parseDep, bind_eq_ok_iff, pure_eq_ok_iff] at h
    obtain ⟨_, -, _, -, rfl⟩ := h
    exact True.intro

theorem spells_of_parsePair (hrole : (splitPrefix raw).1 = role)
    (h : parsePair first second link malformed (splitPrefix raw).2 = .ok result) :
    ∃ pair, result = link pair.1 pair.2 ∧ IsPair pair ∧
      raw.toList = role.toList ++ ':' :: (pair.1.toList ++ '/' :: pair.2.toList) := by
  obtain ⟨pair, hlink, hpair, hvalue⟩ := parsePair_ok h
  exact ⟨pair, hlink, hpair, splitPrefix_spells hrole hvalue (by simp)⟩

theorem parseLink_spells (h : parseLink parseUlid raw = .ok result) :
    result.Spells (trim raw.toList) := by
  have hread := parseLink_readFrom h
  cases result with
  | version a b | track a b =>
    obtain ⟨pair, hlink, hpair, hspel⟩ := spells_of_parsePair hread.1 hread.2
    cases hlink
    rw [toList_ofList] at hspel
    exact ⟨hpair, hspel⟩
  | _ => exact True.intro

theorem mem_versionsOf_parsedLinks : version ∈ versionsOf (parsedLinks parseUlid targets) ↔
      ∃ raw ∈ targets, parseLink parseUlid raw = .ok (.version version.1 version.2) := by
  simp only [versionsOf, parsedLinks, mem_filterMap, toOption_eq_some_iff]
  constructor
  · rintro ⟨link, ⟨raw, hraw, hlink⟩, hver⟩
    split at hver
    · cases hver
      exact ⟨raw, hraw, hlink⟩
    · cases hver
  · rintro ⟨raw, hraw, hlink⟩
    exact ⟨_, ⟨raw, hraw, hlink⟩, rfl⟩

theorem mem_tracksOf_parsedLinks : track ∈ tracksOf (parsedLinks parseUlid targets) ↔
      ∃ raw ∈ targets, parseLink parseUlid raw = .ok (.track track.1 track.2) := by
  simp only [tracksOf, parsedLinks, mem_filterMap, toOption_eq_some_iff]
  constructor
  · rintro ⟨link, ⟨raw, hraw, hlink⟩, htrack⟩
    split at htrack
    · cases htrack
      exact ⟨raw, hraw, hlink⟩
    · cases htrack
  · rintro ⟨raw, hraw, hlink⟩
    exact ⟨_, ⟨raw, hraw, hlink⟩, rfl⟩

theorem isPair_of_mem_versionsOf (h : version ∈ versionsOf (parsedLinks parseUlid targets)) :
    IsPair version := by
  obtain ⟨raw, -, hraw⟩ := mem_versionsOf_parsedLinks.1 h
  exact (parseLink_spells hraw).1

theorem isPair_of_mem_tracksOf (h : track ∈ tracksOf (parsedLinks parseUlid targets)) : IsPair track := by
  obtain ⟨raw, -, hraw⟩ := mem_tracksOf_parsedLinks.1 h
  exact (parseLink_spells hraw).1

theorem isIdent_of_parseLink_project (h : parseLink parseUlid raw = .ok (.project name)) :
    IsIdent name := by
  obtain ⟨hname, hident⟩ := parseLink_readFrom h
  rw [hname]
  exact hident

theorem isIdent_of_mem_projectsOf (h : name ∈ projectsOf (parsedLinks parseUlid targets)) :
    IsIdent name := by
  simp only [projectsOf, parsedLinks, mem_filterMap, toOption_eq_some_iff] at h
  obtain ⟨link, ⟨raw, -, hlink⟩, hname⟩ := h
  split at hname
  · cases hname
    exact isIdent_of_parseLink_project hlink
  · cases hname

end Parsed

/-! ## 5. Nodes of the graph -/

def nodeText (role value : String) : String := role ++ ":" ++ value

/-- The node that a role points at.  An annex and a dependency point at a note. -/
def ProjectMapLink.node : ProjectMapLink → Option String
  | .project name => some (nodeText "project" name)
  | .status s => some (nodeText "status" s.asWire)
  | .kind k => some (nodeText "kind" k.asWire)
  | .version p v => some (nodeText "version" (p ++ "/" ++ v))
  | .feature id => some (nodeText "feature" id)
  | .release r => some (nodeText "release" r.asWire)
  | .supersedes id => some (nodeText "feature" id)
  | .parent id => some (nodeText "feature" id)
  | .track p target => some (nodeText "track" (p ++ "/" ++ target))
  | .visibility v => some (nodeText "visibilite" v.asWire)
  | .porteuse p v => some (nodeText "porteuse" (p ++ "/" ++ v))
  | .annex .. | .dep .. => none

def reservedNodeTarget (parseUlid : String → Option NoteId) (raw : String) : Option String :=
  (parseLink parseUlid raw).toOption.bind ProjectMapLink.node

theorem StatusKind.asWire_fromWire (h : StatusKind.fromWire value = some status) :
    status.asWire = value := by
  simpa using find?_some h

theorem KindKind.asWire_fromWire (h : KindKind.fromWire value = some kind) : kind.asWire = value := by
  simpa using find?_some h

theorem VisibilityKind.asWire_fromWire (h : VisibilityKind.fromWire value = some visibility) :
    visibility.asWire = value := by
  unfold VisibilityKind.fromWire at h
  split at h <;> cases h <;> rfl

theorem ReleaseKind.asWire_fromWire (h : ReleaseKind.fromWire value = some release) :
    release.asWire = value := by
  unfold ReleaseKind.fromWire at h
  split at h <;> cases h <;> rfl

section Node

variable {parseUlid : String → Option NoteId} {raw node : String} {link : ProjectMapLink}

/-- The parser normalises nothing but the white space around a link. -/
theorem node_of_parseLink (h : parseLink parseUlid raw = .ok link) (hnode : link.node = some node) :
    node = String.ofList (trim raw.toList) ∨
      ∃ id, (link = .supersedes id ∨ link = .parent id) ∧ isFeatureIdent id = true := by
  unfold parseLink at h
  dsimp only at h
  rw [bind_eq_ok_iff] at h
  obtain ⟨_, hresv, h⟩ := h
  generalize String.ofList (trim raw.toList) = text at h hresv ⊢
  have hspell : ∀ {role : String}, (splitPrefix text).1 = role → reservedPrefixes.contains role = true →
      nodeText role (splitPrefix text).2 = text := by
    intro role hrole hmem
    have hne : (splitPrefix text).2.toList ≠ [] := by
      intro hempty
      rw [require_eq_ok_iff, hrole, hmem, toList_eq_nil_iff.1 hempty] at hresv
      cases hresv
    rw [← toList_inj, splitPrefix_spells hrole rfl hne]
    simp [nodeText]
  have hpair : ∀ {role first second : String} {mk : String → String → ProjectMapLink}
      {malformed : String → SchemaError}, (splitPrefix text).1 = role →
      reservedPrefixes.contains role = true →
      (∀ a b, (mk a b).node = some (nodeText role (a ++ "/" ++ b))) →
      parsePair first second mk malformed (splitPrefix text).2 = .ok link → node = text := by
    intro role first second mk malformed hrole hmem hmk hlink
    obtain ⟨pair, rfl, -, hvalue⟩ := parsePair_ok hlink
    have hvalue : (splitPrefix text).2 = pair.1 ++ "/" ++ pair.2 := by
      rw [← toList_inj, hvalue]
      simp
    rw [hmk, ← hvalue, hspell hrole hmem] at hnode
    exact (Option.some.inj hnode).symm
  -- the cases are the reserved roles in their order, and a dependency
  split at h
  · rename_i hrole
    simp only [bind_eq_ok_iff, pure_eq_ok_iff] at h
    obtain ⟨_, -, rfl⟩ := h
    cases hnode
    exact .inl (hspell hrole (by decide))
  · rename_i hrole
    obtain ⟨status, hstat, rfl⟩ := parseWire_ok h
    cases hnode
    rw [StatusKind.asWire_fromWire hstat]
    exact .inl (hspell hrole (by decide))
  · rename_i hrole
    obtain ⟨kind, hkind, rfl⟩ := parseWire_ok h
    cases hnode
    rw [KindKind.asWire_fromWire hkind]
    exact .inl (hspell hrole (by decide))
  · rename_i hrole
    exact .inl (hpair hrole (by decide) (fun _ _ => rfl) h)
  · cases h
    cases hnode
  · cases h
    cases hnode
  · cases h
    cases hnode
  · rename_i hrole
    obtain ⟨rfl, -⟩ := parseFeature_ok h
    cases hnode
    exact .inl (hspell hrole (by decide))
  · rename_i hrole
    obtain ⟨release, hrel, rfl⟩ := parseWire_ok h
    cases hnode
    rw [ReleaseKind.asWire_fromWire hrel]
    exact .inl (hspell hrole (by decide))
  · obtain ⟨rfl, hident⟩ := parseFeature_ok h
    exact .inr ⟨_, .inl rfl, hident⟩
  · obtain ⟨rfl, hident⟩ := parseFeature_ok h
    exact .inr ⟨_, .inr rfl, hident⟩
  · rename_i hrole
    exact .inl (hpair hrole (by decide) (fun _ _ => rfl) h)
  · rename_i hrole
    obtain ⟨visibility, hvisibility, rfl⟩ := parseWire_ok h
    cases hnode
    rw [VisibilityKind.asWire_fromWire hvisibility]
    exact .inl (hspell hrole (by decide))
  · rename_i hrole
    exact .inl (hpair hrole (by decide) (fun _ _ => rfl) h)
  · simp only [parseDep, bind_eq_ok_iff, pure_eq_ok_iff] at h
    obtain ⟨_, -, _, -, rfl⟩ := h
    cases hnode

theorem splitPrefix_append (hrole : ':' ∉ role.toList) (value : String) :
    splitPrefix (role ++ ":" ++ value) = (role, value) := by
  have htext : (role ++ ":" ++ value).toList = role.toList ++ ':' :: value.toList := by simp
  have hneq : ∀ c ∈ role.toList, (decide (c ≠ ':')) = true := by
    intro c hc
    exact decide_eq_true fun heq => hrole (heq ▸ hc)
  unfold splitPrefix splitOnce
  rw [htext, if_pos (by simp), takeWhile_append_of_pos hneq, dropWhile_append_of_pos hneq]
  simp

theorem parseLink_nodeText_feature (hne : value ≠ "")
    (htrim : String.ofList (trim (nodeText "feature" value).toList) = nodeText "feature" value) :
    parseLink parseUlid (nodeText "feature" value) = parseFeature .feature value := by
  have hsplit : splitPrefix (nodeText "feature" value) = ("feature", value) :=
    splitPrefix_append (by decide) value
  unfold parseLink
  rw [htrim]
  dsimp only
  rw [hsplit]
  simp only [hne, decide_false, Bool.and_false, Bool.not_false, require]
  rfl

theorem isWhiteSpace_of_isIdentChar (h : isIdentChar c = true) : isWhiteSpace c = false := by
  have hrange : 45 ≤ c.toNat ∧ c.toNat ≤ 122 := by
    delta isIdentChar Char.isLower at h
    simp only [Char.isDigit, Bool.or_eq_true, Bool.and_eq_true, decide_eq_true_eq] at h
    rcases h with (((⟨h₁, h₂⟩ | ⟨h₁, h₂⟩) | h) | h) | h
    · exact ⟨le_trans (by decide) (UInt32.le_iff_toNat_le.1 h₁), UInt32.le_iff_toNat_le.1 h₂⟩
    · exact ⟨le_trans (by decide) (UInt32.le_iff_toNat_le.1 h₁),
        le_trans (UInt32.le_iff_toNat_le.1 h₂) (by decide)⟩
    · rw [h]
      decide
    · rw [h]
      decide
    · rw [h]
      decide
  obtain ⟨hlow, hhigh⟩ := hrange
  unfold isWhiteSpace
  simp only [Bool.or_eq_false_iff, Bool.and_eq_false_iff, decide_eq_false_iff_not,
    contains_eq_mem, mem_cons, not_mem_nil, or_false]
  omega

theorem parseLink_nodeText_of_isFeatureIdent {id : String} (h : isFeatureIdent id = true) :
    parseLink parseUlid (nodeText "feature" id) = .ok (.feature id) := by
  have hshape : ∃ digits, id.toList = 'F' :: '-' :: digits ∧ digits.all Char.isDigit = true := by
    unfold isFeatureIdent at h
    split at h
    · rename_i digits heq
      exact ⟨digits, heq, (Bool.and_eq_true _ _ ▸ h).2⟩
    · cases h
  obtain ⟨digits, hid, hdigs⟩ := hshape
  have hne : id ≠ "" := by
    rintro rfl
    cases hid
  rw [parseLink_nodeText_feature hne, parseFeature, validateFeatureIdent, h]
  · rfl
  · rw [trim_of_forall, ofList_toList]
    intro c hc
    have hmem : c ∈ "feature:F-".toList ∨ c ∈ digits := by
      have htext : (nodeText "feature" id).toList = "feature:F-".toList ++ digits := by
        simp [nodeText, hid]
      rw [htext] at hc
      exact mem_append.1 hc
    rcases hmem with hrole | hdigit
    · have hplain : ∀ c ∈ "feature:F-".toList, isWhiteSpace c = false :=
        @of_decide_eq_true _ (List.decidableBAll _ _) rfl
      exact hplain c hrole
    · apply isWhiteSpace_of_isIdentChar
      simp [isIdentChar, List.all_eq_true.1 hdigs c hdigit]

theorem reservedNodeTarget_eq_some_iff : reservedNodeTarget parseUlid raw = some node ↔
      ∃ link, parseLink parseUlid raw = .ok link ∧ link.node = some node := by
  simp only [reservedNodeTarget, Option.bind_eq_some_iff, toOption_eq_some_iff]

theorem parseLink_reservedNodeTarget (h : reservedNodeTarget parseUlid raw = some node) :
    (∃ link, parseLink parseUlid node = .ok link) ∧ reservedNodeTarget parseUlid node = some node ∧
      ((∀ id, parseLink parseUlid raw ≠ .ok (.supersedes id) ∧ parseLink parseUlid raw ≠ .ok (.parent id)) →
        parseLink parseUlid node = parseLink parseUlid raw) := by
  obtain ⟨link, hlink, hnode⟩ := reservedNodeTarget_eq_some_iff.1 h
  rcases node_of_parseLink hlink hnode with htrim | ⟨id, hrole, hident⟩
  · have hsame : parseLink parseUlid node = parseLink parseUlid raw := by
      unfold parseLink
      rw [htrim, toList_ofList, (trimmed_trim _).trim_eq]
    exact ⟨⟨link, hsame.trans hlink⟩,
      reservedNodeTarget_eq_some_iff.2 ⟨link, hsame.trans hlink, hnode⟩, fun _ => hsame⟩
  · have hfeat : node = nodeText "feature" id := by
      rcases hrole with rfl | rfl <;> exact (Option.some.inj hnode).symm
    have hparse : parseLink parseUlid (nodeText "feature" id) = .ok (.feature id) :=
      parseLink_nodeText_of_isFeatureIdent hident
    rw [hfeat]
    refine ⟨⟨_, hparse⟩, reservedNodeTarget_eq_some_iff.2 ⟨_, hparse, rfl⟩, fun hother => ?_⟩
    rcases hrole with rfl | rfl
    · exact absurd hlink (hother id).1
    · exact absurd hlink (hother id).2

theorem parseLink_reservedNodeTarget_status :
    reservedNodeTarget (fun _ => none) " status:OPEN " = some "status:OPEN" ∧
      reservedNodeTarget (fun _ => none) "status:OPEN" = some "status:OPEN" :=
  have h : reservedNodeTarget (fun _ => none) " status:OPEN " = some "status:OPEN" := by decide +kernel
  ⟨h, (parseLink_reservedNodeTarget h).2.1⟩

end Node

end Gradatum.ProjectMap
