import Mathlib.Data.Rat.Defs

/-!
# Notes

A note lives twice: as a Markdown file with a frontmatter, and as a row of the `notes` table of the
index.  This module has the two forms, the paths a file can lie at, and the row that the index makes of
a note.
-/

namespace Gradatum.Notes

/-! ## 1. Values of the extra table -/

/-- A TOML value that holds no other.  Floats and datetimes are kept by their text. -/
inductive Scalar where
  | string (s : String)
  | integer (n : Int)
  | boolean (b : Bool)
  | other (text : String)
  deriving DecidableEq

/-- A TOML value.  The entries of a table are in the order of its `BTreeMap`. -/
inductive Toml where
  | scalar (s : Scalar)
  | array (items : List Toml)
  | table (entries : List (String × Toml))

mutual

def Toml.decEq : (a b : Toml) → Decidable (a = b)
  | .scalar s, .scalar t => decidable_of_iff (s = t) (by simp)
  | .array xs, .array ys =>
    have := Toml.decEqItems xs ys
    decidable_of_iff (xs = ys) (by simp)
  | .table es, .table fs =>
    have := Toml.decEqEntries es fs
    decidable_of_iff (es = fs) (by simp)
  | .scalar _, .array _ | .scalar _, .table _ | .array _, .scalar _ | .array _, .table _
  | .table _, .scalar _ | .table _, .array _ => isFalse nofun

def Toml.decEqItems : (xs ys : List Toml) → Decidable (xs = ys)
  | [], [] => isTrue rfl
  | [], _ :: _ | _ :: _, [] => isFalse nofun
  | x :: xs, y :: ys =>
    have := Toml.decEq x y
    have := Toml.decEqItems xs ys
    decidable_of_iff (x = y ∧ xs = ys) (by simp)

def Toml.decEqEntries : (es fs : List (String × Toml)) → Decidable (es = fs)
  | [], [] => isTrue rfl
  | [], _ :: _ | _ :: _, [] => isFalse nofun
  | (k, x) :: es, (l, y) :: fs =>
    have := Toml.decEq x y
    have := Toml.decEqEntries es fs
    decidable_of_iff (k = l ∧ x = y ∧ es = fs) (by simp [and_assoc])

end

instance : DecidableEq Toml := Toml.decEq

def Toml.text (s : String) : Toml := .scalar (.string s)

def Toml.int (n : Int) : Toml := .scalar (.integer n)

def Toml.get? (key : String) : Toml → Option Toml
  | .table entries => entries.lookup key
  | _ => none

def Toml.asStr? : Toml → Option String
  | .scalar (.string s) => some s
  | _ => none

abbrev ExtraFields := String → Option Toml

def ExtraFields.empty : ExtraFields := fun _ => none

def ExtraFields.insert (extra : ExtraFields) (key : String) (value : Toml) : ExtraFields :=
  Function.update extra key (some value)

/-! ## 2. Sections -/

inductive Section where
  | decisions
  | architecture
  | debug
  | reasoning
  | feedback
  | lessonsLearned
  | retrospectives
  | experiments
  | agentIssues
  | reference
  | council
  | projectMap
  | identity
  | snapshot
  | messaging
  deriving DecidableEq

def Section.all : List Section :=
  [.decisions, .architecture, .debug, .reasoning, .feedback, .lessonsLearned, .retrospectives,
    .experiments, .agentIssues, .reference, .council, .projectMap, .identity, .snapshot, .messaging]

def Section.asStr : Section → String
  | .decisions => "decisions"
  | .architecture => "architecture"
  | .debug => "debug"
  | .reasoning => "reasoning"
  | .feedback => "feedback"
  | .lessonsLearned => "lessons-learned"
  | .retrospectives => "retrospectives"
  | .experiments => "experiments"
  | .agentIssues => "agent-issues"
  | .reference => "reference"
  | .council => "council"
  | .projectMap => "project-map"
  | .identity => "identity"
  | .snapshot => "snapshot"
  | .messaging => "messaging"

def Section.fromCanonicalStr (s : String) : Option Section :=
  Section.all.find? fun sec => sec.asStr = s

theorem Section.fromCanonicalStr_asStr (sec : Section) :
    Section.fromCanonicalStr sec.asStr = some sec := by
  cases sec <;> decide

theorem Section.asStr_of_fromCanonicalStr (h : Section.fromCanonicalStr s = some sec) : sec.asStr = s := by
  have hfound := List.find?_some h
  exact of_decide_eq_true hfound

def sectionToCKind : Section → String
  | .architecture => "semantic"
  | .decisions => "episodic"
  | .debug => "episodic"
  | .reasoning => "semantic"
  | .feedback => "reflective"
  | .lessonsLearned => "semantic"
  | .retrospectives => "reflective"
  | .experiments => "semantic"
  | .agentIssues => "procedural"
  | .reference => "semantic"
  | .council => "episodic"
  | .projectMap => "procedural"
  | .identity => "procedural"
  | .snapshot => "episodic"
  | .messaging => "episodic"

def sectionToDocKind : Section → String
  | .debug | .agentIssues | .snapshot | .council | .messaging => "Event"
  | .architecture | .decisions | .reasoning | .feedback | .lessonsLearned | .retrospectives
  | .experiments | .reference | .projectMap | .identity => "Static"

/-! ## 3. The file -/

/-- A note's ULID by its 128-bit value. -/
abbrev NoteId := Nat

abbrev VaultId := String

abbrev Tag := String

/-- A UTC instant, in nanoseconds since the epoch. -/
abbrev Instant := Int

def Instant.millis (t : Instant) : Int := t / 1000000

/-- A SHA-256 digest, as a number. -/
abbrev ContentHash := Nat

structure LocusId where
  path : String
  nonempty : path ≠ ""
  deriving DecidableEq

inductive NoteStatus where
  | draft
  | staging
  | pendingReview
  | live
  | deprecated
  | garbage
  deriving DecidableEq

inductive AuthorKind where
  | human
  | mainAgent
  | subAgent
  | system
  deriving DecidableEq

structure AuthorRef where
  kind : AuthorKind
  id : String
  displayName : Option String
  deriving DecidableEq

structure Frontmatter where
  schemaVersion : Nat
  vaultId : VaultId
  locus : Option LocusId
  «section» : Section
  status : NoteStatus
  statusReason : Option String
  statusChanged : Option Instant
  tags : List Tag
  author : Option AuthorRef
  created : Instant
  updated : Option Instant
  extra : ExtraFields
  provenance : Option String
  forgotten : Option Bool
  forgottenAt : Option Instant
  forgottenBy : Option String

structure MdFile where
  frontmatter : Frontmatter
  body : String

structure Note where
  id : NoteId
  frontmatter : Frontmatter
  body : String
  contentHash : ContentHash

def Note.file (note : Note) : MdFile := ⟨note.frontmatter, note.body⟩

/-- The path `<vault>/<dir>/<id>.md`, or `<vault>/<id>.md`.  A vault id and a ULID contain no slash, so
two such paths are the same text only if their parts are. -/
structure NotePath where
  vault : VaultId
  dir : Option String
  id : NoteId
  deriving DecidableEq

/-- Where a note is written: its own frontmatter decides. -/
def noteMdRelativePath (note : Note) : NotePath :=
  ⟨note.frontmatter.vaultId, note.frontmatter.locus.map (·.path), note.id⟩

/-! ## 4. The row -/

/-- The `status` column holds the status of the frontmatter, or `downgraded`, which is the status of no
frontmatter: `downgrade_note` writes it into the index alone. -/
inductive RowStatus where
  | of (status : NoteStatus)
  | downgraded
  deriving DecidableEq

instance : Coe NoteStatus RowStatus := ⟨.of⟩

/-- A row of `notes`, but for its key.  `extraJson` and `tags` stand for the texts the columns hold, an
empty table and an empty list for NULL. -/
structure NoteRow where
  locus : Option String
  «section» : Section
  status : RowStatus
  schemaVersion : Nat
  author : Option AuthorRef
  created : Int
  updated : Option Int
  statusChanged : Option Int
  statusReason : Option String
  contentHash : ContentHash
  version : Nat
  bodyText : String
  integritySignature : Option String
  extraJson : ExtraFields
  tags : List Tag
  replacedBy : Option NoteId
  title : Option String
  cKind : Option String
  docKind : Option String
  provenance : Option String
  trust : Option Rat
  forgotten : Bool
  forgottenAt : Option Int
  forgottenBy : Option String
  orphaned : Bool
  roleKind : Option String
  roleStatus : Option String

structure NoteKey where
  vault : VaultId
  id : NoteId
  deriving DecidableEq

def trustScores : List (String × Rat) :=
  [("human-decision", 95 / 100), ("qa-event", 75 / 100), ("distilled", 60 / 100),
    ("agent-log", 50 / 100), ("web-scraped", 35 / 100)]

def trustFor (provenance : String) : Option Rat := trustScores.lookup provenance

structure ProjectMapRoles where
  kind : Option String
  status : Option String

section Rows

variable (rolesOfBody : String → ProjectMapRoles)

def rolesOf (sec : Section) (body : String) : ProjectMapRoles :=
  match sec with
  | .projectMap => rolesOfBody body
  | _ => ⟨none, none⟩

/-- The row of an `INSERT INTO notes`; the columns it does not name have their defaults. -/
def rowOfNote (note : Note) : NoteRow where
  locus := note.frontmatter.locus.map (·.path)
  «section» := note.frontmatter.section
  status := note.frontmatter.status
  schemaVersion := note.frontmatter.schemaVersion
  author := note.frontmatter.author
  created := note.frontmatter.created.millis
  updated := note.frontmatter.updated.map Instant.millis
  statusChanged := note.frontmatter.statusChanged.map Instant.millis
  statusReason := note.frontmatter.statusReason
  contentHash := note.contentHash
  version := 1
  bodyText := note.body
  integritySignature := none
  extraJson := note.frontmatter.extra
  tags := note.frontmatter.tags
  replacedBy := none
  title := none
  cKind := some (sectionToCKind note.frontmatter.section)
  docKind := some (sectionToDocKind note.frontmatter.section)
  provenance := note.frontmatter.provenance
  trust := some ((note.frontmatter.provenance.bind trustFor).getD (50 / 100))
  forgotten := false
  forgottenAt := none
  forgottenBy := none
  orphaned := false
  roleKind := (rolesOf rolesOfBody note.frontmatter.section note.body).kind
  roleStatus := (rolesOf rolesOfBody note.frontmatter.section note.body).status

end Rows

/-- `ON CONFLICT(vault_id, id) DO UPDATE`: the row `old` after the insertion of `excluded` hit it.  Six
columns that the insertion does not name, and `created`, stay. -/
def NoteRow.onConflict (old excluded : NoteRow) : NoteRow :=
  { old with
    -- `CASE WHEN`: writing the same version again does not move the row
    locus := if old.contentHash ≠ excluded.contentHash then excluded.locus else old.locus
    «section» := excluded.section
    status := excluded.status
    schemaVersion := excluded.schemaVersion
    author := excluded.author
    updated := excluded.updated
    statusChanged := excluded.statusChanged
    statusReason := excluded.statusReason
    contentHash := excluded.contentHash
    version := excluded.version
    bodyText := excluded.bodyText
    integritySignature := excluded.integritySignature
    extraJson := excluded.extraJson
    tags := excluded.tags
    cKind := excluded.cKind
    docKind := excluded.docKind
    provenance := excluded.provenance
    -- likewise, a trust that was set by hand lasts as long as the provenance
    trust := if old.provenance ≠ excluded.provenance then excluded.trust else old.trust
    roleKind := excluded.roleKind
    roleStatus := excluded.roleStatus }

theorem NoteRow.onConflict_locus {old excluded : NoteRow}
    (hne : old.contentHash ≠ excluded.contentHash) :
    (old.onConflict excluded).locus = excluded.locus := if_pos hne

end Gradatum.Notes
