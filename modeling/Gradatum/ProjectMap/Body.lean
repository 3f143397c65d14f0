import Gradatum.ProjectMap.Link

/-!
# Links in the body of a card

`extract_wikilinks` takes every `[[..]]` of the text; the structural reader takes the links of the lines that
consist of links and separators, outside code fences.  The write path asks the first one, every projection
the second.
-/

namespace Gradatum.ProjectMap

open Notes

/-! ## 1. Links anywhere -/

/-- A match of `\[\[([^\]\|]+)(?:\|[^\]]+)?\]\]` at the beginning of the text: its first group and the
text after it.  No character class shares a character with what follows it, so a greedy match is the
only one. -/
def wikilinkAt : List Char → Option (List Char × List Char)
  | '[' :: '[' :: text =>
    let name := text.takeWhile fun c => c ≠ ']' && c ≠ '|'
    match name, text.dropWhile fun c => c ≠ ']' && c ≠ '|' with
    | [], _ => none
    | _, ']' :: ']' :: rest => some (name, rest)
    | _, '|' :: more =>
      match more.takeWhile (· ≠ ']'), more.dropWhile (· ≠ ']') with
      | [], _ => none
      | _, ']' :: ']' :: rest => some (name, rest)
      | _, _ => none
    | _, _ => none
  | _ => none

/-- The matches in their order; a match goes on after the one before it.  A step uses up at least one
character, so the length of the text is enough fuel. -/
def wikilinksFrom : Nat → List Char → List (List Char)
  | 0, _ => []
  | _, [] => []
  | n + 1, c :: cs =>
    match wikilinkAt (c :: cs) with
    | some (name, rest) => trim name :: wikilinksFrom n rest
    | none => wikilinksFrom n cs

def extractWikilinks (body : String) : List String :=
  (wikilinksFrom body.length body.toList).map String.ofList

/-! ## 2. Structural lines -/

/-- The text before and after the first `cc`. -/
def breakAt (c : Char) : List Char → Option (List Char × List Char)
  | a :: b :: rest =>
    if a = c ∧ b = c then some ([], rest)
    else (breakAt c (b :: rest)).map fun (before, after) => (a :: before, after)
  | _ => none

/-- A `[[..]]` of a line and the text between it and the one before. -/
structure Token where
  before : List Char
  inner : List Char
  deriving DecidableEq

def lineTokens : Nat → List Char → List Token × List Char
  | 0, rest => ([], rest)
  | n + 1, rest =>
    match breakAt '[' rest with
    | none => ([], rest)
    | some (before, afterOpen) =>
      match breakAt ']' afterOpen with
      -- a `[[` that no `]]` follows is text
      | none => ([], before ++ rest)
      | some (inner, more) =>
        let (tokens, tail) := lineTokens n more
        (⟨before, inner⟩ :: tokens, tail)

def isSep (c : Char) : Bool :=
  [' ', '\t', '·', '•', '|', ',', '—', '–', '-'].contains c

/-- There are links on the line and only separators beside them. -/
def isStructural (tokens : List Token) (tail : List Char) : Bool :=
  !tokens.isEmpty && (tokens.flatMap Token.before ++ tail).all isSep

def structuralTargetsOnLine (line : List Char) : List (List Char) :=
  let (tokens, tail) := lineTokens line.length line
  if isStructural tokens tail then tokens.map fun token => trim token.inner else []

def isFenceLine (line : List Char) : Bool := "```".toList.isPrefixOf (trimStart line)

def scanStructuralTargets (inFence : Bool) : List (List Char) → List (List Char)
  | [] => []
  | line :: rest =>
    if isFenceLine line then scanStructuralTargets (!inFence) rest
    else if inFence then scanStructuralTargets inFence rest
    else structuralTargetsOnLine line ++ scanStructuralTargets inFence rest

def extractStructuralTargets (body : String) : List String :=
  (scanStructuralTargets false (linesFrom [] body.toList)).map String.ofList

section Roles

variable (parseUlid : String → Option NoteId) (body : String)

def bodyLinks : List ProjectMapLink := parsedLinks parseUlid (extractWikilinks body)

def structuralLinks : List ProjectMapLink :=
  parsedLinks parseUlid (extractStructuralTargets body)

/-! ## 3. What is read off a body -/

def featureIdentityFromTargets (targets : List String) : List String :=
  (featuresOf (parsedLinks parseUlid targets)).mergeSort (· ≤ ·)

/-- A title without a colon is not a role; any other link that does not parse is refused. -/
def keepLinks : List (Except SchemaError ProjectMapLink) → Except SchemaError (List ProjectMapLink)
  | [] => .ok []
  | .ok link :: rest => (keepLinks rest).map (link :: ·)
  | .error e :: rest => if e.isMissingPrefix then keepLinks rest else .error e

def cardLinks (targets : List String) : Except SchemaError (List ProjectMapLink) :=
  keepLinks (targets.map (parseLink parseUlid))

def validateCardBody : Except SchemaError Unit := do
  let links ← cardLinks parseUlid (extractStructuralTargets body)
  validateLinks links

/-- `format!("{project}/{version}")`. -/
def identityText (pair : String × String) : String := pair.1 ++ "/" ++ pair.2

def derivableTrackTarget : Option String :=
  let links := structuralLinks parseUlid body
  match versionsOf links with
  | [version] =>
    if (tracksOf links).isEmpty && (kindsOf links).getLast?.any (!·.isStructure) then
      some (identityText version)
    else none
  | _ => none

def rolesOfBody : ProjectMapRoles where
  kind := (kindsOf (structuralLinks parseUlid body)).head?.map KindKind.asWire
  status := (statusesOf (structuralLinks parseUlid body)).head?.map StatusKind.asWire

/-! ## 4. Titles -/

/-- The project and the version that the title of a card names.  The track comes before the version. -/
def titleSourcesOfBody : Option String × Option String :=
  let links := structuralLinks parseUlid body
  let version := ((tracksOf links).head?.or (versionsOf links).head?).map Prod.snd
  ((projectsOf links).head?, version.filter (· ≠ "backlog"))

end Roles

def isVersionSuffixCandidate (tail : List Char) : Bool :=
  let tail := trim tail
  ["backlog".toList, "vX.Y.Z".toList, "X.Y.Z".toList].contains tail ||
    match tail with
    | 'v' :: core => !core.isEmpty && core.all (fun c => c.isDigit || c = '.') && core.any Char.isDigit
    | _ => false

/-- Peel the groups `[..]` off the beginning; each one has a character, so the length is enough fuel. -/
def peelGroups : Nat → List Char → List Char
  | 0, title => title
  | n + 1, title =>
    match trimStart title with
    | '[' :: inner =>
      if ']' ∈ inner then peelGroups n ((inner.dropWhile (· ≠ ']')).drop 1) else title
    | _ => title

/-- The text before and after the last `c`. -/
def rsplitOnce (c : Char) (text : List Char) : Option (List Char × List Char) :=
  if c ∈ text then
    some (((text.reverse.dropWhile (· ≠ c)).drop 1).reverse, (text.reverse.takeWhile (· ≠ c)).reverse)
  else none

def stripPrefixAndVersionSuffix (title : String) : List Char :=
  let subject := trim (peelGroups title.length (trim title.toList))
  let heads := ['—', '–', '-'].filterMap fun dash =>
    (rsplitOnce dash subject).bind fun (head, tail) =>
      if isVersionSuffixCandidate tail then some (trim head) else none
  heads.head?.getD subject

def deriveCanonicalTitle (parseUlid : String → Option NoteId) (body currentTitle : String) : String :=
  let (project, version) := titleSourcesOfBody parseUlid body
  match project with
  | none => currentTitle
  | some project =>
    let subject := stripPrefixAndVersionSuffix currentTitle
    let suffix := match version with
      | some version => " — v" ++ version
      | none => ""
    "[PROJECT-MAP][" ++ project ++ "]" ++
      (if subject = [] then "" else " " ++ String.ofList subject) ++ suffix

end Gradatum.ProjectMap
