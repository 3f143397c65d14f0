import Gradatum.ProjectMap.Body

/-!
# Replacing the value of one role

`mutate_typed_role` replaces the value of a link in the text of a card and leaves the rest as it is;
`append_history_line` adds a line to the section `Historique`.
-/

namespace Gradatum.ProjectMap

open Notes

/-! ## 1. Roles and errors -/

inductive MutableRole where
  | status
  | kind
  | release
  | version
  | track
  deriving DecidableEq

def MutableRole.wirePrefix : MutableRole → String
  | .status => "status"
  | .kind => "kind"
  | .release => "release"
  | .version => "version"
  | .track => "track"

inductive RoleMutationError where
  | unknownRoleType (roleType : String)
  | immutableIdentity (roleType : String)
  | roleAbsent (pre : String)
  | ambiguous (pre : String)
  | invalidNewValue (pre value : String)
  | historyLineInvalid
  deriving DecidableEq

def RoleMutationError.message : RoleMutationError → String
  | unknownRoleType roleType => "unknown role type " ++ roleType.quote ++
      ": only status/kind/release/version/track are mutable"
  | immutableIdentity roleType => "role " ++ roleType.quote ++
      " is the card identity and is immutable — a rename is a new card plus [[supersedes:]], " ++
      "never an in-place mutation"
  | roleAbsent pre => s!"role [[{pre}:…]] is absent from the card's structural zone — mutation " ++
      "refuses to create a role, only to replace an existing value"
  | ambiguous pre => s!"multiple structural [[{pre}:…]] roles — ambiguous, refusing to guess which " ++
      "to mutate"
  | invalidNewValue pre value => "new value " ++ value.quote ++ s!" is not a valid [[{pre}:…]] role value"
  | historyLineInvalid => "history line carries a structural-role marker `[[` — refused: this path " ++
      "never injects a structural role into a card body"

/-- The identity of a card is refused by name. -/
def MutableRole.fromWire : String → Except RoleMutationError MutableRole
  | "status" => .ok .status
  | "kind" => .ok .kind
  | "release" => .ok .release
  | "version" => .ok .version
  | "track" => .ok .track
  | "feature" => .error (.immutableIdentity "feature")
  | "project" => .error (.immutableIdentity "project")
  | other => .error (.unknownRoleType other)

def MutableRole.matchesVariant : MutableRole → ProjectMapLink → Bool
  | .status, .status _ => true
  | .kind, .kind _ => true
  | .release, .release _ => true
  | .version, .version _ _ => true
  | .track, .track _ _ => true
  | _, _ => false

/-! ## 2. Finding the value -/

structure RoleValueSpan where
  valueStart : Nat
  valueEnd : Nat
  deriving DecidableEq

def stripSuffix (c : Char) (text : List Char) : List Char :=
  if text.getLast? = some c then text.dropLast else text

def stripEol (line : List Char) : List Char := stripSuffix '\r' (stripSuffix '\n' line)

/-- The links of the role on a line whose first token begins at `cursor`, each with the span after its
first colon. -/
def roleSpans (pre : String) (cursor : Nat) : List Token → List (Option RoleValueSpan)
  | [] => []
  | token :: rest =>
    let innerStart := cursor + token.before.length + 2
    let innerEnd := innerStart + token.inner.length
    let span :=
      if ':' ∈ token.inner then
        some ⟨innerStart + (token.inner.takeWhile (· ≠ ':')).length + 1, innerEnd⟩
      else none
    let more := roleSpans pre (innerEnd + 2) rest
    if (splitPrefix (String.ofList (trim token.inner))).1 = pre then span :: more else more

/-- The lines from `lineStart` on are still to be read; `found` is the span in the lines before. -/
def locateFrom (pre : String) (inFence : Bool) (lineStart : Nat) (found : Option RoleValueSpan) :
    List (List Char) → Except RoleMutationError RoleValueSpan
  | [] =>
    match found with
    | some span => .ok span
    | none => .error (.roleAbsent pre)
  | rawLine :: rest =>
    let content := stripEol rawLine
    let next := lineStart + rawLine.length
    if isFenceLine content then locateFrom pre (!inFence) next found rest
    else if inFence then locateFrom pre inFence next found rest
    else
      let (tokens, tail) := lineTokens content.length content
      let spans := roleSpans pre lineStart tokens
      match isStructural tokens tail, (spans.filterMap id).getLast? with
      | true, some span =>
        if found.isSome || 1 < spans.length then .error (.ambiguous pre)
        else locateFrom pre inFence next (some span) rest
      | _, _ => locateFrom pre inFence next found rest

def locateStructuralRole (body pre : String) : Except RoleMutationError RoleValueSpan :=
  locateFrom pre false 0 none (splitInclusiveFrom [] body.toList)

def mutateTypedRole (parseUlid : String → Option NoteId) (body : String) (role : MutableRole)
    (newValue : String) : Except RoleMutationError String := do
  let pre := role.wirePrefix
  let invalid := RoleMutationError.invalidNewValue pre newValue
  match parseLink parseUlid (pre ++ ":" ++ newValue) with
  | .ok link => if role.matchesVariant link then pure () else throw invalid
  | .error _ => throw invalid
  let span ← locateStructuralRole body pre
  return String.ofList (body.toList.take span.valueStart ++ newValue.toList ++
    body.toList.drop span.valueEnd)

/-! ## 3. The history -/

/-- Lower case of ASCII letters is enough: no other character has a lower case in `historique`. -/
def isHistoriqueHeading (line : List Char) : Bool :=
  let text := trimStart line
  text.head? = some '#' &&
    "historique".toList.isPrefixOf ((trimStart (text.dropWhile (· = '#'))).map Char.toLower)

def isAnyHeading (line : List Char) : Bool := (trimStart line).head? = some '#'

def validateHistoryLine (line : String) : Except RoleMutationError Unit :=
  if (breakAt '[' line.toList).isSome then .error .historyLineInvalid else .ok ()

def splitAtHeading (isHeading : List Char → Bool) (inFence : Bool) :
    List (List Char) → Option (List (List Char) × List (List Char))
  | [] => none
  | raw :: rest =>
    let content := trimEndMatches (· = '\r') (stripSuffix '\n' raw)
    if isFenceLine content then
      (splitAtHeading isHeading (!inFence) rest).map fun (before, from_) => (raw :: before, from_)
    else if !inFence && isHeading content then some ([], raw :: rest)
    else (splitAtHeading isHeading inFence rest).map fun (before, from_) => (raw :: before, from_)

def appendHistoryLine (body line : String) : String :=
  let line := trimEndMatches (fun c => c = '\n' || c = '\r') line.toList
  let lines := splitInclusiveFrom [] body.toList
  match splitAtHeading isHistoriqueHeading false lines with
  | some (before, heading :: after) =>
    let (sect, rest) := (splitAtHeading isAnyHeading false after).getD (after, [])
    let upTo := (before ++ heading :: sect).flatten
    String.ofList (upTo ++ (if upTo.getLast? = some '\n' then [] else ['\n']) ++ line ++ ['\n'] ++
      rest.flatten)
  | _ =>
    String.ofList (trimEndMatches (· = '\n') body.toList ++ "\n\n## Historique\n\n".toList ++ line ++
      ['\n'])

end Gradatum.ProjectMap
