import Gradatum.Notes.Text
import Gradatum.Reasoning.Checks

/-!
# Souls

What the body of a soul is checked for: it has fixed sections, where one that extends another needs the last
of them only.
-/

open Reasoning

namespace Gradatum.Access

open Notes

def startsWith (pre : String) (line : List Char) : Bool := pre.toList.isPrefixOf line

inductive SoulSchemaError where
  | missingSection (name : String)
  | emptySection (name : String)
  | missingCanaryInvariant
  | dynamicFieldInBody (line : String)
  deriving DecidableEq

def SoulSchemaError.message : SoulSchemaError → String
  | .missingSection name => "soul: section ## " ++ name ++ " missing"
  | .emptySection name => "soul: section ## " ++ name ++ " empty"
  | .missingCanaryInvariant => "soul: INV-CANARY absent from ## INVARIANTS"
  | .dynamicFieldInBody line => "soul: dynamic field forbidden in body: " ++ line

def requiredSections : List String := ["INVARIANTS", "GATES", "NARRATIVE"]

/-- The text between the header and the next one. -/
def extractSection (lines : List (List Char)) (name : String) : Option (List Char) :=
  match lines.dropWhile (fun line => trim line ≠ ("## " ++ name).toList) with
  | [] => none
  | _ :: rest => some (trim (['\n'].intercalate (rest.takeWhile fun line => !startsWith "## " (trimStart line))))

def hasDynamicField (lines : List (List Char)) : Option (List Char) :=
  (lines.map trimStart).find? fun line => startsWith "updated_at:" line || startsWith "version:" line

/-- The parent is named in the first line after the title, of five, that is not blank. -/
def soulExtends (lines : List (List Char)) : Option (List Char) :=
  match lines.dropWhile (trim · = []) with
  | [] => none
  | title :: rest =>
    if startsWith "# " title then
      (((rest.take 5).map trim).find? (· ≠ [])).bind fun line =>
        if startsWith "extends:" line then (some (trim (line.drop 8))).filter (· ≠ []) else none
    else none

def checkSection (lines : List (List Char)) (name : String) : Except SoulSchemaError Unit := do
  let text ← present (extractSection lines name) (.missingSection name)
  require (text ≠ []) (.emptySection name)

/-- A line that starts so, not one that only has the word in it. -/
def hasCanary (text : List Char) : Bool :=
  (linesFrom [] text).any fun line => startsWith "INV-CANARY" (trimStart line)

def validateSoul (body : String) : Except SoulSchemaError Unit := do
  let lines := linesFrom [] body.toList
  match hasDynamicField lines with
  | some line => throw (.dynamicFieldInBody (String.ofList line))
  | none => pure ()
  let isChild := (soulExtends lines).isSome
  (if isChild then ["NARRATIVE"] else requiredSections).forM (checkSection lines)
  require (isChild || (extractSection lines "INVARIANTS").any hasCanary) .missingCanaryInvariant

end Gradatum.Access
