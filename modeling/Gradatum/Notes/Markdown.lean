import Gradatum.Notes.Store

/-!
# Notes as Markdown files

A file is the frontmatter as a YAML block between two lines `---`, an empty line, and the body.  The YAML
backend is not part of the repository.
-/

namespace Gradatum.Notes

open List

/-! ## 1. The format -/

structure YamlBackend where
  toStr : Frontmatter → String
  fromStr : String → Option Frontmatter

inductive MarkdownError where
  | missingFrontmatter
  | unterminatedFrontmatter
  | yaml
  deriving DecidableEq

def splitAtText (pattern : List Char) : List Char → Option (List Char × List Char)
  | [] => if pattern = [] then some ([], []) else none
  | c :: text =>
    if pattern.isPrefixOf (c :: text) then some ([], (c :: text).drop pattern.length)
    else (splitAtText pattern text).map fun (before, after) => (c :: before, after)

def openMarker : List Char := ['-', '-', '-', '\n']

def closeMarker : List Char := ['\n', '-', '-', '-', '\n']

def stripNewline : List Char → List Char
  | '\n' :: text => text
  | text => text

namespace YamlBackend

variable (yaml : YamlBackend)

def writeParsed (file : MdFile) : String :=
  String.ofList
    (openMarker ++ (yaml.toStr file.frontmatter).toList ++ ['-', '-', '-', '\n', '\n'] ++ file.body.toList)

def parse (raw : String) : Except MarkdownError MdFile :=
  if openMarker.isPrefixOf raw.toList then
    match splitAtText closeMarker (raw.toList.drop openMarker.length) with
    | none => .error .unterminatedFrontmatter
    | some (block, rest) =>
      match yaml.fromStr (String.ofList block) with
      | none => .error .yaml
      | some frontmatter => .ok ⟨frontmatter, String.ofList (stripNewline rest)⟩
  else .error .missingFrontmatter

/-- What is expected of the backend at a frontmatter: the text ends with a line break, it is read back
without it, and none of its lines is `---`. -/
structure Faithful (frontmatter : Frontmatter) : Prop where
  terminated : ∃ block, (yaml.toStr frontmatter).toList = block ++ ['\n'] ∧
    yaml.fromStr (String.ofList block) = some frontmatter
  noMarker : ∀ before after, (before = [] ∨ ∃ before', before = before' ++ ['\n']) →
    (yaml.toStr frontmatter).toList ≠ before ++ openMarker ++ after

end YamlBackend

theorem splitAtText_closeMarker (rest : List Char)
    (h : ∀ before after, block ++ ['\n'] ≠ before ++ closeMarker ++ after) :
    splitAtText closeMarker (block ++ closeMarker ++ rest) = some (block, rest) := by
  induction block with
  | nil => rfl
  | cons c block ih =>
    have htail : ∀ before after, block ++ ['\n'] ≠ before ++ closeMarker ++ after := by
      intro before after heq
      exact h (c :: before) after (by rw [cons_append, heq]; rfl)
    have hnot : closeMarker.isPrefixOf (c :: (block ++ closeMarker ++ rest)) = false := by
      by_contra hmarker
      rw [Bool.not_eq_false, isPrefixOf_iff_prefix] at hmarker
      obtain ⟨after, hafter⟩ := hmarker
      simp only [closeMarker, cons_append, nil_append, List.cons.injEq,
        append_assoc] at hafter
      obtain ⟨hc, hafter⟩ := hafter
      -- a marker that begins here ends within the block and its line break, or it would have to overlap
      -- the one that follows
      match block, hafter with
      | [], hafter => simp at hafter
      | [_], hafter => simp at hafter
      | [_, _], hafter => simp at hafter
      | [_, _, _], hafter =>
        simp only [cons_append, nil_append, List.cons.injEq] at hafter
        obtain ⟨rfl, rfl, rfl, -⟩ := hafter
        exact h [] [] (by rw [← hc]; rfl)
      | _ :: _ :: _ :: _ :: block, hafter =>
        simp only [cons_append, List.cons.injEq] at hafter
        obtain ⟨rfl, rfl, rfl, rfl, -⟩ := hafter
        exact h [] (block ++ ['\n']) (by rw [← hc]; rfl)
    rw [cons_append, cons_append, splitAtText, if_neg (by rw [hnot]; decide), ih htail]
    rfl

theorem YamlBackend.parse_writeParsed {yaml : YamlBackend} {file : MdFile}
    (h : yaml.Faithful file.frontmatter) : yaml.parse (yaml.writeParsed file) = .ok file := by
  obtain ⟨block, htext, hread⟩ := h.terminated
  have hblock : ∀ before after, block ++ ['\n'] ≠ before ++ closeMarker ++ after := by
    intro before after heq
    refine h.noMarker (before ++ ['\n']) after (.inr ⟨before, rfl⟩) ?_
    rw [htext, heq]
    simp [closeMarker, openMarker]
  have hraw : (yaml.writeParsed file).toList =
      openMarker ++ (block ++ closeMarker ++ ('\n' :: file.body.toList)) := by
    rw [writeParsed, String.toList_ofList, htext]
    simp [closeMarker]
  have hopen : openMarker.isPrefixOf (yaml.writeParsed file).toList = true := by
    rw [hraw, isPrefixOf_iff_prefix]
    exact prefix_append _ _
  rw [parse, if_pos hopen, hraw, drop_left, splitAtText_closeMarker _ hblock]
  simp [hread, stripNewline]

end Gradatum.Notes
