import Mathlib.Logic.Basic

/-!
# Texts

The functions of the standard library on texts that the modelled code cuts bodies and titles with.
-/

namespace Gradatum.Notes

open List

/-- The Unicode property `White_Space`, which `str::trim` goes by. -/
def isWhiteSpace (c : Char) : Bool :=
  (9 ≤ c.toNat && c.toNat ≤ 13) || (0x2000 ≤ c.toNat && c.toNat ≤ 0x200a) ||
    [0x20, 0x85, 0xa0, 0x1680, 0x2028, 0x2029, 0x202f, 0x205f, 0x3000].contains c.toNat

def trimStart (cs : List Char) : List Char := cs.dropWhile isWhiteSpace

def trim (cs : List Char) : List Char :=
  ((cs.dropWhile isWhiteSpace).reverse.dropWhile isWhiteSpace).reverse

def trimEndMatches (p : Char → Bool) (cs : List Char) : List Char :=
  (cs.reverse.dropWhile p).reverse

/-- `current` is the line read so far, backwards. -/
def linesFrom (current : List Char) : List Char → List (List Char)
  | [] => if current = [] then [] else [current.reverse]
  | c :: rest =>
    if c = '\n' then
      (if current.head? = some '\r' then current.tail else current).reverse :: linesFrom [] rest
    else linesFrom (c :: current) rest

def textLines (text : String) : List String := (linesFrom [] text.toList).map String.ofList

/-- `split_inclusive('\n')`; `current` is the line read so far, backwards. -/
def splitInclusiveFrom (current : List Char) : List Char → List (List Char)
  | [] => if current = [] then [] else [current.reverse]
  | c :: rest =>
    if c = '\n' then (c :: current).reverse :: splitInclusiveFrom [] rest
    else splitInclusiveFrom (c :: current) rest

theorem linesFrom_append_newline (current a b : List Char) :
    linesFrom current (a ++ '\n' :: b) = linesFrom current (a ++ ['\n']) ++ linesFrom [] b := by
  induction a generalizing current with
  | nil => simp [linesFrom]
  | cons c a ih =>
    rw [cons_append, cons_append, linesFrom, linesFrom]
    split
    · rw [ih, cons_append]
    · exact ih (c :: current)

theorem eq_takeWhile_append {text : List Char} (h : c ∈ text) :
    text = text.takeWhile (· ≠ c) ++ c :: (text.dropWhile (· ≠ c)).drop 1 := by
  induction text with
  | nil => cases h
  | cons d text ih =>
    by_cases hd : d = c
    · simp [hd]
    · have hmem : c ∈ text := (mem_cons.1 h).resolve_left (Ne.symm hd)
      rw [takeWhile_cons_of_pos (by simp [hd]), dropWhile_cons_of_pos (by simp [hd]),
        cons_append, ← ih hmem]

theorem linesFrom_append_one (h : (text.reverse ++ current).head? ≠ some '\r') :
    linesFrom current (text ++ ['\n']) = linesFrom current text ∨
      linesFrom current (text ++ ['\n']) = linesFrom current text ++ [[]] := by
  induction text generalizing current with
  | nil =>
    have hcr : current.head? ≠ some '\r' := h
    have hline : linesFrom current ['\n'] = [current.reverse] := by simp [linesFrom, hcr]
    rw [nil_append, hline]
    cases current with
    | nil => exact .inr rfl
    | cons c current => exact .inl (by rw [linesFrom, if_neg (cons_ne_nil _ _)])
  | cons c text ih =>
    rw [reverse_cons, append_assoc] at h
    rw [cons_append, linesFrom, linesFrom]
    split
    · -- a new line begins, so only the rest of the text counts
      have hrest : (text.reverse ++ []).head? ≠ some '\r' := by
        cases hrev : text.reverse with
        | nil => simp
        | cons d rest =>
          rw [hrev] at h
          exact h
      rcases ih hrest with hsame | hmore
      · exact .inl (by rw [hsame])
      · exact .inr (by rw [hmore, cons_append])
    · exact ih h

theorem linesFrom_of_notMem (h : '\n' ∉ text) (hne : text ++ current ≠ []) :
    linesFrom current text = [current.reverse ++ text] := by
  induction text generalizing current with
  | nil => rw [linesFrom, if_neg (by simpa using hne), append_nil]
  | cons c text ih =>
    have hc : ¬ c = '\n' := fun heq => h (heq ▸ mem_cons_self)
    rw [linesFrom, if_neg hc, ih (fun hmem => h (mem_cons_of_mem _ hmem)) (by simp)]
    rw [reverse_cons, append_assoc]
    rfl

theorem exists_lines_append (hline : '\n' ∉ line) (hne : line ≠ []) (hend : body.getLast? ≠ some '\r') :
    ∃ more, linesFrom [] (body ++ '\n' :: '\n' :: line) = linesFrom [] body ++ more ∧
      ∀ l ∈ more, l = [] ∨ l = line := by
  have hlast : linesFrom [] ('\n' :: line) = [[], line] := by
    rw [linesFrom, if_pos rfl, linesFrom_of_notMem hline (by simpa using hne)]
    rfl
  have hcr : (body.reverse ++ []).head? ≠ some '\r' := by
    rwa [append_nil, head?_reverse]
  rw [linesFrom_append_newline, hlast]
  rcases linesFrom_append_one hcr with hsame | hmore
  · exact ⟨[[], line], by rw [hsame], by simp⟩
  · exact ⟨[[], [], line], by rw [hmore, append_assoc]; rfl, by simp⟩

theorem trim_of_forall (h : ∀ c ∈ text, isWhiteSpace c = false) : trim text = text := by
  have hkeep : ∀ cs : List Char, (∀ c ∈ cs, isWhiteSpace c = false) → cs.dropWhile isWhiteSpace = cs := by
    intro cs hcs
    cases cs with
    | nil => rfl
    | cons c cs => rw [dropWhile_cons_of_neg (by simp [hcs c mem_cons_self])]
  rw [trim, hkeep text h, hkeep text.reverse (fun c hc => h c (mem_reverse.1 hc)), reverse_reverse]

def Trimmed (text : List Char) : Prop :=
  (∀ c ∈ text.head?, isWhiteSpace c = false) ∧ ∀ c ∈ text.getLast?, isWhiteSpace c = false

theorem dropWhile_of_head? {text : List Char} (h : ∀ c ∈ text.head?, p c = false) :
    text.dropWhile p = text := by
  cases text with
  | nil => rfl
  | cons c text => rw [dropWhile_cons_of_neg (by simp [h c rfl])]

theorem Trimmed.trim_eq (h : Trimmed text) : trim text = text := by
  rw [trim, dropWhile_of_head? h.1, dropWhile_of_head? (by simpa using h.2), reverse_reverse]

theorem exists_trimStart_eq (text : List Char) : ∃ blank, trimStart text = trim text ++ blank := by
  refine ⟨((trimStart text).reverse.takeWhile isWhiteSpace).reverse, ?_⟩
  rw [trim, ← reverse_append, trimStart, takeWhile_append_dropWhile, reverse_reverse]

theorem head?_dropWhile {text : List Char} : ∀ c ∈ (text.dropWhile p).head?, p c = false := by
  intro c hc
  have hfound := head?_dropWhile_not p text
  rw [Option.mem_def.1 hc] at hfound
  simpa using hfound

theorem trimmed_trim (text : List Char) : Trimmed (trim text) := by
  constructor
  · intro c hc
    obtain ⟨blank, hblank⟩ := exists_trimStart_eq text
    have hfirst : c ∈ (trimStart text).head? := by
      rw [hblank, head?_append, Option.mem_def.1 hc]
      rfl
    exact head?_dropWhile c hfirst
  · intro c hc
    rw [trim, getLast?_reverse] at hc
    exact head?_dropWhile c hc

theorem trim_eq_trimStart (h : ∀ c ∈ text.getLast?, isWhiteSpace c = false) :
    trim text = trimStart text := by
  have hlast : ∀ c ∈ (trimStart text).reverse.head?, isWhiteSpace c = false := by
    intro c hc
    rw [head?_reverse] at hc
    obtain ⟨blank, hblank⟩ : trimStart text <:+ text := dropWhile_suffix _
    apply h
    rw [← hblank, getLast?_append, Option.mem_def.1 hc]
    rfl
  change ((trimStart text).reverse.dropWhile isWhiteSpace).reverse = trimStart text
  rw [dropWhile_of_head? hlast, reverse_reverse]

end Gradatum.Notes
