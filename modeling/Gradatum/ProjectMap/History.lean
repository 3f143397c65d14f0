import Gradatum.ProjectMap.Fence
import Gradatum.ProjectMap.RoleMutation

/-!
# Lines of the history

`append_history_line` puts a text before the next heading, or at the end of the body.  The text has no
`[[`, but it may have lines that open or close a code fence.
-/

open Reasoning

namespace Gradatum.ProjectMap

open Notes List

/-! ## 1. Texts that end with a line -/

theorem linesFrom_append (h : a.getLast? = some '\n') (b : List Char) :
    linesFrom [] (a ++ b) = linesFrom [] a ++ linesFrom [] b := by
  obtain ⟨a, rfl⟩ := getLast?_eq_some_iff.1 h
  rw [append_assoc]
  exact linesFrom_append_newline [] a b

theorem flatten_splitInclusiveFrom (current text : List Char) :
    (splitInclusiveFrom current text).flatten = current.reverse ++ text := by
  induction text generalizing current with
  | nil => by_cases h : current = [] <;> simp [splitInclusiveFrom, h]
  | cons c text ih =>
    rw [splitInclusiveFrom]
    split
    · simp [ih]
    · simp [ih]

/-- Only the last line of a text can be without its line break. -/
theorem getLast?_of_splitInclusiveFrom (h : splitInclusiveFrom current text = a ++ b) (ha : a ≠ [])
    (hb : b ≠ []) : a.flatten.getLast? = some '\n' := by
  obtain ⟨line, a, rfl⟩ := exists_cons_of_ne_nil ha
  induction text generalizing current line a with
  | nil =>
    rw [splitInclusiveFrom, cons_append] at h
    split at h
    · cases h
    · exact absurd (append_eq_nil_iff.1 (cons_eq_cons.1 h).2.symm).2 hb
  | cons c text ih =>
    rw [splitInclusiveFrom] at h
    split at h
    · rename_i hc
      rw [cons_append, cons_eq_cons] at h
      rw [flatten_cons, ← h.1, hc]
      cases a with
      | nil => simp
      | cons next a => rw [getLast?_append, ih next a h.2 (cons_ne_nil _ _), Option.some_or]
    · exact ih line a h ha

/-! ## 2. Texts without links -/

theorem breakAt_eq_none_iff (c : Char) (text : List Char) : breakAt c text = none ↔ ¬ [c, c] <:+: text := by
  induction text using breakAt.induct c with
  | case1 a b rest h => simp [breakAt, h, infix_cons_iff]
  | case2 a b rest h ih =>
    have hstart : ¬ [c, c] <+: a :: b :: rest := by
      simpa [cons_prefix_cons, eq_comm] using h
    rw [breakAt, if_neg h, Option.map_eq_none_iff, ih]
    exact not_congr (infix_cons_iff.trans (or_iff_right hstart)).symm
  | case3 text h =>
    rcases text with _ | ⟨a, _ | ⟨b, rest⟩⟩
    · simp [breakAt]
    · exact iff_of_true rfl fun hins => by simpa using hins.length_le
    · exact (h a b rest rfl).elim

theorem infix_of_mem_linesFrom (h : line ∈ linesFrom current text) : line <:+: current.reverse ++ text := by
  induction text generalizing current with
  | nil =>
    rw [linesFrom] at h
    split at h
    · cases h
    · have hline := mem_singleton.1 h
      exact ⟨[], [], by simp [hline]⟩
  | cons c text ih =>
    rw [linesFrom] at h
    split at h
    · rcases mem_cons.1 h with rfl | hmem
      · refine List.IsInfix.trans ?_ (prefix_append _ _).isInfix
        split
        · exact (List.reverse_prefix.2 (tail_suffix current)).isInfix
        · exact infix_rfl
      · exact (ih hmem).trans ((suffix_cons c text).trans (suffix_append _ _)).isInfix
    · simpa using ih h

theorem scan_of_breakAt (inFence : Bool) (h : breakAt '[' text = none) :
    scanStructuralTargets inFence (linesFrom [] text) = [] := by
  have hlines : ∀ line ∈ linesFrom [] text, structuralTargetsOnLine line = [] := by
    intro line hline
    have hnone : breakAt '[' line = none := by
      rw [breakAt_eq_none_iff] at h ⊢
      exact fun hins => h (hins.trans (infix_of_mem_linesFrom hline))
    have htok : lineTokens line.length line = ([], line) := by
      cases line with
      | nil => rfl
      | cons c line => rw [length_cons, lineTokens, hnone]
    rw [structuralTargetsOnLine, htok]
    rfl
  generalize linesFrom [] text = lines at hlines
  induction lines generalizing inFence with
  | nil => rfl
  | cons line lines ih =>
    obtain ⟨hline, hlines⟩ := forall_mem_cons.1 hlines
    rw [scanStructuralTargets, hline]
    split
    · exact ih _ hlines
    · split <;> exact ih _ hlines

theorem fenceAfter_eq (inFence : Bool) (lines : List (List Char)) :
    fenceAfter inFence lines = (inFence != fenceAfter false lines) := by
  induction lines generalizing inFence with
  | nil => cases inFence <;> rfl
  | cons line lines ih =>
    have hcons : ∀ b, fenceAfter b (line :: lines) = fenceAfter (if isFenceLine line then !b else b) lines :=
      fun _ => rfl
    rw [hcons, hcons]
    split
    · rw [ih, ih (!false)]
      cases inFence <;> simp
    · exact ih inFence

/-! ## 3. The line -/

/-- The text up to the end of the section `Historique`, and the text from the next heading on. -/
def historySection (body : String) : Option (List Char × List Char) :=
  match splitAtHeading isHistoriqueHeading false (splitInclusiveFrom [] body.toList) with
  | some (before, heading :: after) =>
    let (sect, rest) := (splitAtHeading isAnyHeading false after).getD (after, [])
    some ((before ++ heading :: sect).flatten, rest.flatten)
  | _ => none

def historyText (line : String) : List Char := trimEndMatches (fun c => c = '\n' || c = '\r') line.toList

theorem appendHistoryLine_eq (body line : String) :
    (appendHistoryLine body line).toList =
      match historySection body with
      | some (upTo, rest) =>
        upTo ++ (if upTo.getLast? = some '\n' then [] else ['\n']) ++ historyText line ++ ['\n'] ++ rest
      | none =>
        trimEndMatches (· = '\n') body.toList ++ "\n\n## Historique\n\n".toList ++ historyText line ++
          ['\n'] := by
  unfold appendHistoryLine historySection historyText
  dsimp only
  generalize splitAtHeading isHistoriqueHeading false (splitInclusiveFrom [] body.toList) = found
  match found with
  | none => simp only [String.toList_ofList]
  | some (before, []) => simp only [String.toList_ofList]
  | some (before, heading :: after) =>
    generalize (splitAtHeading isAnyHeading false after).getD (after, []) = split
    simp only [String.toList_ofList]

theorem append_of_splitAtHeading (h : splitAtHeading isHeading inFence lines = some (before, rest)) :
    lines = before ++ rest := by
  induction lines generalizing inFence before with
  | nil => cases h
  | cons raw lines ih =>
    have hmore : ∀ b, (splitAtHeading isHeading b lines).map (fun (x, y) => (raw :: x, y)) =
        some (before, rest) → raw :: lines = before ++ rest := by
      intro b h
      obtain ⟨⟨x, y⟩, hsplit, ⟨⟩⟩ := Option.map_eq_some_iff.1 h
      rw [ih hsplit, cons_append]
    rw [splitAtHeading] at h
    dsimp only at h
    split at h
    · exact hmore _ h
    · split at h
      · cases h
        rfl
      · exact hmore _ h

theorem historySection_spec (h : historySection body = some (upTo, rest)) :
    body.toList = upTo ++ rest ∧ (rest ≠ [] → upTo.getLast? = some '\n') := by
  unfold historySection at h
  split at h
  · rename_i before heading after hsplit
    have hlines := append_of_splitAtHeading hsplit
    have hafter : ∀ sect rest, (splitAtHeading isAnyHeading false after).getD (after, []) = (sect, rest) →
        after = sect ++ rest := by
      intro sect rest hget
      cases hnext : splitAtHeading isAnyHeading false after with
      | none =>
        rw [hnext] at hget
        cases hget
        rw [append_nil]
      | some parts =>
        rw [hnext] at hget
        exact append_of_splitAtHeading (hnext.trans (congrArg some hget))
    generalize (splitAtHeading isAnyHeading false after).getD (after, []) = parts at h hafter
    obtain ⟨sect, restLines⟩ := parts
    cases h
    have hsplit' : splitInclusiveFrom [] body.toList = (before ++ heading :: sect) ++ restLines := by
      rw [hlines, hafter sect restLines rfl, append_assoc, cons_append]
    constructor
    · have hflat := flatten_splitInclusiveFrom [] body.toList
      rw [hsplit', flatten_append] at hflat
      exact hflat.symm
    · intro hrest
      exact getLast?_of_splitInclusiveFrom hsplit' (by simp) fun hnil => hrest (by rw [hnil]; rfl)
  · cases h

/-- The targets stay, and the text of the body occurs in the new one with only insertions. -/
def HistoryKept (body line : String) : Prop :=
  extractStructuralTargets (appendHistoryLine body line) = extractStructuralTargets body ∧
    body.toList.Sublist (appendHistoryLine body line).toList

theorem extractStructuralTargets_eq_iff (a b : String) :
    extractStructuralTargets a = extractStructuralTargets b ↔
      scanStructuralTargets false (linesFrom [] a.toList) =
        scanStructuralTargets false (linesFrom [] b.toList) :=
  (map_injective_iff.2 fun _ _ h => String.ofList_injective h).eq_iff

theorem scan_historyText (h : validateHistoryLine line = .ok ()) (inFence : Bool) :
    scanStructuralTargets inFence (linesFrom [] (historyText line ++ ['\n'])) = [] := by
  have hline : ¬ ['[', '['] <:+: line.toList := by
    rw [← breakAt_eq_none_iff]
    unfold validateHistoryLine at h
    split at h
    · cases h
    · rename_i hnone
      simpa using hnone
  apply scan_of_breakAt
  rw [breakAt_eq_none_iff, infix_concat_iff, not_or]
  constructor
  · rintro ⟨before, heq⟩
    have hlast := congrArg List.getLast? heq
    simp at hlast
  · have hstart : historyText line <+: line.toList := by
      rw [← reverse_suffix, historyText, trimEndMatches, reverse_reverse]
      exact dropWhile_suffix _
    exact fun hins => hline (hins.trans hstart.isInfix)

/-- A break at the end of a text that ends with a line changes nothing. -/
theorem scan_breaks (k : Nat) (h : a.getLast? = some '\n') (inFence : Bool) :
    scanStructuralTargets inFence (linesFrom [] (a ++ List.replicate k '\n')) =
      scanStructuralTargets inFence (linesFrom [] a) := by
  have hnone : breakAt '[' (List.replicate k '\n') = none := by
    rw [breakAt_eq_none_iff]
    intro hins
    cases eq_of_mem_replicate (hins.subset (.head _))
  rw [linesFrom_append h, scan_append, scan_of_breakAt _ hnone, append_nil]

def finalBreaks (body : String) : Nat := (body.toList.reverse.takeWhile (· = '\n')).length

theorem toList_eq_append_replicate (body : String) :
    body.toList = trimEndMatches (· = '\n') body.toList ++ List.replicate (finalBreaks body) '\n' := by
  have hbreaks : body.toList.reverse.takeWhile (· = '\n') = List.replicate (finalBreaks body) '\n' :=
    eq_replicate_of_mem fun c hc => by simpa using List.all_eq_true.1 all_takeWhile c hc
  have hsplit := congrArg List.reverse (takeWhile_append_dropWhile (p := (· = '\n'))
    (l := body.toList.reverse))
  rw [reverse_append, reverse_reverse, hbreaks, reverse_replicate] at hsplit
  exact hsplit.symm

def KeepsHistory (body line : String) : Prop :=
  match historySection body with
  | some (_, rest) =>
    if rest = [] then extractStructuralTargets (body ++ "\n") = extractStructuralTargets body
    else fenceAfter false (linesFrom [] (historyText line)) = false ∨
      scanStructuralTargets true (linesFrom [] rest) = scanStructuralTargets false (linesFrom [] rest)
  | none => extractStructuralTargets (body ++ "\n") = extractStructuralTargets body ∧
      finalBreaks body ≤ 5 + (historyText line).count '\n'

theorem historyKept_iff (body : String) (h : validateHistoryLine line = .ok ()) :
    HistoryKept body line ↔ KeepsHistory body line := by
  have hscan := scan_historyText h
  rw [HistoryKept, extractStructuralTargets_eq_iff, appendHistoryLine_eq, KeepsHistory]
  simp only [extractStructuralTargets_eq_iff, String.toList_append]
  cases hsec : historySection body with
  | none =>
    have hbody := toList_eq_append_replicate body
    generalize trimEndMatches (· = '\n') body.toList = core at hbody
    apply and_congr
    · -- both texts have the targets of the body up to its last line, with a break
      have hended : (core ++ ['\n']).getLast? = some '\n' := getLast?_concat
      have hhead : ("\n## Historique\n\n".toList).getLast? = some '\n' := by decide
      have hnew : core ++ "\n\n## Historique\n\n".toList ++ historyText line ++ ['\n'] =
          (core ++ ['\n']) ++ ("\n## Historique\n\n".toList ++ (historyText line ++ ['\n'])) := by simp
      have hold : body.toList ++ "\n".toList = core ++ ['\n'] ++ List.replicate (finalBreaks body) '\n' := by
        rw [hbody]
        simp [← replicate_succ', replicate_succ]
      have hplain : ∀ inFence,
          scanStructuralTargets inFence (linesFrom [] "\n## Historique\n\n".toList) = [] :=
        fun inFence => scan_of_breakAt inFence (by decide)
      rw [hold, scan_breaks _ hended]
      dsimp only
      rw [hnew, linesFrom_append hended, linesFrom_append hhead, scan_append, scan_append, hscan, hplain,
        append_nil, append_nil]
    · dsimp only
      rw [hbody, append_assoc, append_assoc, append_sublist_append_left,
        replicate_sublist_iff]
      have hcount : "\n\n## Historique\n\n".toList.count '\n' = 4 := by decide
      rw [count_append, count_append, hcount, count_singleton_self]
      omega
  | some parts =>
    obtain ⟨upTo, rest⟩ := parts
    obtain ⟨hbody, hended⟩ := historySection_spec hsec
    dsimp only
    rw [and_iff_left (hbody ▸ List.Sublist.append (by simp) (.refl rest))]
    by_cases hlast : upTo.getLast? = some '\n'
    · rw [if_pos hlast, append_nil, append_assoc upTo, append_assoc, linesFrom_append hlast,
        linesFrom_append (by simp), scan_append, scan_append, hscan, nil_append, hbody,
        linesFrom_append hlast, scan_append, append_cancel_left_eq, fenceAfter_newline,
        fenceAfter_eq (fenceAfter false _)]
      by_cases hrest : rest = []
      · rw [if_pos hrest, hrest, append_nil]
        exact iff_of_true rfl ((scan_breaks 1 hlast false).trans (append_nil _).symm)
      · rw [if_neg hrest]
        cases fenceAfter false (linesFrom [] (historyText line)) with
        | false => simp
        | true => cases fenceAfter false (linesFrom [] upTo) <;> simp [eq_comm]
    · obtain rfl : rest = [] := Classical.not_not.1 fun hne => hlast (hended hne)
      have hended' : (upTo ++ ['\n']).getLast? = some '\n' := getLast?_concat
      rw [if_neg hlast, if_pos rfl, append_nil, append_assoc (upTo ++ ['\n']),
        linesFrom_append hended', scan_append, hscan, append_nil, hbody, append_nil]
      rfl

theorem historyKept_plain : HistoryKept "[[status:DONE]]\n" "- done" := by
  refine (historyKept_iff _ rfl).2 ?_
  have hsec : historySection "[[status:DONE]]\n" = none := by decide +kernel
  rw [KeepsHistory, hsec]
  decide +kernel

/-- A line that opens a code fence hides the roles after the section. -/
theorem not_historyKept_fence :
    validateHistoryLine "```" = .ok () ∧ ¬ HistoryKept "# Historique\n# Roles\n[[status:DONE]]\n" "```" := by
  refine ⟨rfl, fun h => ?_⟩
  have htgts := h.1
  revert htgts
  decide +kernel

end Gradatum.ProjectMap
