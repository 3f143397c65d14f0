import Gradatum.ProjectMap.Structure

/-!
# Titles of cards

A title is taken apart into the groups in brackets at its beginning, the subject and the version after the
last dash, and put together again with the project and the version of the body.
-/

namespace Gradatum.ProjectMap

open Notes Option List

/-! ## 1. Groups in brackets -/

def BeginsWithGroup (text : List Char) : Prop := ∃ inner, trimStart text = '[' :: inner ∧ ']' ∈ inner

theorem BeginsWithGroup.append (h : BeginsWithGroup text) (more : List Char) :
    BeginsWithGroup (text ++ more) := by
  obtain ⟨inner, hinner, hclos⟩ := h
  refine ⟨inner ++ more, ?_, mem_append_left _ hclos⟩
  rw [trimStart] at hinner
  rw [trimStart, dropWhile_append, hinner]
  rfl

theorem BeginsWithGroup.of_trim (h : BeginsWithGroup (trim text)) : BeginsWithGroup text := by
  obtain ⟨inner, hinner, hclos⟩ := h
  obtain ⟨blank, hblank⟩ := exists_trimStart_eq text
  rw [trimStart, dropWhile_of_head? (trimmed_trim text).1] at hinner
  refine ⟨inner ++ blank, ?_, mem_append_left _ hclos⟩
  rw [hblank, hinner]
  rfl

theorem peelGroups_of_not_group (h : ¬ BeginsWithGroup text) (n : Nat) : peelGroups n text = text := by
  cases n with
  | zero => rfl
  | succ n =>
    rw [peelGroups]
    split
    · rename_i inner hinner
      rw [if_neg fun hclos => h ⟨inner, hinner, hclos⟩]
    · rfl

theorem peelGroups_group (hname : ']' ∉ name) (n : Nat) (rest : List Char) :
    peelGroups (n + 1) ('[' :: (name ++ ']' :: rest)) = peelGroups n rest := by
  have hstart : trimStart ('[' :: (name ++ ']' :: rest)) = '[' :: (name ++ ']' :: rest) := rfl
  have hdrop : (name ++ ']' :: rest).dropWhile (· ≠ ']') = ']' :: rest := by
    rw [List.dropWhile_append_of_pos]
    · rfl
    intro c hc
    simp only [decide_eq_true_eq]
    rintro rfl
    exact hname hc
  rw [peelGroups, hstart]
  change (if ']' ∈ name ++ ']' :: rest then
    peelGroups n (((name ++ ']' :: rest).dropWhile (· ≠ ']')).drop 1) else _) = _
  rw [if_pos (by simp), hdrop]
  rfl

theorem not_beginsWithGroup_peelGroups (h : text.length ≤ n) : ¬ BeginsWithGroup (peelGroups n text) := by
  induction n generalizing text with
  | zero =>
    rw [eq_nil_of_length_eq_zero (Nat.le_zero.1 h)]
    rintro ⟨inner, hinner, -⟩
    cases hinner
  | succ n ih =>
    rw [peelGroups]
    split
    · rename_i inner hinner
      split
      · apply ih
        -- at least the two brackets are gone
        have hstart : (trimStart text).length ≤ text.length := (dropWhile_sublist _).length_le
        have hdrop : (inner.dropWhile (· ≠ ']')).length ≤ inner.length :=
          (dropWhile_sublist _).length_le
        rw [hinner, length_cons] at hstart
        rw [length_drop]
        omega
      · rename_i hopen
        rintro ⟨inner', hinner', hclos⟩
        rw [hinner] at hinner'
        cases hinner'
        exact hopen hclos
    · rename_i hother
      rintro ⟨inner, hinner, -⟩
      exact hother inner hinner

variable {head tail : List Char}

theorem rsplitOnce_append (h : c ∉ tail) (head : List Char) :
    rsplitOnce c (head ++ c :: tail) = some (head, tail) := by
  have hkeep : ∀ d ∈ tail.reverse, decide (d ≠ c) = true := by
    intro d hd
    rw [decide_eq_true_eq]
    rintro rfl
    exact h (mem_reverse.1 hd)
  have hrev : (head ++ c :: tail).reverse = tail.reverse ++ c :: head.reverse := by simp
  rw [rsplitOnce, if_pos (by simp), hrev, dropWhile_append_of_pos hkeep,
    takeWhile_append_of_pos hkeep]
  simp

theorem rsplitOnce_eq_some (h : rsplitOnce c text = some (head, tail)) : text = head ++ c :: tail := by
  unfold rsplitOnce at h
  split at h
  · rename_i hmem
    cases h
    have hrev := eq_takeWhile_append (mem_reverse.2 hmem)
    have htext := congrArg List.reverse hrev
    rw [reverse_reverse] at htext
    conv_lhs => rw [htext]
    simp
  · cases h

/-! ## 2. The version in a title -/

def titleSubject (title : String) : List Char := trim (peelGroups title.length (trim title.toList))

/-- The subject before a version and the version, where one stands after a dash.  These are the dashes and
the tails that `strip_prefix_and_version_suffix` goes by. -/
def splitVersion (subject : List Char) : Option (List Char × List Char) :=
  (['—', '–', '-'].filterMap fun dash =>
    (rsplitOnce dash subject).bind fun (head, tail) =>
      if isVersionSuffixCandidate tail then some (trim head, trim tail) else none).head?

def versionSuffix (title : String) : Option String :=
  (splitVersion (titleSubject title)).map fun parts => String.ofList parts.2

theorem stripPrefixAndVersionSuffix_eq (title : String) : stripPrefixAndVersionSuffix title =
    ((splitVersion (titleSubject title)).map Prod.fst).getD (titleSubject title) := by
  have hheads (subject : List Char) :
      (['—', '–', '-'].filterMap fun dash => (rsplitOnce dash subject).bind fun (head, tail) =>
        if isVersionSuffixCandidate tail then some (trim head) else none).head? =
      (splitVersion subject).map Prod.fst := by
    rw [splitVersion, ← head?_map, map_filterMap]
    congr 2
    funext dash
    cases rsplitOnce dash subject with
    | none => rfl
    | some parts =>
      dsimp only [bind_some]
      split <;> rfl
  exact congrArg (Option.getD · (titleSubject title)) (hheads _)

theorem splitVersion_eq_some (h : splitVersion subject = some (head, version)) :
    ∃ before dash tail, subject = before ++ dash :: tail ∧ isVersionSuffixCandidate tail = true ∧
      head = trim before ∧ version = trim tail := by
  have hmem := mem_of_head? h
  rw [mem_filterMap] at hmem
  obtain ⟨dash, -, hdash⟩ := hmem
  rw [bind_eq_some_iff] at hdash
  obtain ⟨⟨before, tail⟩, hsplit, hparts⟩ := hdash
  dsimp only at hparts
  rw [ite_none_right_eq_some] at hparts
  obtain ⟨hcand, hparts⟩ := hparts
  cases hparts
  exact ⟨before, dash, tail, rsplitOnce_eq_some hsplit, hcand, rfl, rfl⟩

theorem not_beginsWithGroup_strip (title : String) :
    ¬ BeginsWithGroup (stripPrefixAndVersionSuffix title) := by
  have hsubj : ¬ BeginsWithGroup (titleSubject title) := by
    intro h
    refine not_beginsWithGroup_peelGroups ?_ h.of_trim
    obtain ⟨blank, hblank⟩ := exists_trimStart_eq title.toList
    have hlen := congrArg List.length hblank
    have hstart : (trimStart title.toList).length ≤ title.toList.length :=
      (dropWhile_sublist _).length_le
    rw [length_append] at hlen
    rw [← String.length_toList]
    omega
  rw [stripPrefixAndVersionSuffix_eq]
  cases hsplit : splitVersion (titleSubject title) with
  | none => exact hsubj
  | some parts =>
    obtain ⟨before, dash, tail, heq, -, hhead, -⟩ := splitVersion_eq_some hsplit
    intro h
    apply hsubj
    rw [heq]
    rw [map_some, getD_some, hhead] at h
    exact h.of_trim.append _

theorem trimmed_strip (title : String) : Trimmed (stripPrefixAndVersionSuffix title) := by
  rw [stripPrefixAndVersionSuffix_eq]
  cases hsplit : splitVersion (titleSubject title) with
  | none => exact trimmed_trim _
  | some parts =>
    obtain ⟨before, dash, tail, -, -, hhead, -⟩ := splitVersion_eq_some hsplit
    rw [map_some, getD_some, hhead]
    exact trimmed_trim _

/-! ## 3. The canonical title -/

def versionText : Option String → List Char
  | some version => ' ' :: '—' :: ' ' :: 'v' :: version.toList
  | none => []

/-- The title of a card after the category and the project. -/
def titleRest (subject : List Char) (version : Option String) : List Char :=
  (if subject = [] then [] else ' ' :: subject) ++ versionText version

theorem deriveCanonicalTitle_toList (h : titleSourcesOfBody parseUlid body = (some project, version)) :
    (deriveCanonicalTitle parseUlid body title).toList =
      '[' :: ("PROJECT-MAP".toList ++ ']' :: '[' :: (project.toList ++ ']' ::
        titleRest (stripPrefixAndVersionSuffix title) version)) := by
  rw [deriveCanonicalTitle, h]
  dsimp only
  unfold titleRest versionText
  cases version with
  | none | some => split <;> simp

theorem titleSubject_canonical (hproj : ']' ∉ project)
    (htitle : title.toList = '[' :: ("PROJECT-MAP".toList ++ ']' :: '[' :: (project ++ ']' :: rest)))
    (hgroup : ¬ BeginsWithGroup rest) (hlast : ∀ c ∈ rest.getLast?, isWhiteSpace c = false) :
    titleSubject title = trim rest := by
  have htrim : Trimmed title.toList := by
    rw [htitle]
    constructor
    · intro c hc
      cases hc
      decide
    intro c hc
    simp only [List.getLast?_cons, List.getLast?_append, Option.mem_def] at hc
    cases hend : rest.getLast? with
    | none =>
      rw [hend] at hc
      cases hc
      rfl
    | some d =>
      rw [hend] at hc
      cases hc
      exact hlast d hend
  obtain ⟨n, hlen⟩ : ∃ n, title.length = n + 2 := by
    refine ⟨title.length - 2, ?_⟩
    rw [← String.length_toList, htitle]
    simp
  rw [titleSubject, htrim.trim_eq, htitle, hlen, peelGroups_group (by decide),
    peelGroups_group hproj, peelGroups_of_not_group hgroup]

section Rest

theorem bracket_notMem_versionText (hver : ∀ text ∈ version, IsIdent text) :
    ']' ∉ versionText version := by
  cases version with
  | none => exact List.not_mem_nil
  | some text =>
    intro hmem
    have htext : ']' ∈ text.toList := by simpa [versionText] using hmem
    cases hver text rfl ']' htext

theorem trimStart_titleRest (htrim : Trimmed subject) (hne : subject ≠ []) :
    trimStart (titleRest subject version) = subject ++ versionText version := by
  rw [titleRest, if_neg hne, cons_append, trimStart, dropWhile_cons_of_pos (by decide)]
  apply dropWhile_of_head?
  rw [head?_append_of_ne_nil _ hne]
  exact htrim.1

theorem not_beginsWithGroup_titleRest (htrim : Trimmed subject) (hsubj : ¬ BeginsWithGroup subject)
    (hver : ∀ text ∈ version, IsIdent text) : ¬ BeginsWithGroup (titleRest subject version) := by
  rintro ⟨inner, hinner, hclos⟩
  cases subject with
  | nil =>
    rw [titleRest, if_pos rfl, nil_append] at hinner
    cases version with
    | none => cases hinner
    | some text =>
      have hdash : trimStart (versionText (some text)) = '—' :: ' ' :: 'v' :: text.toList := rfl
      rw [hdash] at hinner
      cases hinner
  | cons first subject =>
    rw [trimStart_titleRest htrim (cons_ne_nil _ _), cons_append] at hinner
    cases hinner
    rcases mem_append.1 hclos with hmem | hmem
    · exact hsubj ⟨subject, dropWhile_of_head? htrim.1, hmem⟩
    · exact bracket_notMem_versionText hver hmem

theorem getLast?_titleRest (htrim : Trimmed subject) (hver : ∀ text ∈ version, IsIdent text) :
    ∀ c ∈ (titleRest subject version).getLast?, isWhiteSpace c = false := by
  intro c hc
  rw [titleRest, getLast?_append, mem_def, or_eq_some_iff] at hc
  rcases hc with hlast | ⟨-, hlast⟩
  · cases version with
    | none => cases hlast
    | some text =>
      have hmem : c = 'v' ∨ c ∈ text.toList := by
        simp only [versionText, getLast?_cons, getD_some] at hlast
        cases hend : text.toList.getLast? with
        | none =>
          rw [hend] at hlast
          cases hlast
          exact .inl rfl
        | some d =>
          rw [hend] at hlast
          cases hlast
          exact .inr (mem_of_getLast? hend)
      rcases hmem with rfl | hmem
      · decide
      · exact isWhiteSpace_of_isIdentChar (hver text rfl c hmem)
  · split at hlast
    · cases hlast
    rename_i hne
    apply htrim.2
    rwa [getLast?_cons_of_ne_nil hne] at hlast

end Rest

/-! ## 4. The version suffix of a canonical title -/

def isNumericVersion (version : String) : Bool :=
  !version.toList.isEmpty && version.toList.all (fun c => c.isDigit || c = '.') &&
    version.toList.any Char.isDigit

theorem IsIdent.ne_template (h : IsIdent version) : 'v' :: version.toList ≠ "vX.Y.Z".toList := by
  intro heq
  have hmem : 'X' ∈ version.toList := by
    rw [tail_eq_of_cons_eq heq]
    decide
  cases h 'X' hmem

theorem isVersionSuffixCandidate_ident (hident : IsIdent version)
    (htail : trim tail = 'v' :: version.toList) :
    isVersionSuffixCandidate tail = isNumericVersion version := by
  have hfirst : ["backlog".toList, "vX.Y.Z".toList, "X.Y.Z".toList].contains ('v' :: version.toList) = false := by
    rw [contains_eq_mem, decide_eq_false_iff_not]
    intro hmem
    simp only [mem_cons, not_mem_nil, or_false] at hmem
    rcases hmem with heq | heq | heq
    · cases heq
    · exact hident.ne_template heq
    · cases heq
  rw [isVersionSuffixCandidate, htail, hfirst, Bool.false_or]
  rfl

theorem dash_notMem_version (hident : IsIdent version) : '—' ∉ ' ' :: 'v' :: version.toList := by
  intro hmem
  have hmem : '—' ∈ version.toList := by simpa using hmem
  cases hident '—' hmem

theorem trim_version (hident : IsIdent version) :
    trim (' ' :: 'v' :: version.toList) = 'v' :: version.toList := by
  have hblank : trim (' ' :: 'v' :: version.toList) = trim ('v' :: version.toList) := rfl
  rw [hblank]
  apply trim_of_forall
  intro c hc
  rcases mem_cons.1 hc with rfl | hmem
  · decide
  · exact isWhiteSpace_of_isIdentChar (hident c hmem)

/-- A white-space character is all that `trim` takes away. -/
theorem count_trim (hc : isWhiteSpace c = false) (text : List Char) :
    (trim text).count c = text.count c := by
  have hdrop : ∀ cs : List Char, (cs.dropWhile isWhiteSpace).count c = cs.count c := by
    intro cs
    have hblank : c ∉ cs.takeWhile isWhiteSpace := by
      intro hmem
      have hblank := List.all_eq_true.1 (all_takeWhile (p := isWhiteSpace) (l := cs)) c hmem
      rw [hc] at hblank
      cases hblank
    conv_rhs => rw [← takeWhile_append_dropWhile (p := isWhiteSpace) (l := cs)]
    rw [count_append, count_eq_zero_of_not_mem hblank, Nat.zero_add]
  rw [trim, count_reverse, hdrop, count_reverse, hdrop]

theorem dash_notMem_candidate (h : isVersionSuffixCandidate tail = true) : '—' ∉ tail := by
  have hwhole : '—' ∉ trim tail := by
    intro hmem
    rw [isVersionSuffixCandidate, Bool.or_eq_true, contains_eq_mem, decide_eq_true_eq] at h
    rcases h with hword | hver
    · have hwords : ∀ word ∈ ["backlog".toList, "vX.Y.Z".toList, "X.Y.Z".toList], '—' ∉ word := by decide
      exact hwords _ hword hmem
    split at hver
    · rename_i core heq
      rw [heq] at hmem
      simp only [Bool.and_eq_true, List.all_eq_true] at hver
      rcases mem_cons.1 hmem with hv | hcore
      · cases hv
      · cases hver.1.2 '—' hcore
    · cases hver
  rwa [← count_eq_zero, count_trim (by decide), count_eq_zero] at hwhole

theorem splitVersion_append (hident : IsIdent version) (hnum : isNumericVersion version = true)
    (head : List Char) :
    splitVersion (head ++ '—' :: ' ' :: 'v' :: version.toList) = some (trim head, 'v' :: version.toList) := by
  have hfirst : ((rsplitOnce '—' (head ++ '—' :: ' ' :: 'v' :: version.toList)).bind fun (head, tail) =>
      if isVersionSuffixCandidate tail then some (trim head, trim tail) else none) =
        some (trim head, 'v' :: version.toList) := by
    rw [rsplitOnce_append (dash_notMem_version hident), bind_some]
    dsimp only
    rw [isVersionSuffixCandidate_ident hident (trim_version hident), if_pos hnum, trim_version hident]
  rw [splitVersion, filterMap_cons, hfirst]
  rfl

theorem exists_trimStart_titleRest (htrim : Trimmed subject) (version : String) :
    ∃ head, trimStart (titleRest subject (some version)) = head ++ '—' :: ' ' :: 'v' :: version.toList ∧
      trim head = subject := by
  by_cases hempty : subject = []
  · rw [hempty]
    exact ⟨[], rfl, rfl⟩
  refine ⟨subject ++ [' '], ?_, ?_⟩
  · rw [trimStart_titleRest htrim hempty, versionText, append_assoc]
    rfl
  have hstart : (subject ++ [' ']).dropWhile isWhiteSpace = subject ++ [' '] := by
    apply dropWhile_of_head?
    rw [head?_append_of_ne_nil _ hempty]
    exact htrim.1
  rw [trim, hstart, reverse_append, reverse_singleton, singleton_append,
    dropWhile_cons_of_pos (by decide), dropWhile_of_head? (by simpa using htrim.2),
    reverse_reverse]

section Canonical

variable {parseUlid : String → Option NoteId} {body title project : String} {version : Option String}

theorem titleSubject_deriveCanonicalTitle
    (hsrcs : titleSourcesOfBody parseUlid body = (some project, version)) (hproj : IsIdent project)
    (hver : ∀ text ∈ version, IsIdent text) : titleSubject (deriveCanonicalTitle parseUlid body title) =
      trimStart (titleRest (stripPrefixAndVersionSuffix title) version) := by
  have htrim := trimmed_strip title
  have hbrac : ']' ∉ project.toList := by
    intro hmem
    cases hproj ']' hmem
  have hlast := getLast?_titleRest htrim hver
  rw [titleSubject_canonical hbrac (deriveCanonicalTitle_toList hsrcs)
    (not_beginsWithGroup_titleRest htrim (not_beginsWithGroup_strip title) hver) hlast,
    trim_eq_trimStart hlast]

theorem trimStart_titleRest_none (title : String) :
    trimStart (titleRest (stripPrefixAndVersionSuffix title) none) = stripPrefixAndVersionSuffix title := by
  by_cases hempty : stripPrefixAndVersionSuffix title = []
  · rw [hempty]
    rfl
  · rw [trimStart_titleRest (trimmed_strip title) hempty, versionText, append_nil]

theorem versionSuffix_deriveCanonicalTitle_none
    (hsrcs : titleSourcesOfBody parseUlid body = (some project, none)) (hproj : IsIdent project) :
    versionSuffix (deriveCanonicalTitle parseUlid body title) =
      (splitVersion (stripPrefixAndVersionSuffix title)).map fun parts => String.ofList parts.2 := by
  rw [versionSuffix, titleSubject_deriveCanonicalTitle hsrcs hproj (by simp), trimStart_titleRest_none]

theorem versionSuffix_deriveCanonicalTitle_some
    (hsrcs : titleSourcesOfBody parseUlid body = (some project, some text))
    (hproj : IsIdent project) (hident : IsIdent text) :
    versionSuffix (deriveCanonicalTitle parseUlid body title) = some ("v" ++ text) ↔
      isNumericVersion text = true := by
  constructor
  · intro h
    obtain ⟨parts, hsplit, hparts⟩ := map_eq_some_iff.1 h
    obtain ⟨before, dash, tail, -, hcand, -, htrim⟩ := splitVersion_eq_some hsplit
    have hsame : trim tail = 'v' :: text.toList := by
      have hchars := congrArg String.toList hparts
      rw [String.toList_ofList, String.toList_append] at hchars
      rw [← htrim, hchars]
      rfl
    rw [← isVersionSuffixCandidate_ident hident hsame]
    exact hcand
  · intro hnum
    obtain ⟨head, hrest, -⟩ := exists_trimStart_titleRest (trimmed_strip title) text
    rw [versionSuffix, titleSubject_deriveCanonicalTitle hsrcs hproj (by simpa using hident), hrest,
      splitVersion_append hident hnum]
    exact congrArg some (String.toList_inj.1 (by simp))

theorem isIdent_titleSources (h : titleSourcesOfBody parseUlid body = (some project, version)) :
    IsIdent project ∧ ∀ text ∈ version, IsIdent text := by
  obtain ⟨hproj, hver⟩ := Prod.mk.inj h
  refine ⟨isIdent_of_mem_projectsOf (mem_of_mem_head? hproj), fun text htext => ?_⟩
  rw [← hver] at htext
  obtain ⟨pair, hpair, rfl⟩ := map_eq_some_iff.1 (mem_filter_iff.1 htext).1
  rcases or_eq_some_iff.1 hpair with htrack | ⟨-, hver⟩
  · exact (isPair_of_mem_tracksOf (mem_of_mem_head? htrack)).2
  · exact (isPair_of_mem_versionsOf (mem_of_mem_head? hver)).2

/-! ## 5. Deriving a title again -/

theorem strip_deriveCanonicalTitle (hsrcs : titleSourcesOfBody parseUlid body = (some project, version)) :
    stripPrefixAndVersionSuffix (deriveCanonicalTitle parseUlid body title) =
      let subject := trimStart (titleRest (stripPrefixAndVersionSuffix title) version)
      ((splitVersion subject).map Prod.fst).getD subject := by
  obtain ⟨hproj, hver⟩ := isIdent_titleSources hsrcs
  rw [stripPrefixAndVersionSuffix_eq, titleSubject_deriveCanonicalTitle hsrcs hproj hver]

theorem titleRest_inj (h : titleRest subject version = titleRest subject' version) :
    subject = subject' := by
  have h := append_cancel_right h
  by_cases hnil : subject = []
  · by_cases hnil' : subject' = []
    · rw [hnil, hnil']
    · rw [if_pos hnil, if_neg hnil'] at h
      cases h
  · by_cases hnil' : subject' = []
    · rw [if_neg hnil, if_pos hnil'] at h
      cases h
    · rw [if_neg hnil, if_neg hnil'] at h
      exact (List.cons.inj h).2

theorem deriveCanonicalTitle_again
    (hsrcs : titleSourcesOfBody parseUlid body = (some project, version)) (title title' : String) :
    deriveCanonicalTitle parseUlid body title' = deriveCanonicalTitle parseUlid body title ↔
      stripPrefixAndVersionSuffix title' = stripPrefixAndVersionSuffix title := by
  constructor
  · intro h
    have hchars := congrArg String.toList h
    rw [deriveCanonicalTitle_toList hsrcs, deriveCanonicalTitle_toList hsrcs] at hchars
    simp only [List.cons.injEq, true_and, append_cancel_left_eq] at hchars
    exact titleRest_inj hchars
  · intro h
    rw [← String.toList_inj, deriveCanonicalTitle_toList hsrcs, deriveCanonicalTitle_toList hsrcs, h]

theorem strip_splitVersion_eq_self_iff (subject : List Char) :
    ((splitVersion subject).map Prod.fst).getD subject = subject ↔ splitVersion subject = none := by
  cases hsplit : splitVersion subject with
  | none => simp
  | some parts =>
    simp only [map_some, getD_some, reduceCtorEq, iff_false]
    obtain ⟨before, dash, tail, hsubj, -, hhead, -⟩ := splitVersion_eq_some hsplit
    intro h
    -- the head is shorter than the subject
    obtain ⟨blank, hblank⟩ := exists_trimStart_eq before
    have hlen := congrArg List.length hblank
    have hstart : (trimStart before).length ≤ before.length := (dropWhile_sublist _).length_le
    have hsame := congrArg List.length (hhead.symm.trans (h.trans hsubj))
    rw [length_append] at hlen hsame
    rw [length_cons] at hsame
    omega

theorem strip_version_iff (hident : IsIdent text) :
    ((splitVersion (head ++ '—' :: ' ' :: 'v' :: text.toList)).map Prod.fst).getD
      (head ++ '—' :: ' ' :: 'v' :: text.toList) = trim head ↔ isNumericVersion text = true := by
  constructor
  · intro h
    have hcount : ('—' :: ' ' :: 'v' :: text.toList).count '—' = 1 := by
      rw [count_cons_self, count_eq_zero_of_not_mem (dash_notMem_version hident)]
    cases hsplit : splitVersion (head ++ '—' :: ' ' :: 'v' :: text.toList) with
    | none =>
      rw [hsplit] at h
      have hdashes := congrArg (List.count '—') h
      rw [count_trim (by decide)] at hdashes
      simp only [map_none, getD_none, count_append] at hdashes
      omega
    | some parts =>
      rw [hsplit] at h
      obtain ⟨before, dash, tail, hsame, hcand, hbef, -⟩ := splitVersion_eq_some hsplit
      -- the part before the dash has as many dashes as the subject, so the dash is the last one
      have hdashes := congrArg (List.count '—') (hbef.symm.trans h)
      rw [count_trim (by decide), count_trim (by decide)] at hdashes
      have htotal := congrArg (List.count '—') hsame
      rw [count_append, count_append, hcount, hdashes] at htotal
      have htail := dash_notMem_candidate hcand
      have hdash : dash = '—' := by
        by_contra hne
        rw [count_cons_of_ne hne, count_eq_zero_of_not_mem htail] at htotal
        omega
      have hlast := rsplitOnce_append htail before
      rw [← hdash, ← hsame, hdash, rsplitOnce_append (dash_notMem_version hident)] at hlast
      rw [← (Prod.mk.inj (Option.some.inj hlast)).2,
        isVersionSuffixCandidate_ident hident (trim_version hident)] at hcand
      exact hcand
  · intro hnum
    rw [splitVersion_append hident hnum]
    rfl

/-- Nothing that the derivation takes off a title is left in the title that it derives. -/
def Settled (parseUlid : String → Option NoteId) (body title : String) : Prop :=
  match titleSourcesOfBody parseUlid body with
  | (none, _) => True
  | (some _, some version) => isNumericVersion version = true
  | (some _, none) => splitVersion (stripPrefixAndVersionSuffix title) = none

theorem deriveCanonicalTitle_idem_iff (parseUlid : String → Option NoteId) (body title : String) :
    deriveCanonicalTitle parseUlid body (deriveCanonicalTitle parseUlid body title) =
      deriveCanonicalTitle parseUlid body title ↔ Settled parseUlid body title := by
  unfold Settled
  rcases hsrcs : titleSourcesOfBody parseUlid body with ⟨_ | project, version⟩
  · simp only [deriveCanonicalTitle, hsrcs]
  rw [deriveCanonicalTitle_again hsrcs, strip_deriveCanonicalTitle hsrcs]
  cases version with
  | none =>
    rw [trimStart_titleRest_none]
    exact strip_splitVersion_eq_self_iff _
  | some text =>
    obtain ⟨head, hrest, hhead⟩ := exists_trimStart_titleRest (trimmed_strip title) text
    rw [hrest, ← hhead]
    exact strip_version_iff ((isIdent_titleSources hsrcs).2 text rfl)

/-- The release candidate of a card is appended to its title by every write. -/
theorem deriveCanonicalTitle_releaseCandidate :
    let body := "[[project:gradatum]] [[version:gradatum/1.0-rc1]]"
    let title := deriveCanonicalTitle (fun _ => none) body "Search"
    title = "[PROJECT-MAP][gradatum] Search — v1.0-rc1" ∧
      deriveCanonicalTitle (fun _ => none) body title =
        "[PROJECT-MAP][gradatum] Search — v1.0-rc1 — v1.0-rc1" := by
  decide +kernel

end Canonical

end Gradatum.ProjectMap
