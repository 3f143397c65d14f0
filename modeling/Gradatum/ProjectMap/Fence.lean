import Gradatum.ProjectMap.Export

/-!
# Links appended to a body

The server appends a link to a body as a line of its own.  It is a structural link unless the body leaves
a code fence open: then the line is inside the fence, and no reader of structural lines finds it.
-/

open Reasoning

namespace Gradatum.ProjectMap

open Notes List

/-! ## 1. The fence after some lines -/

variable (inFence : Bool)

def fenceAfter (lines : List (List Char)) : Bool :=
  lines.foldl (fun inFence line => if isFenceLine line then !inFence else inFence) inFence

theorem foldl_readLine_inFence (s : FenceState) (lines : List (List Char)) :
    (lines.foldl FenceState.readLine s).inFence = fenceAfter s.inFence lines := by
  induction lines generalizing s with
  | nil => rfl
  | cons line lines ih =>
    have hline : (s.readLine line).inFence = if isFenceLine line then !s.inFence else s.inFence := by
      unfold FenceState.readLine
      split
      · rfl
      · split <;> rfl
    rw [foldl_cons, ih, hline]
    rfl

theorem hasUnterminatedCodeFence_eq (body : String) :
    hasUnterminatedCodeFence body = fenceAfter false (linesFrom [] body.toList) :=
  foldl_readLine_inFence ⟨false, [], []⟩ _

theorem scan_append (lines more : List (List Char)) : scanStructuralTargets inFence (lines ++ more) =
      scanStructuralTargets inFence lines ++ scanStructuralTargets (fenceAfter inFence lines) more := by
  induction lines generalizing inFence with
  | nil => rfl
  | cons line lines ih =>
    rw [cons_append, scanStructuralTargets, scanStructuralTargets]
    have hafter : fenceAfter inFence (line :: lines) =
        fenceAfter (if isFenceLine line then !inFence else inFence) lines := rfl
    rw [hafter]
    by_cases hfence : isFenceLine line
    · rw [if_pos hfence, if_pos hfence, if_pos hfence]
      exact ih _
    · rw [if_neg hfence, if_neg hfence, if_neg hfence]
      split
      · exact ih _
      · rw [ih, append_assoc]

/-! ## 2. A line break at the end -/

theorem isFenceLine_append_cr (line : List Char) : isFenceLine (line ++ ['\r']) = isFenceLine line := by
  have hmark : ∀ text : List Char,
      "```".toList.isPrefixOf (text ++ ['\r']) = "```".toList.isPrefixOf text := by
    intro text
    match text with
    | [] => rfl
    | [a] => simp [List.isPrefixOf]
    | [a, b] => simp [List.isPrefixOf]
    | a :: b :: c :: rest => simp [List.isPrefixOf]
  unfold isFenceLine trimStart
  rw [dropWhile_append]
  split
  · rename_i hblank
    rw [List.isEmpty_iff.1 hblank]
    rfl
  · exact hmark _

/-- The line that a line break ends; `current` is the line backwards. -/
def endedLine (current : List Char) : List Char :=
  (if current.head? = some '\r' then current.tail else current).reverse

theorem linesFrom_newline (current rest : List Char) :
    linesFrom current ('\n' :: rest) = endedLine current :: linesFrom [] rest := by
  rw [linesFrom, if_pos rfl]
  rfl

theorem isFenceLine_endedLine (current : List Char) :
    isFenceLine (endedLine current) = isFenceLine current.reverse := by
  unfold endedLine
  split
  · rename_i hcr
    obtain ⟨rest, rfl⟩ := head?_eq_some_iff.1 hcr
    rw [tail_cons, reverse_cons, isFenceLine_append_cr]
  · rfl

theorem fenceAfter_newline (current text : List Char) :
    fenceAfter inFence (linesFrom current (text ++ ['\n'])) = fenceAfter inFence (linesFrom current text) := by
  induction text generalizing inFence current with
  | nil =>
    rw [nil_append, linesFrom_newline]
    by_cases hnil : current = []
    · rw [hnil]
      rfl
    · rw [linesFrom, linesFrom, if_neg hnil, if_pos rfl]
      simp only [fenceAfter, foldl_cons, foldl_nil, isFenceLine_endedLine]
  | cons c text ih =>
    rw [cons_append]
    by_cases hc : c = '\n'
    · rw [hc, linesFrom_newline, linesFrom_newline]
      exact ih _ []
    · rw [linesFrom, linesFrom, if_neg hc, if_neg hc]
      exact ih inFence (c :: current)

theorem scan_newline_of_fence (current text : List Char)
    (h : fenceAfter inFence (linesFrom current text) = true) :
    scanStructuralTargets inFence (linesFrom current (text ++ ['\n'])) =
      scanStructuralTargets inFence (linesFrom current text) := by
  induction text generalizing inFence current with
  | nil =>
    rw [nil_append, linesFrom_newline]
    by_cases hnil : current = []
    · rw [hnil] at h ⊢
      -- there is no line at all
      obtain rfl : inFence = true := h
      rfl
    · rw [linesFrom, if_neg hnil] at h
      rw [linesFrom, linesFrom, if_neg hnil, if_pos rfl]
      simp only [fenceAfter, foldl_cons, foldl_nil] at h
      simp only [scanStructuralTargets, isFenceLine_endedLine]
      split
      · rfl
      · rename_i hmark
        rw [if_neg hmark] at h
        rw [if_pos h, if_pos h]
  | cons c text ih =>
    rw [cons_append]
    by_cases hc : c = '\n'
    · rw [hc, linesFrom_newline] at h
      rw [hc, linesFrom_newline, linesFrom_newline]
      have hrest := ih (fenceAfter inFence [endedLine current]) [] h
      have hfirst : ∀ lines, scanStructuralTargets inFence (endedLine current :: lines) =
          scanStructuralTargets inFence [endedLine current] ++
            scanStructuralTargets (fenceAfter inFence [endedLine current]) lines :=
        fun lines => scan_append inFence [endedLine current] lines
      rw [hfirst (linesFrom [] (text ++ ['\n'])), hfirst (linesFrom [] text), hrest]
    · rw [linesFrom, if_neg hc] at h
      rw [linesFrom, linesFrom, if_neg hc, if_neg hc]
      exact ih inFence (c :: current) h

theorem extractStructuralTargets_newline_of_fence (h : hasUnterminatedCodeFence body = true) :
    extractStructuralTargets (body ++ "\n") = extractStructuralTargets body := by
  rw [hasUnterminatedCodeFence_eq] at h
  unfold extractStructuralTargets
  rw [String.toList_append]
  exact congrArg _ (scan_newline_of_fence false [] body.toList h)

theorem extractStructuralTargets_newline (h : body.toList.getLast? ≠ some '\r') :
    extractStructuralTargets (body ++ "\n") = extractStructuralTargets body := by
  have hcr : (body.toList.reverse ++ []).head? ≠ some '\r' := by
    rwa [append_nil, head?_reverse]
  unfold extractStructuralTargets
  rw [String.toList_append]
  rcases linesFrom_append_one hcr with hsame | hmore
  · exact congrArg _ (congrArg _ hsame)
  · have hblank : scanStructuralTargets (fenceAfter false (linesFrom [] body.toList)) [[]] = [] := by
      cases fenceAfter false (linesFrom [] body.toList) <;> rfl
    refine congrArg _ ((congrArg _ hmore).trans ?_)
    rw [scan_append, hblank, append_nil]

/-! ## 3. A link on a line of its own -/

def LinkText (inner : String) : Prop := ∀ c ∈ inner.toList, isWhiteSpace c = false ∧ c ≠ ']'

def appendLink (body inner : String) : String := body ++ "\n\n[[" ++ inner ++ "]]"

section Append

variable {body inner : String} (hinner : LinkText inner)

include hinner

theorem linesFrom_appendLink : linesFrom [] (appendLink body inner).toList =
      linesFrom [] (body ++ "\n").toList ++ [[], '[' :: '[' :: (inner.toList ++ [']', ']'])] := by
  have htext : (appendLink body inner).toList =
      body.toList ++ '\n' :: '\n' :: '[' :: '[' :: (inner.toList ++ [']', ']']) := by
    simp [appendLink]
  have hnewl : '\n' ∉ '[' :: '[' :: (inner.toList ++ [']', ']']) := by
    intro hmem
    have hin : '\n' ∈ inner.toList := by simpa using hmem
    cases (hinner _ hin).1
  have hlast : linesFrom [] ('\n' :: '[' :: '[' :: (inner.toList ++ [']', ']'])) =
      [[], '[' :: '[' :: (inner.toList ++ [']', ']'])] := by
    rw [linesFrom, if_pos rfl, linesFrom_of_notMem hnewl (by simp)]
    rfl
  rw [htext, linesFrom_append_newline, hlast, String.toList_append]
  rfl

theorem hasUnterminatedCodeFence_appendLink :
    hasUnterminatedCodeFence (appendLink body inner) = hasUnterminatedCodeFence body := by
  rw [hasUnterminatedCodeFence_eq, hasUnterminatedCodeFence_eq, linesFrom_appendLink hinner,
    String.toList_append, fenceAfter, foldl_append]
  exact fenceAfter_newline false [] body.toList

theorem extractStructuralTargets_appendLink :
    extractStructuralTargets (appendLink body inner) =
      extractStructuralTargets (body ++ "\n") ++ if hasUnterminatedCodeFence body then [] else [inner] := by
  have hfence : fenceAfter false (linesFrom [] (body ++ "\n").toList) = hasUnterminatedCodeFence body := by
    rw [hasUnterminatedCodeFence_eq, String.toList_append]
    exact fenceAfter_newline false [] body.toList
  have hbrac : ']' ∉ inner.toList := fun hmem => (hinner _ hmem).2 rfl
  have hlink : structuralTargetsOnLine ('[' :: '[' :: (inner.toList ++ [']', ']'])) = [inner.toList] := by
    rw [structuralTargetsOnLine_link hbrac, trim_of_forall fun c hc => (hinner c hc).1]
  have hmore : ∀ inFence, scanStructuralTargets inFence [[], '[' :: '[' :: (inner.toList ++ [']', ']'])] =
      if inFence then [] else [inner.toList] := by
    intro inFence
    cases inFence with
    | true => rfl
    | false =>
      change structuralTargetsOnLine [] ++ (structuralTargetsOnLine _ ++ []) = _
      rw [hlink]
      rfl
  unfold extractStructuralTargets
  rw [linesFrom_appendLink hinner, scan_append, hfence, hmore, map_append]
  split
  · rfl
  · rw [map_singleton, String.ofList_toList]

end Append

/-! ## 4. The roles that the server appends -/

section Roles

theorem LinkText.trim_eq (h : LinkText text) : String.ofList (trim text.toList) = text := by
  rw [trim_of_forall fun c hc => (h c hc).1, String.ofList_toList]

theorem parseLink_feature (hlink : LinkText ("feature:" ++ value)) (hne : value ≠ "") :
    parseLink parseUlid ("feature:" ++ value) = parseFeature .feature value := by
  have hnode : "feature:" ++ value = nodeText "feature" value := by
    have hrole : "feature:" = "feature" ++ ":" := by decide
    rw [hrole]
    rfl
  rw [hnode] at hlink ⊢
  exact parseLink_nodeText_feature hne hlink.trim_eq

theorem parseLink_track (hlink : LinkText ("track:" ++ value)) (hne : value ≠ "") :
    parseLink parseUlid ("track:" ++ value) = parseTrack value := by
  have hrole : "track:" = "track" ++ ":" := by decide
  have hsplit : splitPrefix ("track:" ++ value) = ("track", value) := by
    rw [hrole]
    exact splitPrefix_append (by decide) value
  unfold parseLink
  rw [hlink.trim_eq]
  dsimp only
  rw [hsplit]
  simp only [hne, decide_false, Bool.and_false, Bool.not_false, require]
  rfl

theorem validateIdent_relabel (h : validateIdent pre value = .ok ()) :
    validateIdent pre' value = .ok () := by
  simpa only [validateIdent, bind_eq_ok_iff, require_eq_ok_iff] using h

theorem parseTrack_of_parseLink (h : parseLink parseUlid raw = .ok (.version project version)) :
    parseTrack (identityText (project, version)) = .ok (.track project version) := by
  have hread := (parseLink_readFrom h).2
  generalize (splitPrefix (String.ofList (trim raw.toList))).2 = value at hread
  unfold parseVersion parsePair at hread
  split at hread
  · rename_i a b hsplit
    split at hread
    · rename_i hparts
      simp only [bind_eq_ok_iff, pure_eq_ok_iff] at hread
      obtain ⟨_, ha, _, hb, hlink⟩ := hread
      cases hlink
      have hvalue : value = identityText (project, version) := by
        rw [← String.toList_inj, splitOnce_eq_some hsplit, identityText_toList]
      rw [← hvalue, parseTrack, parsePair, hsplit]
      dsimp only
      rw [if_pos hparts, validateIdent_relabel ha, validateIdent_relabel hb]
      rfl
    · cases hread
  · cases hread

theorem linkText_track (h : parseLink parseUlid raw = .ok (.version project version)) :
    LinkText ("track:" ++ identityText (project, version)) := by
  have hpair : IsPair (project, version) := (parseLink_spells h).1
  rw [LinkText, String.toList_append]
  exact hpair.track_ne

end Roles

theorem validateLinks_feature (links : List ProjectMapLink) (a b : String) :
    validateLinks (links ++ [.feature a]) = validateLinks (links ++ [.feature b]) := by
  have hfeats : ∀ id, (featuresOf (links ++ [.feature id])).length = (featuresOf links).length + 1 := by
    intro id
    simp [featuresOf]
  unfold validateLinks validateKind validateTracks validateVisibility validatePorteuse validateStructure
    validateWork incoherentVersion
  simp only [hfeats]
  simp only [projectsOf, statusesOf, kindsOf, versionsOf, tracksOf, visibilitiesOf, porteusesOf, releasesOf,
    filterMap_append, filterMap_cons_none, filterMap_nil, append_nil]

theorem validateLinks_track (project target : String) (hkind : kindsOf links = [kind])
    (hwork : kind.isStructure = false) (htrks : tracksOf links = [])
    (hver : (versionsOf links).isEmpty = false) :
    validateLinks (links ++ [.track project target]) = validateLinks links := by
  obtain ⟨more, hmore⟩ : ∃ more, more = links ++ [.track project target] := ⟨_, rfl⟩
  rw [← hmore]
  have hone : tracksOf more = [(project, target)] := by
    simp only [hmore, tracksOf, filterMap_append] at htrks ⊢
    rw [htrks]
    rfl
  have hsame : projectsOf more = projectsOf links ∧ statusesOf more = statusesOf links ∧
      kindsOf more = kindsOf links ∧ versionsOf more = versionsOf links ∧
      visibilitiesOf more = visibilitiesOf links ∧ porteusesOf more = porteusesOf links ∧
      releasesOf more = releasesOf links ∧ featuresOf more = featuresOf links := by
    simp [hmore, projectsOf, statusesOf, kindsOf, versionsOf, visibilitiesOf, porteusesOf, releasesOf, featuresOf]
  obtain ⟨hprojs, hstats, hkinds, hvers, hvisibilities, hporteuses, hreleases, hfeats⟩ := hsame
  have hrules : validateKind kind more = validateKind kind links := by
    unfold validateKind validateTracks validateVisibility validatePorteuse validateWork incoherentVersion
    rw [hone, htrks, hvisibilities, hporteuses, hreleases, hfeats, hvers, hver, hwork]
    simp [require]
  unfold validateLinks
  rw [hprojs, hstats, hkinds, hkind, hvers]
  simp only [hrules]

theorem keepLinks_append (parsed more : List (Except SchemaError ProjectMapLink)) :
    keepLinks (parsed ++ more) = (keepLinks parsed).bind fun links =>
      (keepLinks more).map (links ++ ·) := by
  induction parsed with
  | nil =>
    cases hmore : keepLinks more with
    | error | ok =>
      rw [nil_append, hmore]
      rfl
  | cons first parsed ih =>
    rw [cons_append]
    cases first with
    | ok link =>
      rw [keepLinks, keepLinks, ih]
      cases keepLinks parsed with
      | error e => rfl
      | ok links => cases keepLinks more <;> rfl
    | error e =>
      rw [keepLinks, keepLinks]
      split
      · exact ih
      · rfl

end Gradatum.ProjectMap
