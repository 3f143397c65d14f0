import Gradatum.Access.Write
import Gradatum.ProjectMap.FeatureCounter
import Gradatum.ProjectMap.Fence
import Gradatum.ProjectMap.Title

/-!
# Creating feature cards

`create_feature_card` allocates a number, appends it to the body as a role and hands the card to the write
path.  Before the allocation it checks the body with the feature `F-00`.
-/

open Reasoning

namespace Gradatum.Access

open Notes ProjectMap List

/-! ## 1. The handler -/

/-- The number of the card and its job; the handle of the job has the id of the note. -/
structure CreateFeatureCardResponse where
  feature : String
  number : Nat
  job : CurateSpec

namespace WriteApi

variable (api : WriteApi)

/-- `create_feature_card_impl`.  Other requests may run between the allocation and the write, which finds
the notes in the state `v`. -/
def createFeatureCardImpl (s : FeatureIndex) (v : IndexedVault) (trust : TrustContext) (faults : Faults)
    (fresh : NoteId) (req : CreateFeatureCardRequest) :
    Except ApiError CreateFeatureCardResponse × FeatureIndex :=
  match api.admitFeatureCard trust req with
  | .error e => (.error e, s)
  | .ok tenant =>
    match s.allocateFeatureNumber api.parseUlid tenant faults with
    | (.error e, s') => (.error (.storage e), s')
    | (.ok number, s') =>
      match api.vaultWrite v trust .serverAllocated fresh (featureWrite tenant number req) with
      | .error e => (.error e, s')
      | .ok job => (.ok ⟨featureText number, number, job⟩, s')

variable {api} {trust : TrustContext} {tenant : VaultId} {req : CreateFeatureCardRequest} {number : Nat}
  {v : IndexedVault} {fresh : NoteId}

/-! ## 2. The text of the feature -/

theorem withFeature_eq (body feature : String) :
    withFeature body feature = appendLink body ("feature:" ++ feature) := by
  have hopen : "\n\n[[feature:" = "\n\n[[" ++ "feature:" := by decide
  rw [withFeature, appendLink, hopen]
  simp only [String.append_assoc]

theorem featureText_toList (n : Nat) :
    (featureText n).toList = 'F' :: '-' :: ((if n < 10 then ['0'] else []) ++ Nat.toDigits 10 n) := by
  unfold featureText
  rw [String.toList_append, String.toList_append]
  split <;> simp [toString, Nat.repr] 

theorem isWhiteSpace_of_isDigit (h : c.isDigit = true) : isWhiteSpace c = false ∧ c ≠ ']' := by
  have hident : isIdentChar c = true := by simp [isIdentChar, h]
  refine ⟨isWhiteSpace_of_isIdentChar hident, ?_⟩
  rintro rfl
  cases h

theorem linkText_feature (n : Nat) : LinkText ("feature:" ++ featureText n) := by
  intro c hc
  rw [String.toList_append, featureText_toList] at hc
  have hplain : ∀ c ∈ "feature:F-0".toList, isWhiteSpace c = false ∧ c ≠ ']' :=
    @of_decide_eq_true _ (List.decidableBAll _ _) rfl
  have hcases : c ∈ "feature:F-0".toList ∨ c ∈ Nat.toDigits 10 n := by
    simp only [mem_append, mem_cons] at hc
    rcases hc with hrole | rfl | rfl | hpad | hdigs
    · exact .inl (mem_append_left "F-0".toList hrole)
    · exact .inl (by decide)
    · exact .inl (by decide)
    · split at hpad
      · rw [mem_singleton.1 hpad]
        exact .inl (by decide)
      · cases hpad
    · exact .inr hdigs
  rcases hcases with hchar | hdigit
  · exact hplain c hchar
  · exact isWhiteSpace_of_isDigit (Nat.isDigit_of_mem_toDigits (by omega) (by omega) hdigit)

theorem isFeatureIdent_featureText (n : Nat) : isFeatureIdent (featureText n) = true ↔ n < 1000 := by
  have hdigs : ((if n < 10 then ['0'] else []) ++ Nat.toDigits 10 n).all Char.isDigit = true := by
    rw [List.all_eq_true]
    intro c hc
    rcases mem_append.1 hc with hpad | hdigit
    · split at hpad
      · rw [mem_singleton.1 hpad]
        rfl
      · cases hpad
    · exact Nat.isDigit_of_mem_toDigits (by omega) (by omega) hdigit
  have hthree : (Nat.toDigits 10 n).length ≤ 3 ↔ n < 10 ^ 3 :=
    Nat.length_toDigits_le_iff (by omega) (by omega)
  have hone : (Nat.toDigits 10 n).length ≤ 1 ↔ n < 10 ^ 1 :=
    Nat.length_toDigits_le_iff (by omega) (by omega)
  have hpos : 0 < (Nat.toDigits 10 n).length := Nat.length_toDigits_pos
  have hident : isFeatureIdent (featureText n) =
      ((((if n < 10 then ['0'] else []) ++ Nat.toDigits 10 n).length = 2 ||
        ((if n < 10 then ['0'] else []) ++ Nat.toDigits 10 n).length = 3) &&
        ((if n < 10 then ['0'] else []) ++ Nat.toDigits 10 n).all Char.isDigit) := by
    unfold isFeatureIdent
    rw [featureText_toList]
    rfl
  rw [hident, hdigs, Bool.and_true, Bool.or_eq_true, decide_eq_true_eq, decide_eq_true_eq, length_append]
  split
  · rw [length_singleton]
    omega
  · rw [length_nil]
    omega

/-! ## 3. The body of the job -/

section Body

variable {body : String}

theorem featureText_ne (n : Nat) : featureText n ≠ "" := by
  intro h
  have hlist := featureText_toList n
  rw [h] at hlist
  cases hlist

theorem parseLink_featureText :
    parseLink api.parseUlid ("feature:" ++ featureText number) =
      if number < 1000 then .ok (.feature (featureText number))
      else .error (.featureIdentInvalid (featureText number)) := by
  have hident := isFeatureIdent_featureText number
  rw [parseLink_feature (linkText_feature number) (featureText_ne number), parseFeature, validateFeatureIdent]
  split
  · rename_i hlt
    rw [hident.2 hlt]
    rfl
  rename_i hge
  rw [Bool.eq_false_of_not_eq_true fun h => hge (hident.1 h)]
  rfl

structure Checked (api : WriteApi) (body : String) (links : List ProjectMapLink) : Prop where
  kept : cardLinks api.parseUlid (extractStructuralTargets (body ++ "\n")) = .ok links
  valid : validateLinks (links ++ [.feature "F-00"]) = .ok ()

theorem extractStructuralTargets_withFeature (hclos : hasUnterminatedCodeFence body = false) (n : Nat) :
    extractStructuralTargets (withFeature body (featureText n)) =
      extractStructuralTargets (body ++ "\n") ++ ["feature:" ++ featureText n] := by
  rw [withFeature_eq, extractStructuralTargets_appendLink (linkText_feature n), hclos]
  rfl

theorem cardLinks_append (hlinks : cardLinks api.parseUlid targets = .ok links)
    (hlink : parseLink api.parseUlid target = .ok link) :
    cardLinks api.parseUlid (targets ++ [target]) = .ok (links ++ [link]) := by
  unfold cardLinks at hlinks ⊢
  rw [map_append, map_singleton, keepLinks_append, hlinks, hlink]
  rfl

theorem checked_of_valid (hvalid : validateCardBody api.parseUlid (withFeature body "F-00") = .ok ())
    (hclos : hasUnterminatedCodeFence body = false) : ∃ links, Checked api body links := by
  have hzero : "F-00" = featureText 0 := by decide
  rw [hzero, validateCardBody, extractStructuralTargets_withFeature hclos, bind_eq_ok_iff] at hvalid
  obtain ⟨all, hall, hvalid⟩ := hvalid
  cases hkept : cardLinks api.parseUlid (extractStructuralTargets (body ++ "\n")) with
  | error e =>
    unfold cardLinks at hkept hall
    rw [map_append, keepLinks_append, hkept] at hall
    cases hall
  | ok links =>
    rw [cardLinks_append hkept (parseLink_featureText.trans (if_pos (by omega)))] at hall
    cases hall
    exact ⟨links, hkept, hzero ▸ hvalid⟩

theorem injectTrack_cases (api : WriteApi) (v : IndexedVault) (tenant : VaultId) (body : String) :
    api.injectTrack v tenant body = body ∨
      ∃ version, api.injectTrack v tenant body = appendLink body ("track:" ++ identityText version) ∧
        versionsOf (structuralLinks api.parseUlid body) = [version] ∧
        tracksOf (structuralLinks api.parseUlid body) = [] ∧
        (kindsOf (structuralLinks api.parseUlid body)).getLast?.any (!·.isStructure) = true := by
  have hopen : "\n\n[[track:" = "\n\n[[" ++ "track:" := by decide
  unfold injectTrack
  split
  · exact .inl rfl
  unfold derivableTrackTarget
  dsimp only
  split
  · rename_i want hwant
    split at hwant
    · rename_i version hver
      split at hwant
      · rename_i hderiv
        cases hwant
        rw [Bool.and_eq_true, List.isEmpty_iff] at hderiv
        split
        · refine .inr ⟨version, ?_, hver, hderiv.1, hderiv.2⟩
          rw [hopen, appendLink]
          simp only [String.append_assoc]
        · exact .inl rfl
      · cases hwant
    · cases hwant
  · exact .inl rfl

theorem parseLink_version (h : versionsOf (structuralLinks api.parseUlid body) = [version]) :
    LinkText ("track:" ++ identityText version) ∧
      parseLink api.parseUlid ("track:" ++ identityText version) = .ok (.track version.1 version.2) := by
  have hmem : version ∈ versionsOf (structuralLinks api.parseUlid body) := by
    rw [h]
    exact mem_cons_self
  obtain ⟨raw, -, hraw⟩ := mem_versionsOf_parsedLinks.1 hmem
  have hlink : LinkText ("track:" ++ identityText version) := linkText_track hraw
  refine ⟨hlink, ?_⟩
  rw [parseLink_track hlink ?_]
  · exact parseTrack_of_parseLink hraw
  intro hempty
  have hlist := identityText_toList version
  rw [hempty] at hlist
  simp at hlist

theorem extractStructuralTargets_of_open (hopen : hasUnterminatedCodeFence body = true) (n : Nat) :
    extractStructuralTargets (api.injectTrack v tenant (withFeature body (featureText n))) =
      extractStructuralTargets body := by
  have hfence : hasUnterminatedCodeFence (withFeature body (featureText n)) = true := by
    rw [withFeature_eq, hasUnterminatedCodeFence_appendLink (linkText_feature n), hopen]
  have hfeat : extractStructuralTargets (withFeature body (featureText n)) =
      extractStructuralTargets body := by
    rw [withFeature_eq, extractStructuralTargets_appendLink (linkText_feature n), hopen, if_pos rfl,
      append_nil, extractStructuralTargets_newline_of_fence hopen]
  rcases injectTrack_cases api v tenant (withFeature body (featureText n)) with
    hsame | ⟨version, htrack, hver, -⟩
  · rw [hsame, hfeat]
  · rw [htrack, extractStructuralTargets_appendLink (parseLink_version hver).1, hfence, if_pos rfl,
      append_nil, extractStructuralTargets_newline_of_fence hfence, hfeat]

theorem getLast?_withFeature (n : Nat) : (withFeature body (featureText n)).toList.getLast? = some ']' := by
  have hend : "]]".toList = [']', ']'] := by decide
  rw [withFeature, String.toList_append, hend, getLast?_append]
  rfl

variable (tenant v) in
theorem cardLinks_of_closed (hchecked : Checked api body links)
    (hclosed : hasUnterminatedCodeFence body = false) (hlt : number < 1000) :
    ∃ more, cardLinks api.parseUlid (extractStructuralTargets
        (api.injectTrack v tenant (withFeature body (featureText number)))) =
          .ok (links ++ [.feature (featureText number)] ++ more) ∧ featuresOf more = [] ∧
      validateLinks (links ++ [.feature (featureText number)] ++ more) = .ok () := by
  have hfeature : cardLinks api.parseUlid
      (extractStructuralTargets (withFeature body (featureText number))) =
        .ok (links ++ [.feature (featureText number)]) := by
    rw [extractStructuralTargets_withFeature hclosed]
    exact cardLinks_append hchecked.kept (parseLink_featureText.trans (if_pos hlt))
  have hvalid : validateLinks (links ++ [.feature (featureText number)]) = .ok () := by
    rw [validateLinks_feature links _ "F-00"]
    exact hchecked.valid
  rcases injectTrack_cases api v tenant (withFeature body (featureText number)) with
    hsame | ⟨version, htrack, hversion, htracks, hwork⟩
  · refine ⟨[], ?_, rfl, ?_⟩
    · rw [hsame, hfeature, append_nil]
    · rw [append_nil]
      exact hvalid
  · have hlinks : structuralLinks api.parseUlid (withFeature body (featureText number)) =
        links ++ [.feature (featureText number)] := (cardLinks_ok hfeature).symm
    rw [hlinks] at hversion htracks hwork
    obtain ⟨hlink, hparse⟩ := parseLink_version (hlinks ▸ hversion)
    have hfence : hasUnterminatedCodeFence (withFeature body (featureText number)) = false := by
      rw [withFeature_eq, hasUnterminatedCodeFence_appendLink (linkText_feature number), hclosed]
    refine ⟨[.track version.1 version.2], ?_, rfl, ?_⟩
    · rw [htrack, extractStructuralTargets_appendLink hlink, hfence, if_neg (by simp),
        extractStructuralTargets_newline (by rw [getLast?_withFeature]; decide)]
      exact cardLinks_append hfeature hparse
    obtain ⟨kind, hkinds, -⟩ := validateKind_of_validateLinks hvalid
    rw [hkinds] at hwork
    have hnot : kind.isStructure = false := by simpa using hwork
    rw [validateLinks_track version.1 version.2 hkinds hnot htracks (by rw [hversion]; rfl)]
    exact hvalid

variable (api tenant v) in
theorem extractStructuralTargets_of_closed (hclosed : hasUnterminatedCodeFence body = false) (n : Nat) :
    ∃ more, extractStructuralTargets (api.injectTrack v tenant (withFeature body (featureText n))) =
      extractStructuralTargets (body ++ "\n") ++ ("feature:" ++ featureText n) :: more := by
  rcases injectTrack_cases api v tenant (withFeature body (featureText n)) with
    hsame | ⟨version, htrack, hversion, -⟩
  · exact ⟨[], by rw [hsame, extractStructuralTargets_withFeature hclosed]⟩
  obtain ⟨hlink, -⟩ := parseLink_version hversion
  refine ⟨if hasUnterminatedCodeFence (withFeature body (featureText n)) then []
    else ["track:" ++ identityText version], ?_⟩
  rw [htrack, extractStructuralTargets_appendLink hlink,
    extractStructuralTargets_newline (by rw [getLast?_withFeature]; decide),
    extractStructuralTargets_withFeature hclosed, append_assoc, singleton_append]

theorem validateCardBody_write_iff
    (hvalid : validateCardBody api.parseUlid (withFeature body "F-00") = .ok ()) :
    validateCardBody api.parseUlid (api.injectTrack v tenant (withFeature body (featureText number))) =
      .ok () ↔ (hasUnterminatedCodeFence body = false → number < 1000) := by
  cases hfence : hasUnterminatedCodeFence body with
  | true =>
    have hsame : validateCardBody api.parseUlid (withFeature body "F-00") =
        validateCardBody api.parseUlid
          (api.injectTrack v tenant (withFeature body (featureText number))) := by
      have hzero : "F-00" = featureText 0 := by decide
      rw [validateCardBody, validateCardBody, extractStructuralTargets_of_open hfence, hzero, withFeature_eq,
        extractStructuralTargets_appendLink (linkText_feature 0), hfence, if_pos rfl, append_nil,
        extractStructuralTargets_newline_of_fence hfence]
    rw [← hsame]
    simp [hvalid]
  | false =>
    obtain ⟨links, hchk⟩ := checked_of_valid hvalid hfence
    constructor
    · intro h _
      by_contra hge
      obtain ⟨more, htgts⟩ := extractStructuralTargets_of_closed api tenant v hfence number
      have hkept := hchk.kept
      rw [validateCardBody, htgts, bind_eq_ok_iff] at h
      obtain ⟨all, hall, -⟩ := h
      unfold cardLinks at hkept hall
      rw [map_append, map_cons, keepLinks_append, hkept, parseLink_featureText, if_neg hge] at hall
      cases hall
    · intro hlt
      obtain ⟨more, hlinks, -, hrules⟩ :=
        cardLinks_of_closed tenant v hchk hfence (hlt rfl)
      rw [validateCardBody, hlinks]
      exact hrules

theorem featuresOf_write (hvalid : validateCardBody api.parseUlid (withFeature body "F-00") = .ok ())
    (hfits : hasUnterminatedCodeFence body = false → number < 1000) :
    featuresOf (structuralLinks api.parseUlid
      (api.injectTrack v tenant (withFeature body (featureText number)))) =
      if hasUnterminatedCodeFence body then featuresOf (structuralLinks api.parseUlid body)
      else [featureText number] := by
  cases hfence : hasUnterminatedCodeFence body with
  | true =>
    rw [structuralLinks, extractStructuralTargets_of_open hfence]
    rfl
  | false =>
    obtain ⟨links, hchk⟩ := checked_of_valid hvalid hfence
    obtain ⟨more, hlinks, hmore, -⟩ :=
      cardLinks_of_closed tenant v hchk hfence (hfits hfence)
    have hone := length_featuresOf_le hchk.valid
    have hnone : featuresOf links = [] := by
      simp only [featuresOf, filterMap_append, length_append] at hone ⊢
      exact eq_nil_of_length_eq_zero (Nat.le_zero.1 (Nat.le_of_succ_le_succ hone))
    rw [structuralLinks, ← cardLinks_ok hlinks]
    simp only [featuresOf, filterMap_append] at hnone hmore ⊢
    rw [hnone, hmore]
    rfl

end Body

/-! ## 4. The write after the allocation -/

theorem effectiveWriteVault_own {policy : Policy}
    (h : policy.effectiveWriteVault trust bodyTenant = .ok tenant) :
    policy.effectiveWriteVault trust (some tenant) = .ok tenant := by
  have hown := effectiveWriteVault_tenantId h
  have hsame : ∀ bodyTenant found, effectiveTenant trust bodyTenant = .ok found →
      effectiveTenant trust (some tenant) = .ok found := by
    intro bodyTenant found hfound
    obtain rfl := Option.some.inj (hown.symm.trans (effectiveTenant_ok hfound))
    simp [effectiveTenant, hown]
  rw [Policy.effectiveWriteVault, bind_eq_ok_iff] at h ⊢
  obtain ⟨found, hfound, h⟩ := h
  exact ⟨found, hsame _ _ hfound, h⟩

theorem admitFeatureCard_ok (h : api.admitFeatureCard trust req = .ok tenant) :
    trust.isAuthenticated = true ∧ api.policy.effectiveWriteVault trust (some tenant) = .ok tenant ∧
      api.policy.acl trust .write (tenant ++ "/main") = true ∧
      validateCardBody api.parseUlid (withFeature req.body "F-00") = .ok () := by
  simp only [admitFeatureCard, vaultWriteChecks, bind_eq_ok_iff, require_eq_ok_iff, orForbidden_eq_ok_iff,
    exists_const] at h
  obtain ⟨found, ⟨hauth, _, hfound, hacl, h'⟩, -, h⟩ := h
  cases pure_eq_ok_iff.1 h'
  split at h
  · cases h
  rename_i hvalid
  obtain rfl := pure_eq_ok_iff.1 h
  exact ⟨hauth, effectiveWriteVault_own hfound, hacl, hvalid⟩

theorem enforceExplicitTrack_error (h : enforceExplicitTrack parseUlid v tenant links = .error e) :
    ∃ message, e = .invalidInput message := by
  unfold enforceExplicitTrack at h
  dsimp only at h
  split at h
  · cases h
  split at h
  · cases h
    exact ⟨_, rfl⟩
  split at h
  · cases h
  · cases h
    exact ⟨_, rfl⟩
  · cases h
    exact ⟨_, rfl⟩

theorem deriveCanonicalTitle_head (hvalid : validateCardBody parseUlid body = .ok ()) (title : String) :
    ∃ rest, (deriveCanonicalTitle parseUlid body title).toList = '[' :: rest := by
  obtain ⟨kind, project, hcard⟩ := validateCardBody_ok hvalid
  have hproj : (titleSourcesOfBody parseUlid body).1 = some project := by
    change (projectsOf (structuralLinks parseUlid body)).head? = some project
    rw [hcard.projects]
    rfl
  have hsrcs : titleSourcesOfBody parseUlid body =
      (some project, (titleSourcesOfBody parseUlid body).2) := by
    rw [← hproj]
  exact ⟨_, deriveCanonicalTitle_toList hsrcs⟩

theorem checkIdentity_card (hhint : request.sectionHint = some Section.projectMap.asStr)
    (htitle : ∃ rest, request.title.toList = '[' :: rest) : api.checkIdentity trust request = .ok () := by
  have hother : isIdentityHint request = false := by
    unfold isIdentityHint
    rw [hhint]
    decide
  have hsoul : ∀ rest, "identity/".toList.isPrefixOf ('[' :: rest) = false := fun rest => rfl
  obtain ⟨rest, htitle⟩ := htitle
  unfold checkIdentity
  rw [hother, htitle, hsoul]
  rfl

theorem prepareCard_error (h : api.prepareCard v tenant request = .error e) :
    ∃ message, e = .invalidInput message := by
  unfold prepareCard at h
  dsimp only at h
  split at h
  · cases h
    exact ⟨_, rfl⟩
  split at h
  · rw [bind_eq_error_iff] at h
    rcases h with htrack | ⟨_, -, h⟩
    · exact enforceExplicitTrack_error htrack
    · cases h
  · cases h

theorem prepareCard_of_valid
    (hvalid : validateCardBody api.parseUlid (api.injectTrack v tenant request.body) = .ok ())
    (htrack : api.hasExplicitTrack request.body = true →
      enforceExplicitTrack api.parseUlid v tenant (bodyLinks api.parseUlid request.body) = .ok ()) :
    ∃ prepared, api.prepareCard v tenant request = .ok prepared := by
  unfold prepareCard
  dsimp only
  rw [hvalid]
  dsimp only
  by_cases hexpl : api.hasExplicitTrack request.body = true
  · have hsame : api.injectTrack v tenant request.body = request.body := if_pos hexpl
    have hchk := htrack hexpl
    rw [← hsame] at hchk
    rw [if_pos hexpl, hchk]
    exact ⟨_, rfl⟩
  · rw [if_neg hexpl]
    exact ⟨_, rfl⟩

theorem vaultWrite_newCard (hauth : trust.isAuthenticated = true)
    (hten : api.policy.effectiveWriteVault trust request.tenantId = .ok tenant)
    (hacl : api.policy.acl trust .write (tenant ++ "/main") = true)
    (hhint : request.sectionHint = some Section.projectMap.asStr) (hnew : request.noteId = none) :
    api.vaultWrite v trust .serverAllocated fresh request = (do
      let prepared ← api.prepareCard v tenant request
      api.checkOccurredAt prepared
      let author ← effectiveAuthor prepared.author trust.subject
      return buildCurateJob prepared author fresh tenant) := by
  have hprepare : api.prepare v tenant request = api.prepareCard v tenant request :=
    if_pos (decide_eq_true hhint)
  unfold vaultWrite
  rw [hauth, hten]
  dsimp only [orForbidden, bind, Except.bind, require]
  rw [hacl, hprepare]
  cases hprep : api.prepareCard v tenant request with
  | error e => rfl
  | ok prepared =>
    obtain ⟨hreq, hvalid, -⟩ := prepareCard_ok hprep
    have hkeeps : prepared.noteId = none ∧ prepared.sectionHint = some Section.projectMap.asStr := by
      rw [hreq]
      exact ⟨hnew, hhint⟩
    have htitle : ∃ rest, prepared.title.toList = '[' :: rest := by
      have hcanon : prepared.title = deriveCanonicalTitle api.parseUlid
          (api.injectTrack v tenant request.body) request.title := by rw [hreq]
      rw [hcanon]
      exact deriveCanonicalTitle_head hvalid request.title
    have hmes : checkMessaging prepared = .ok () := by
      rw [checkMessaging, require_eq_ok_iff, hkeeps.2]
      decide
    have hid : api.preallocatedId fresh prepared = .ok fresh := by
      unfold preallocatedId
      rw [hkeeps.1]
    have hfeat : api.guardFeature v .serverAllocated tenant prepared fresh = .ok () := rfl
    have hsha : checkSha prepared = .ok () := by
      rw [checkSha, require_eq_ok_iff, hkeeps.1]
      rfl
    have hover : api.guardOverwrite v tenant prepared fresh = .ok () := by
      unfold guardOverwrite
      rw [hkeeps.1]
      rfl
    dsimp only
    rw [hmes, checkIdentity_card hkeeps.2 htitle, hid]
    dsimp only
    rw [hfeat, hsha, hover]
    rfl

/-! ## 5. One numbered card -/

/-- A card that was created has its feature as its only structural one, and an input that was refused has
used up no number. -/
def OneNumberedCard (api : WriteApi) (s : FeatureIndex) :
    Except ApiError CreateFeatureCardResponse × FeatureIndex → Prop
  | (.ok card, _) => featuresOf (structuralLinks api.parseUlid card.job.body) = [card.feature]
  | (.error (.invalidInput _), after) => after.counters = s.counters
  | (.error _, _) => True

/-- What a request that has got its number must have for the write path to take it as a card of that
number. -/
structure Completable (api : WriteApi) (v : IndexedVault) (trust : TrustContext) (tenant : VaultId)
    (number : Nat) (req : CreateFeatureCardRequest) : Prop where
  fits : hasUnterminatedCodeFence req.body = false → number < 1000
  track : api.hasExplicitTrack (withFeature req.body (featureText number)) = true →
    enforceExplicitTrack api.parseUlid v tenant
      (bodyLinks api.parseUlid (withFeature req.body (featureText number))) = .ok ()
  occurredAt : (req.occurredAt.all fun text => (api.parseTemporal text).isSome) = true
  author : req.author = none
  /-- Where a fence is left open, the body must name the number that it gets on its own lines. -/
  fence : trust.subject.isSome → hasUnterminatedCodeFence req.body = true →
    featuresOf (structuralLinks api.parseUlid req.body) = [featureText number]

theorem prepared_keeps (h : api.prepareCard v tenant (featureWrite tenant number req) = .ok prepared) :
    prepared.body = api.injectTrack v tenant (withFeature req.body (featureText number)) ∧
      prepared.author = req.author ∧ prepared.occurredAt = req.occurredAt := by
  rw [(prepareCard_ok h).1]
  simp only [featureWrite, and_self]

theorem prepareCard_featureWrite_iff
    (hvalid : validateCardBody api.parseUlid (withFeature req.body "F-00") = .ok ()) :
    (∃ prepared, api.prepareCard v tenant (featureWrite tenant number req) = .ok prepared) ↔
      (hasUnterminatedCodeFence req.body = false → number < 1000) ∧
      (api.hasExplicitTrack (withFeature req.body (featureText number)) = true →
        enforceExplicitTrack api.parseUlid v tenant
          (bodyLinks api.parseUlid (withFeature req.body (featureText number))) = .ok ()) := by
  constructor
  · rintro ⟨prepared, hprep⟩
    obtain ⟨-, hbody, htrack⟩ := prepareCard_ok hprep
    refine ⟨(validateCardBody_write_iff hvalid).1 hbody, fun hexpl => ?_⟩
    have hsame : api.injectTrack v tenant (withFeature req.body (featureText number)) =
        withFeature req.body (featureText number) := if_pos hexpl
    rw [← hsame]
    exact htrack hexpl
  · rintro ⟨hfits, htrack⟩
    exact prepareCard_of_valid ((validateCardBody_write_iff hvalid).2 hfits) htrack

theorem oneNumberedCard_write (hcntd : s'.counters ≠ s.counters)
    (hvalid : validateCardBody api.parseUlid (withFeature req.body "F-00") = .ok ()) : api.OneNumberedCard s
      (match (do
          let prepared ← api.prepareCard v tenant (featureWrite tenant number req)
          api.checkOccurredAt prepared
          let author ← effectiveAuthor prepared.author trust.subject
          return buildCurateJob prepared author fresh tenant : Except ApiError CurateSpec) with
        | .error e => (.error e, s')
        | .ok job => (.ok ⟨featureText number, number, job⟩, s')) ↔
      Completable api v trust tenant number req := by
  have hprepares :
      (∃ prepared, api.prepareCard v tenant (featureWrite tenant number req) = .ok prepared) ↔ _ :=
    prepareCard_featureWrite_iff hvalid
  cases hprep : api.prepareCard v tenant (featureWrite tenant number req) with
  | error e =>
    obtain ⟨message, rfl⟩ := prepareCard_error hprep
    refine iff_of_false hcntd fun h => ?_
    obtain ⟨prepared, hok⟩ := hprepares.2 ⟨h.fits, h.track⟩
    rw [hok] at hprep
    cases hprep
  | ok prepared =>
    obtain ⟨hfits, hresolves⟩ := hprepares.1 ⟨prepared, hprep⟩
    have hfeats : featuresOf (structuralLinks api.parseUlid
        (api.injectTrack v tenant (withFeature req.body (featureText number)))) = _ :=
      featuresOf_write hvalid hfits
    obtain ⟨hbody, hauth, hdate⟩ := prepared_keeps hprep
    dsimp only [bind, Except.bind]
    rw [checkOccurredAt, hdate, hauth]
    cases hpars : req.occurredAt.all fun text => (api.parseTemporal text).isSome with
    | false =>
      refine iff_of_false hcntd fun h => ?_
      rw [h.occurredAt] at hpars
      cases hpars
    | true =>
      cases hcla : req.author with
      | some author =>
        refine iff_of_false hcntd fun h => ?_
        rw [h.author] at hcla
        cases hcla
      | none =>
        cases hsubj : trust.subject with
        | none =>
          refine iff_of_true True.intro ⟨hfits, hresolves, hpars, hcla, fun hsome => ?_⟩
          rw [hsubj] at hsome
          cases hsome
        | some subject =>
          change featuresOf (structuralLinks api.parseUlid prepared.body) = [featureText number] ↔ _
          rw [hbody, hfeats]
          constructor
          · intro h
            refine ⟨hfits, hresolves, hpars, hcla, fun _ hopen => ?_⟩
            rwa [if_pos hopen] at h
          intro h
          split
          · rename_i hopen
            exact h.fence (by rw [hsubj]; rfl) hopen
          · rfl

/-- Creating a feature card gives one card with its number and burns no number on an input that is
refused, just when every request that gets a number is one that the write path takes. -/
theorem createFeatureCard_numbered_iff (s : FeatureIndex) (v : IndexedVault) (trust : TrustContext)
    (faults : Faults) (fresh : NoteId) (req : CreateFeatureCardRequest) :
    api.OneNumberedCard s (api.createFeatureCardImpl s v trust faults fresh req) ↔
      ∀ tenant number after, api.admitFeatureCard trust req = .ok tenant →
        s.allocateFeatureNumber api.parseUlid tenant faults = (.ok number, after) →
          Completable api v trust tenant number req := by
  unfold createFeatureCardImpl
  cases hadmit : api.admitFeatureCard trust req with
  | error e =>
    -- nothing has been allocated
    refine iff_of_true ?_ fun tenant number after h => by cases h
    cases e <;> trivial
  | ok tenant =>
    obtain ⟨hauth, hten, hacl, hvalid⟩ := admitFeatureCard_ok hadmit
    dsimp only
    cases halloc : s.allocateFeatureNumber api.parseUlid tenant faults with
    | mk result after =>
      cases result with
      | error e =>
        refine iff_of_true True.intro fun tenant' number after' h hnum => ?_
        cases h
        rw [halloc] at hnum
        cases hnum
      | ok number =>
        have hwrite : api.vaultWrite v trust .serverAllocated fresh (featureWrite tenant number req) = _ :=
          vaultWrite_newCard hauth hten hacl rfl rfl
        have hcntd := FeatureIndex.counters_ne_of_allocate halloc
        dsimp only
        rw [hwrite, oneNumberedCard_write hcntd hvalid]
        constructor
        · intro h tenant' number' after' htenant' hnumber'
          cases htenant'
          rw [halloc] at hnumber'
          cases hnumber'
          exact h
        · intro h
          exact h tenant number after rfl halloc

end WriteApi

def emptyIndex : FeatureIndex := ⟨.empty, fun _ => none⟩

def openFenceRequest : CreateFeatureCardRequest where
  title := "card"
  body := "[[project:p]] [[status:OPEN]] [[kind:FEATURE]] [[version:p/backlog]]\n```"

/-- The same card with its fence closed, from a client that names an author. -/
def authoredRequest : CreateFeatureCardRequest where
  title := "card"
  body := "[[project:p]] [[status:OPEN]] [[kind:FEATURE]] [[version:p/backlog]]"
  author := some "scribe"

/-- The card of the open fence is created without its number, and the author is refused after a number has
been used up. -/
theorem createFeatureCard_not_numbered :
    ¬ plainWriteApi.OneNumberedCard emptyIndex (plainWriteApi.createFeatureCardImpl emptyIndex .empty
        (bearerOf "main") (fun _ => none) 7 openFenceRequest) ∧
      ¬ plainWriteApi.OneNumberedCard emptyIndex (plainWriteApi.createFeatureCardImpl emptyIndex .empty
        (bearerOf "main") (fun _ => none) 7 authoredRequest) := by
  constructor
  · have hcard : ((plainWriteApi.createFeatureCardImpl emptyIndex .empty (bearerOf "main") (fun _ => none) 7
        openFenceRequest).1.toOption.map fun card =>
          featuresOf (structuralLinks plainWriteApi.parseUlid card.job.body)) = some [] := by decide +kernel
    generalize plainWriteApi.createFeatureCardImpl emptyIndex .empty (bearerOf "main") (fun _ => none) 7
      openFenceRequest = outcome at hcard ⊢
    obtain ⟨result, after⟩ := outcome
    intro h
    cases result with
    | error e => cases hcard
    | ok card =>
      have hnone : featuresOf (structuralLinks plainWriteApi.parseUlid card.job.body) = [] :=
        Option.some.inj hcard
      have hone : featuresOf (structuralLinks plainWriteApi.parseUlid card.job.body) = [card.feature] := h
      rw [hnone] at hone
      cases hone
  · have hrefus : (match plainWriteApi.createFeatureCardImpl emptyIndex .empty (bearerOf "main")
        (fun _ => none) 7 authoredRequest with
        | (.error (.invalidInput _), after) => after.counters "main"
        | _ => none) = some 1 := by decide +kernel
    generalize plainWriteApi.createFeatureCardImpl emptyIndex .empty (bearerOf "main") (fun _ => none) 7
      authoredRequest = outcome at hrefus ⊢
    obtain ⟨result, after⟩ := outcome
    intro h
    cases result with
    | ok card => cases hrefus
    | error e =>
      cases e with
      | invalidInput message =>
        have hsame : after.counters = emptyIndex.counters := h
        have hmain : after.counters "main" = some 1 := hrefus
        rw [hsame] at hmain
        cases hmain
      | _ => cases hrefus

end Gradatum.Access
