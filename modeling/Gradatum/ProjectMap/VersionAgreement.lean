import Gradatum.ProjectMap.ExportAccounts
import Gradatum.ProjectMap.Title

/-!
# The version of a card in its title and in the export

The title of a card and its entry in the export are computed from the same links, the track first and the
version of the card itself where there is none.
-/

open Reasoning

namespace Gradatum.ProjectMap

open Notes Option List

/-! ## 1. The links of a feature card -/

section Card

theorem getLast?_eq_head? {l : List α} (h : l.length ≤ 1) : l.getLast? = l.head? := by
  match l, h with
  | [], _ => rfl
  | [_], _ => rfl

theorem derivable_of_validateKind (h : validateKind kind links = .ok ())
    (hfeat : featuresOf links ≠ []) : ¬ (versionsOf links = [] ∧ tracksOf links = []) := by
  rintro ⟨hvers, htrks⟩
  have hcount : 0 < (featuresOf links).length := length_pos_of_ne_nil hfeat
  simp only [validateKind, bind_eq_ok_iff] at h
  obtain ⟨_, -, _, -, _, -, h⟩ := h
  split at h
  · simp only [validateStructure, bind_eq_ok_iff, require_eq_ok_iff, decide_eq_true_eq] at h
    obtain ⟨_, hnone, -⟩ := h
    omega
  simp only [validateWork, bind_eq_ok_iff, require_eq_ok_iff, hvers, htrks] at h
  obtain ⟨_, -, _, -, _, hderiv, -⟩ := h
  simp [hfeat] at hderiv

theorem exists_axis_of_valid (hvalid : validateCardBody parseUlid body = .ok ())
    (hfeat : featuresOf (structuralLinks parseUlid body) ≠ []) :
    ∃ project pair, IsIdent project ∧ IsPair pair ∧
      titleSourcesOfBody parseUlid body = (some project, (some pair.2).filter (· ≠ "backlog")) ∧
      (CardRoles.ofLinks (structuralLinks parseUlid body)).axis = some (identityText pair) := by
  obtain ⟨kind, project, hcard⟩ := validateCardBody_ok hvalid
  rw [validateCardBody, bind_eq_ok_iff] at hvalid
  obtain ⟨links, hlinks, hvalid⟩ := hvalid
  rw [cardLinks_ok hlinks, ← structuralLinks] at hvalid
  obtain ⟨kind', -, hkind, hvers, -⟩ := validateKind_of_validateLinks hvalid
  have hderiv := derivable_of_validateKind hkind hfeat
  have hproj : project ∈ projectsOf (structuralLinks parseUlid body) := by
    rw [hcard.projects]
    exact mem_cons_self
  obtain ⟨pair, hpair, hhead⟩ : ∃ pair, IsPair pair ∧
      (tracksOf (structuralLinks parseUlid body)).head?.or
        (versionsOf (structuralLinks parseUlid body)).head? = some pair := by
    cases htrks : tracksOf (structuralLinks parseUlid body) with
    | cons track tracks =>
      refine ⟨track, ?_, rfl⟩
      apply isPair_of_mem_tracksOf
      rw [← structuralLinks, htrks]
      exact mem_cons_self
    | nil =>
      cases hver : versionsOf (structuralLinks parseUlid body) with
      | nil => exact absurd ⟨hver, htrks⟩ hderiv
      | cons version versions =>
        refine ⟨version, ?_, rfl⟩
        apply isPair_of_mem_versionsOf
        rw [← structuralLinks, hver]
        exact mem_cons_self
  refine ⟨project, pair, isIdent_of_mem_projectsOf hproj, hpair, ?_, ?_⟩
  · unfold titleSourcesOfBody
    dsimp only
    rw [hcard.projects, hhead]
    rfl
  · unfold CardRoles.axis CardRoles.ofLinks
    dsimp only
    rw [getLast?_eq_head? hcard.tracks, getLast?_eq_head? hvers, ← map_or]
    exact congrArg (Option.map identityText) hhead

end Card

/-! ## 2. The version that is shown -/

theorem mapVersionRaw_identityText (hpair : IsPair pair) : mapVersionRaw (identityText pair) =
      some (if pair.2 = "backlog" then "vX.Y.Z" else "v" ++ pair.2) := by
  have hkeep : ∀ c ∈ pair.1.toList, decide (c ≠ '/') = true := by
    intro c hc
    rw [decide_eq_true_eq]
    rintro rfl
    exact hpair.1.slash_notMem hc
  have hsnd : ((splitOnce '/' (identityText pair)).map Prod.snd).getD (identityText pair) = pair.2 := by
    rw [splitOnce, identityText_toList, if_pos (by simp), map_some, getD_some,
      dropWhile_append_of_pos hkeep]
    exact String.toList_inj.1 (by simp)
  unfold mapVersionRaw
  dsimp only
  rw [hsnd]
  split <;> rfl

theorem feature_of_featureInScope {roles : CardRoles}
    (h : roles.featureInScope projectFilter = some feature) : roles.feature = some feature := by
  unfold CardRoles.featureInScope at h
  split at h
  · cases h
  split at h
  · cases h
  · exact h

theorem axis_of_derivation {index : StructureIndex}
    (h : index.derivation roles = .ok (release, raw)) : roles.axis = some raw := by
  unfold StructureIndex.derivation at h
  split at h
  · rename_i status project target _ htrack
    split at h
    · split at h
      · cases h
        rw [CardRoles.axis, htrack]
        rfl
      · cases h
    · cases h
  · cases h

section Shown

theorem storedEntry_version (h : storedEntry parseUlid opts projectFilter note = some entry) :
    (rolesOfNote parseUlid note).feature.isSome = true ∧
      entry.version = (rolesOfNote parseUlid note).axis.bind mapVersionRaw := by
  unfold storedEntry at h
  obtain ⟨feature, hscope, h⟩ := bind_eq_some_iff.1 h
  obtain ⟨release, -, h⟩ := bind_eq_some_iff.1 h
  split at h
  · cases h
  cases h
  refine ⟨?_, rfl⟩
  rw [rolesOfNote, feature_of_featureInScope hscope]
  rfl

theorem pushed_version (h : entry ∈ (pushed parseUlid index opts projectFilter note).entries) :
    (rolesOfNote parseUlid note).feature.isSome = true ∧
      entry.version = (rolesOfNote parseUlid note).axis.bind mapVersionRaw := by
  cases hscope : (rolesOfNote parseUlid note).featureInScope projectFilter with
  | none =>
    simp only [pushed_eq, hscope] at h
    cases h
  | some feature =>
    refine ⟨by rw [feature_of_featureInScope hscope]; rfl, ?_⟩
    cases hderiv : index.derivation (rolesOfNote parseUlid note) with
    | ok found =>
      simp only [pushed_eq, hscope, hderiv] at h
      rw [mem_pushEntry h, axis_of_derivation hderiv]
      rfl
    | error reason =>
      cases hstor : (rolesOfNote parseUlid note).release with
      | some stored =>
        simp only [pushed_eq, hscope, hderiv, hstor] at h
        rw [mem_pushEntry h]
        rfl
      | none =>
        simp only [pushed_eq, hscope, hderiv, hstor] at h
        cases h

end Shown

/-! ## 3. Agreement -/

/-- A reader of the title and a reader of the entry are told the same: the entry shows the version of the
title, and the placeholder where the title has none. -/
def VersionAgrees (shown : Option String) (title : String) : Prop :=
  (∀ version, versionSuffix title = some version → shown = some version) ∧
    (shown = some "vX.Y.Z" ↔ versionSuffix title = none)

/-- The committed version is one that a title is recognised by; without one, the stored title has no
second version behind the first. -/
def legibleVersion (parseUlid : String → Option NoteId) (body title : String) : Bool :=
  match (titleSourcesOfBody parseUlid body).2 with
  | some version => isNumericVersion version
  | none => (splitVersion (stripPrefixAndVersionSuffix title)).isNone

theorem versionAgrees_committed_iff (hident : IsIdent version) :
    VersionAgrees (some ("v" ++ version)) title ↔ versionSuffix title = some ("v" ++ version) := by
  have hplaceholder : "v" ++ version ≠ "vX.Y.Z" := by
    intro heq
    have hchars := congrArg String.toList heq
    rw [String.toList_append] at hchars
    exact hident.ne_template hchars
  constructor
  · rintro ⟨hsame, hnone⟩
    cases hsuf : versionSuffix title with
    | none => exact absurd (Option.some.inj (hnone.2 hsuf)) hplaceholder
    | some found => exact (hsame found hsuf).symm
  · intro hsuf
    refine ⟨fun found hfound => hsuf.symm.trans hfound, ?_⟩
    rw [hsuf]
    simp [hplaceholder]

theorem versionAgrees_placeholder_iff :
    VersionAgrees (some "vX.Y.Z") title ↔ versionSuffix title = none := by
  constructor
  · intro h
    exact h.2.1 rfl
  intro hnone
  refine ⟨fun version hver => ?_, fun _ => hnone, fun _ => rfl⟩
  rw [hnone] at hver
  cases hver

theorem versionAgrees_axis_iff (hvalid : validateCardBody parseUlid note.body = .ok ())
    (h : (rolesOfNote parseUlid note).feature.isSome = true ∧
      shown = (rolesOfNote parseUlid note).axis.bind mapVersionRaw) :
    VersionAgrees shown (deriveCanonicalTitle parseUlid note.body title) ↔
      legibleVersion parseUlid note.body title = true := by
  obtain ⟨hfeat, rfl⟩ := h
  have hfeats : featuresOf (structuralLinks parseUlid note.body) ≠ [] := by
    intro hnil
    rw [rolesOfNote, CardRoles.ofLinks, hnil] at hfeat
    cases hfeat
  obtain ⟨project, pair, hproj, hpair, hsrcs, haxis⟩ := exists_axis_of_valid hvalid hfeats
  rw [rolesOfNote, haxis, bind_some, mapVersionRaw_identityText hpair, legibleVersion]
  by_cases hback : pair.2 = "backlog"
  · have hnone : titleSourcesOfBody parseUlid note.body = (some project, none) := by
      rw [hsrcs, hback]
      rfl
    rw [if_pos hback, versionAgrees_placeholder_iff,
      versionSuffix_deriveCanonicalTitle_none hnone hproj, hnone, map_eq_none_iff,
      isNone_iff_eq_none]
  · have hsome : titleSourcesOfBody parseUlid note.body = (some project, some pair.2) := by
      rw [hsrcs, filter_some, if_pos (by simpa using hback)]
    rw [if_neg hback, versionAgrees_committed_iff hpair.2,
      versionSuffix_deriveCanonicalTitle_some hsome hproj hpair.2, hsome]

/-- For every card that a projection shows: what it shows agrees with the title just if the version is
legible. -/
theorem versionAgrees_iff_legibleVersion (parseUlid : String → Option NoteId) (index : StructureIndex)
    (opts : ExportOptions) (projectFilter : Option String) (note : CardNote) (entry : FeatureEntry)
    (title : String) (hvalid : validateCardBody parseUlid note.body = .ok ())
    (hshown : storedEntry parseUlid opts projectFilter note = some entry ∨
      entry ∈ (pushed parseUlid index opts projectFilter note).entries) :
    VersionAgrees entry.version (deriveCanonicalTitle parseUlid note.body title) ↔
      legibleVersion parseUlid note.body title = true := by
  exact versionAgrees_axis_iff hvalid (hshown.elim storedEntry_version pushed_version)

theorem mem_projectMapFeatureEntriesScoped_iff :
    entry ∈ projectMapFeatureEntriesScoped parseUlid opts projectFilter notes ↔
      ∃ note ∈ notes, storedEntry parseUlid opts projectFilter note = some entry := by
  rw [projectMapFeatureEntriesScoped, sortEntries, mem_mergeSort, mem_filterMap]

theorem mem_projectMapFeatureEntriesDerivedScoped_iff :
    entry ∈ (projectMapFeatureEntriesDerivedScoped parseUlid opts projectFilter notes).entries ↔
      ∃ note ∈ notes, entry ∈ (pushed parseUlid
        (StructureIndex.fromBodies parseUlid (notes.map CardNote.body)) opts projectFilter note).entries := by
  rw [projectMapFeatureEntriesDerivedScoped, foldl_readNote, sortEntries, mem_mergeSort]
  exact mem_flatMap

/-- The lists that the two functions return, over cards that were accepted. -/
theorem exists_versionAgrees_iff_of_mem (hvalid : ∀ note ∈ notes, validateCardBody parseUlid note.body = .ok ())
    (hentry : entry ∈ projectMapFeatureEntriesScoped parseUlid opts projectFilter notes ∨
      entry ∈ (projectMapFeatureEntriesDerivedScoped parseUlid opts projectFilter notes).entries) :
    ∃ note ∈ notes, ∀ title, VersionAgrees entry.version (deriveCanonicalTitle parseUlid note.body title) ↔
      legibleVersion parseUlid note.body title = true := by
  rw [mem_projectMapFeatureEntriesScoped_iff, mem_projectMapFeatureEntriesDerivedScoped_iff] at hentry
  obtain ⟨note, hnote, hstored⟩ | ⟨note, hnote, hpushed⟩ := hentry
  · exact ⟨note, hnote, fun _ => versionAgrees_axis_iff (hvalid note hnote) (storedEntry_version hstored)⟩
  · exact ⟨note, hnote, fun _ => versionAgrees_axis_iff (hvalid note hnote) (pushed_version hpushed)⟩

def backlogBody : String :=
  "[[project:gradatum]] [[kind:FEATURE]] [[status:OPEN]] [[feature:F-07]]\n" ++
    "[[version:gradatum/backlog]] [[release:roadmap]]"

def backlogLinks : List ProjectMapLink :=
  [.project "gradatum", .kind .feature, .status .open, .feature "F-07", .version "gradatum" "backlog",
    .release .roadmap]

def backlogEntry (title : String) : FeatureEntry := ⟨"F-07", "roadmap", some "vX.Y.Z", none, title⟩

theorem cardLinks_backlogBody :
    cardLinks (fun _ => none) (extractStructuralTargets backlogBody) = .ok backlogLinks := by
  decide +kernel

theorem structuralLinks_backlogBody : structuralLinks (fun _ => none) backlogBody = backlogLinks :=
  (cardLinks_ok cardLinks_backlogBody).symm

theorem validateCardBody_backlogBody : validateCardBody (fun _ => none) backlogBody = .ok () := by
  rw [validateCardBody, cardLinks_backlogBody]
  rfl

theorem titleSourcesOfBody_backlogBody :
    titleSourcesOfBody (fun _ => none) backlogBody = (some "gradatum", none) := by
  rw [titleSourcesOfBody, structuralLinks_backlogBody]
  rfl

theorem storedEntry_backlogBody (title : String) :
    storedEntry (fun _ => none) ⟨false⟩ none ⟨backlogBody, title⟩ = some (backlogEntry title) := by
  rw [storedEntry, structuralLinks_backlogBody]
  rfl

theorem versionAgrees_backlogBody : VersionAgrees (some "vX.Y.Z")
      (deriveCanonicalTitle (fun _ => none) backlogBody "Export — v2.0") := by
  apply (versionAgrees_iff_legibleVersion (fun _ => none) ⟨fun _ => none⟩ ⟨false⟩ none
    ⟨backlogBody, "Export — v2.0"⟩ (backlogEntry "Export — v2.0") "Export — v2.0"
    validateCardBody_backlogBody (.inl (storedEntry_backlogBody _))).2
  rw [legibleVersion, titleSourcesOfBody_backlogBody]
  decide +kernel

/-- Only one version is taken off a stored title.  The second one stays in the title of a card of the
backlog, beside the placeholder that both projections show. -/
theorem not_versionAgrees_two_versions : validateCardBody (fun _ => none) backlogBody = .ok () ∧
      storedEntry (fun _ => none) ⟨false⟩ none ⟨backlogBody, "Export — v1.0 — v2.0"⟩ =
        some (backlogEntry "Export — v1.0 — v2.0") ∧
      (pushed (fun _ => none) ⟨fun _ => none⟩ ⟨false⟩ none
        ⟨backlogBody, "Export — v1.0 — v2.0"⟩).entries = [backlogEntry "Export — v1.0 — v2.0"] ∧
      deriveCanonicalTitle (fun _ => none) backlogBody "Export — v1.0 — v2.0" =
        "[PROJECT-MAP][gradatum] Export — v1.0" ∧
      ¬ VersionAgrees (backlogEntry "Export — v1.0 — v2.0").version
        "[PROJECT-MAP][gradatum] Export — v1.0" := by
  refine ⟨validateCardBody_backlogBody, storedEntry_backlogBody _, ?_, ?_, ?_⟩
  · have hroles : rolesOfNote (fun _ => none) ⟨backlogBody, "Export — v1.0 — v2.0"⟩ =
        .ofLinks backlogLinks := congrArg CardRoles.ofLinks structuralLinks_backlogBody
    rw [pushed_eq, hroles]
    rfl
  · rw [deriveCanonicalTitle, titleSourcesOfBody_backlogBody]
    decide +kernel
  · intro h
    have hsuf : versionSuffix "[PROJECT-MAP][gradatum] Export — v1.0" = some "v1.0" := by
      decide +kernel
    rw [backlogEntry, versionAgrees_placeholder_iff, hsuf] at h
    cases h

end Gradatum.ProjectMap
