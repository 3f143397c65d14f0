import Gradatum.ProjectMap.Export

/-!
# What becomes of a card in the derived export

What the loop pushes for a note does not depend on the other notes but for the index, so each card in scope
is accounted for.
-/

namespace Gradatum.ProjectMap

open Notes List StructureIndex

/-! ## 1. One note after the other -/

namespace DerivedExport

def append (out more : DerivedExport) : DerivedExport :=
  ⟨out.entries ++ more.entries, out.diagnostics ++ more.diagnostics⟩

theorem append_empty (out : DerivedExport) : out.append ⟨[], []⟩ = out := by
  rw [append, append_nil, append_nil]

theorem append_pushEntry (out more : DerivedExport) (entry : FeatureEntry) :
    (out.append more).pushEntry opts roles entry = out.append (more.pushEntry opts roles entry) := by
  unfold pushEntry
  split
  · rfl
  · exact congrArg (DerivedExport.mk · _) (append_assoc _ _ _)

theorem append_pushDiagnostic (out more : DerivedExport) (diagnostic : DerivationDiagnostic) :
    (out.append more).pushDiagnostic diagnostic = out.append (more.pushDiagnostic diagnostic) :=
  congrArg (DerivedExport.mk _) (append_assoc _ _ _)

end DerivedExport

section Loop

variable (parseUlid : String → Option NoteId) (index : StructureIndex) (opts : ExportOptions)
  (projectFilter : Option String)

def pushed (note : CardNote) : DerivedExport :=
  DerivedExport.readNote parseUlid index opts projectFilter ⟨[], []⟩ note

def rolesOfNote (note : CardNote) : CardRoles := .ofLinks (structuralLinks parseUlid note.body)

theorem readNote_eq (out : DerivedExport) (note : CardNote) :
    out.readNote parseUlid index opts projectFilter note =
      out.append (pushed parseUlid index opts projectFilter note) := by
  conv_lhs => rw [← out.append_empty]
  unfold pushed DerivedExport.readNote
  dsimp only
  split
  · rfl
  split
  · exact out.append_pushEntry _ _
  split
  · rw [out.append_pushDiagnostic, out.append_pushEntry]
  · exact out.append_pushDiagnostic _ _

theorem foldl_readNote (out : DerivedExport) (notes : List CardNote) :
    notes.foldl (DerivedExport.readNote parseUlid index opts projectFilter) out = out.append
      ⟨notes.flatMap fun note => (pushed parseUlid index opts projectFilter note).entries,
        notes.flatMap fun note => (pushed parseUlid index opts projectFilter note).diagnostics⟩ := by
  induction notes generalizing out with
  | nil => exact out.append_empty.symm
  | cons note notes ih =>
    rw [foldl_cons, ih, readNote_eq, flatMap_cons, flatMap_cons]
    exact congrArg₂ DerivedExport.mk (append_assoc _ _ _) (append_assoc _ _ _)

end Loop

/-! ## 2. One note -/

section Note

theorem ofLinks_structuralScan :
    CardRoles.ofLinks (parsedLinks parseUlid (structuralScan note.body).targets) =
      rolesOfNote parseUlid note := by
  rw [structuralScan_targets]
  rfl

theorem pushed_eq : pushed parseUlid index opts projectFilter note =
    match (rolesOfNote parseUlid note).featureInScope projectFilter with
    | none => ⟨[], []⟩
    | some feature => match index.derivation (rolesOfNote parseUlid note) with
      | .ok (release, raw) => DerivedExport.pushEntry opts (rolesOfNote parseUlid note)
          (.of (rolesOfNote parseUlid note) feature release.asWire (mapVersionRaw raw) note.title) ⟨[], []⟩
      | .error reason => match (rolesOfNote parseUlid note).release with
        | some stored => DerivedExport.pushEntry opts (rolesOfNote parseUlid note)
            (.of (rolesOfNote parseUlid note) feature stored.asWire
              ((rolesOfNote parseUlid note).axis.bind mapVersionRaw) note.title)
            ⟨[], [⟨feature, some stored.asWire,
              fenceAwareReason note.body (structuralScan note.body) reason⟩]⟩
        | none => ⟨[], [⟨feature, none, fenceAwareReason note.body (structuralScan note.body) reason⟩]⟩ := by
  unfold pushed DerivedExport.readNote
  dsimp only
  rw [ofLinks_structuralScan]
  rfl

end Note

/-! ## 3. The account -/

def StructureIndex.retainedRelease (index : StructureIndex) (roles : CardRoles) : Option String :=
  match index.derivation roles with
  | .ok (release, _) => some release.asWire
  | .error _ => roles.release.map ReleaseKind.asWire

def ExcludedBy (index : StructureIndex) (opts : ExportOptions) (roles : CardRoles)
    (filter : MirrorFilter) : Prop :=
  ∃ release, index.retainedRelease roles = some release ∧
    [MirrorFilter.dropped, .kind, .visibility].find? (MirrorFilter.rejects opts roles release) = some filter

/-- A card has one entry, or one diagnostic that says that nothing was stored, or one filter that it was
left at, and no two of these. -/
def AccountedOnce (index : StructureIndex) (opts : ExportOptions) (roles : CardRoles)
    (feature title : String) (out : DerivedExport) : Prop :=
  (∃ entry, out.entries = [entry] ∧ entry.feature = feature ∧ entry.title = title) ∧
      (∀ diagnostic ∈ out.diagnostics, diagnostic.stored ≠ none) ∧
      (∀ filter, ¬ ExcludedBy index opts roles filter) ∨
    out.entries = [] ∧ (∃ reason, out.diagnostics = [⟨feature, none, reason⟩]) ∧
      (∀ filter, ¬ ExcludedBy index opts roles filter) ∨
    out.entries = [] ∧ (∀ diagnostic ∈ out.diagnostics, diagnostic.stored ≠ none) ∧
      ∃! filter, ExcludedBy index opts roles filter

structure Accounted (index : StructureIndex) (opts : ExportOptions) (roles : CardRoles)
    (feature title : String) (out : DerivedExport) : Prop where
  once : AccountedOnce index opts roles feature title out
  audit : opts.includeDropped = true → ∀ filter, ¬ ExcludedBy index opts roles filter
  derived : ∀ found, index.derivation roles = .ok found → out.diagnostics = []
  fallback : ∀ failed, index.derivation roles = .error failed → ∀ entry ∈ out.entries,
    ∃ reason, out.diagnostics = [⟨entry.feature, some entry.release, reason⟩]

theorem mirrorFilter_audit (haudit : opts.includeDropped = true) (roles : CardRoles) (release : String) :
    mirrorFilter opts roles release = none := by
  rw [mirrorFilter, find?_eq_none]
  intro filter _
  cases filter <;> simp [MirrorFilter.rejects, haudit]

section Account

theorem pushEntry_diagnostics :
    (DerivedExport.pushEntry opts roles entry ⟨[], diagnostics⟩).diagnostics = diagnostics := by
  unfold DerivedExport.pushEntry
  split <;> rfl

theorem mem_pushEntry (h : entry' ∈ (DerivedExport.pushEntry opts roles entry ⟨[], diagnostics⟩).entries) :
    entry' = entry := by
  unfold DerivedExport.pushEntry at h
  split at h
  · cases h
  · exact mem_singleton.1 h

/-- A card that comes to the filters with the retained release has its entry, unless one of them stops
it. -/
theorem accountedOnce_pushEntry (hret : index.retainedRelease roles = some entry.release)
    (hstor : ∀ diagnostic ∈ diagnostics, diagnostic.stored ≠ none) :
    AccountedOnce index opts roles entry.feature entry.title
      (DerivedExport.pushEntry opts roles entry ⟨[], diagnostics⟩) := by
  have hexcl (filter : MirrorFilter) : ExcludedBy index opts roles filter ↔
      mirrorFilter opts roles entry.release = some filter := by
    simp [ExcludedBy, hret, mirrorFilter]
  unfold DerivedExport.pushEntry
  cases hfilt : mirrorFilter opts roles entry.release with
  | none =>
    refine .inl ⟨⟨entry, rfl, rfl, rfl⟩, hstor, fun filter h => ?_⟩
    rw [hexcl, hfilt] at h
    cases h
  | some found =>
    refine .inr (.inr ⟨rfl, hstor, found, (hexcl found).2 hfilt, fun filter h => ?_⟩)
    have hleft := (hexcl filter).1 h
    rw [hfilt] at hleft
    exact (Option.some.inj hleft).symm

theorem not_excludedBy_audit (haudit : opts.includeDropped = true) (filter : MirrorFilter) :
    ¬ ExcludedBy index opts roles filter := by
  rintro ⟨release, -, hleft⟩
  cases hleft.symm.trans (mirrorFilter_audit haudit roles release)

end Account

theorem accounted_pushed (hscope : (rolesOfNote parseUlid note).featureInScope projectFilter = some feature) :
    Accounted index opts (rolesOfNote parseUlid note) feature note.title
      (pushed parseUlid index opts projectFilter note) := by
  cases hderiv : index.derivation (rolesOfNote parseUlid note) with
  | ok found =>
    obtain ⟨release, raw⟩ := found
    have hret : index.retainedRelease (rolesOfNote parseUlid note) = some release.asWire := by
      rw [retainedRelease, hderiv]
    simp only [pushed_eq, hscope, hderiv]
    refine ⟨accountedOnce_pushEntry hret (by simp), not_excludedBy_audit, ?_, ?_⟩
    · intro _ _
      exact pushEntry_diagnostics
    intro failed hfail
    rw [hderiv] at hfail
    cases hfail
  | error reason =>
    cases hstor : (rolesOfNote parseUlid note).release with
    | some stored =>
      have hret : index.retainedRelease (rolesOfNote parseUlid note) = some stored.asWire := by
        rw [retainedRelease, hderiv]
        exact congrArg (Option.map ReleaseKind.asWire) hstor
      simp only [pushed_eq, hscope, hderiv, hstor]
      refine ⟨accountedOnce_pushEntry hret (by simp), not_excludedBy_audit, ?_, ?_⟩
      · intro found hfound
        rw [hderiv] at hfound
        cases hfound
      intro _ _ entry hentry
      rw [pushEntry_diagnostics]
      -- the only entry is the one that was pushed with the stored release
      cases mem_pushEntry hentry
      exact ⟨_, rfl⟩
    | none =>
      simp only [pushed_eq, hscope, hderiv, hstor]
      have hnone (filter : MirrorFilter) :
          ¬ ExcludedBy index opts (rolesOfNote parseUlid note) filter := by
        rintro ⟨release, hrel, -⟩
        rw [retainedRelease, hderiv] at hrel
        dsimp only at hrel
        rw [hstor] at hrel
        cases hrel
      refine ⟨.inr (.inl ⟨rfl, ⟨_, rfl⟩, hnone⟩), fun _ => hnone, ?_, ?_⟩
      · intro found hfound
        rw [hderiv] at hfound
        cases hfound
      · intro _ _ entry hentry
        cases hentry

/-- The derived export drops nothing silently. -/
theorem derivedExport_accounts (parseUlid : String → Option NoteId) (opts : ExportOptions)
    (projectFilter : Option String) (notes : List CardNote) :
    let index := fromBodies parseUlid (notes.map CardNote.body)
    let out := projectMapFeatureEntriesDerivedScoped parseUlid opts projectFilter notes
    out.entries.Perm
        (notes.flatMap fun note => (pushed parseUlid index opts projectFilter note).entries) ∧
      out.diagnostics.Perm
        (notes.flatMap fun note => (pushed parseUlid index opts projectFilter note).diagnostics) ∧
      ∀ note ∈ notes, ∀ feature,
        (∀ want, projectFilter = some want → (rolesOfNote parseUlid note).project = some want) →
        (∀ kind, (rolesOfNote parseUlid note).kind = some kind → kind.isStructure = false) →
        (rolesOfNote parseUlid note).feature = some feature →
        Accounted index opts (rolesOfNote parseUlid note) feature note.title
          (pushed parseUlid index opts projectFilter note) := by
  dsimp only
  refine ⟨?_, ?_, ?_⟩
  · refine (mergeSort_perm _ _).trans ?_
    rw [foldl_readNote]
    exact .rfl
  · refine (mergeSort_perm _ _).trans ?_
    rw [foldl_readNote]
    exact .rfl
  · intro note _ feature hproj hkind hfeat
    apply accounted_pushed
    have hwanted : ¬ (projectFilter.any fun want => (rolesOfNote parseUlid note).project ≠ some want) := by
      intro hany
      obtain ⟨want, hwant, hother⟩ := (Option.any_eq_true _ _).1 hany
      exact of_decide_eq_true hother (hproj want hwant)
    have hwork : ¬ (rolesOfNote parseUlid note).kind.any KindKind.isStructure := by
      intro hany
      obtain ⟨kind, hfound, hstruct⟩ := (Option.any_eq_true _ _).1 hany
      rw [hkind kind hfound] at hstruct
      cases hstruct
    rw [CardRoles.featureInScope, if_neg hwanted, if_neg hwork]
    exact hfeat

def danglingCard : CardNote where
  body := "[[project:gradatum]] [[kind:FEATURE]] [[status:OPEN]] [[feature:F-07]]\n" ++
    "[[track:gradatum/2.1.0]] [[release:planned]]"
  title := "[PROJECT-MAP][gradatum] Export — v2.1.0"

theorem derivedExport_accounts_danglingCard :
    Accounted (fromBodies (fun _ => none) [danglingCard.body]) ⟨false⟩
      (rolesOfNote (fun _ => none) danglingCard) "F-07" danglingCard.title
      (pushed (fun _ => none) (fromBodies (fun _ => none) [danglingCard.body]) ⟨false⟩
        (some "gradatum") danglingCard) := by
  have hlinks : structuralLinks (fun _ => none) danglingCard.body =
      [.project "gradatum", .kind .feature, .status .open, .feature "F-07", .track "gradatum" "2.1.0",
        .release .planned] := by decide +kernel
  apply (derivedExport_accounts (fun _ => none) ⟨false⟩ (some "gradatum") [danglingCard]).2.2 danglingCard
    mem_cons_self
  · intro want hwant
    rw [rolesOfNote, hlinks]
    exact hwant
  · intro kind hfound
    rw [rolesOfNote, hlinks] at hfound
    cases hfound
    rfl
  · rw [rolesOfNote, hlinks]
    rfl

end Gradatum.ProjectMap
