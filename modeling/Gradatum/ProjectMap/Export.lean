import Mathlib.Algebra.Order.Ring.Nat
import Gradatum.ProjectMap.Structure

/-!
# The export of the feature cards

The first projection shows the release that a card stores.  The second one derives it from the structure card
that the card tracks, and falls back to what is stored with a diagnostic.
-/

namespace Gradatum.ProjectMap

open Notes

/-! ## 1. The release of a card -/

inductive ReleaseDerivationError where
  | undeterminedRoadmapStatus (status : StatusKind)
  deriving DecidableEq

def sentinelTrackVersion : String := "0.0.0"

def isSentinelTrackVersion (trackVersion : String) : Bool :=
  ((rsplitOnce '/' trackVersion.toList).map Prod.snd).getD trackVersion.toList = sentinelTrackVersion.toList

/-- Every status has a release; the error is left for the readers. -/
def deriveRoadmapRelease : StatusKind → Except ReleaseDerivationError ReleaseKind
  | .done => .ok .released
  | .open | .inProgress => .ok .planned
  | .obsolete => .ok .dropped
  | .blocked => .ok .planned
  | .brainstorming => .ok .roadmap

def deriveRelease (cardStatus : StatusKind) (trackTarget : TrackTarget) (trackVersion : String) :
    Except ReleaseDerivationError ReleaseKind :=
  if isSentinelTrackVersion trackVersion then .ok .dropped
  else if cardStatus = .done then .ok .released
  else if cardStatus = .obsolete then .ok .dropped
  else match trackTarget with
    | .backlog => .ok .roadmap
    | .roadmap .obsolete (some carrier) => deriveRoadmapRelease carrier
    | .roadmap status _ => deriveRoadmapRelease status

/-- `None` is never returned. -/
def mapVersionRaw (raw : String) : Option String :=
  let ver := ((splitOnce '/' raw).map Prod.snd).getD raw
  if ver = "backlog" then some "vX.Y.Z" else some ("v" ++ ver)

/-! ## 2. What is read off a card -/

structure CardNote where
  body : String
  title : String
  deriving DecidableEq

structure CardRoles where
  feature : Option String
  release : Option ReleaseKind
  version : Option (String × String)
  track : Option (String × String)
  kind : Option KindKind
  project : Option String
  status : Option StatusKind
  visibility : Option VisibilityKind

def CardRoles.ofLinks (links : List ProjectMapLink) : CardRoles where
  feature := (featuresOf links).getLast?
  release := (releasesOf links).getLast?
  version := (versionsOf links).getLast?
  track := (tracksOf links).getLast?
  kind := (kindsOf links).getLast?
  project := (projectsOf links).getLast?
  status := (statusesOf links).getLast?
  visibility := (visibilitiesOf links).getLast?

def CardRoles.axis (roles : CardRoles) : Option String :=
  (roles.track.map identityText).or (roles.version.map identityText)

def CardRoles.featureInScope (roles : CardRoles) (projectFilter : Option String) : Option String :=
  if projectFilter.any fun want => roles.project ≠ some want then none
  else if roles.kind.any KindKind.isStructure then none
  else roles.feature

structure FeatureEntry where
  feature : String
  release : String
  version : Option String
  visibility : Option String
  title : String
  deriving DecidableEq

structure ExportOptions where
  includeDropped : Bool
  deriving DecidableEq

inductive MirrorFilter where
  | dropped
  | kind
  | visibility
  deriving DecidableEq

def MirrorFilter.rejects (opts : ExportOptions) (roles : CardRoles) (release : String) :
    MirrorFilter → Bool
  | .dropped => !opts.includeDropped && release = "dropped"
  | .kind => !opts.includeDropped && roles.kind ≠ some .feature
  | .visibility => !opts.includeDropped && roles.visibility = some .interne

/-- The filter at which the loop goes on to the next note. -/
def mirrorFilter (opts : ExportOptions) (roles : CardRoles) (release : String) : Option MirrorFilter :=
  [MirrorFilter.dropped, .kind, .visibility].find? (MirrorFilter.rejects opts roles release)

def FeatureEntry.of (roles : CardRoles) (feature release : String) (version : Option String)
    (title : String) : FeatureEntry :=
  ⟨feature, release, version, roles.visibility.map VisibilityKind.asWire, title⟩

def parseU32 (text : List Char) : Option Nat :=
  let digits : List Char := match text with
    | '+' :: digits => digits
    | digits => digits
  let value := digits.foldl (fun n c => 10 * n + (c.toNat - '0'.toNat)) 0
  if digits ≠ [] ∧ digits.all Char.isDigit ∧ value < 2 ^ 32 then some value else none

def featureSortKey (id : String) : Nat :=
  match id.toList with
  | 'F' :: '-' :: digits => (parseU32 digits).getD 0
  | _ => 0

def sortEntries (entries : List FeatureEntry) : List FeatureEntry :=
  entries.mergeSort fun a b => featureSortKey a.feature ≤ featureSortKey b.feature

section Stored

variable (parseUlid : String → Option NoteId) (opts : ExportOptions) (projectFilter : Option String)

def storedEntry (note : CardNote) : Option FeatureEntry := do
  let roles := CardRoles.ofLinks (structuralLinks parseUlid note.body)
  let feature ← roles.featureInScope projectFilter
  let release ← roles.release.map ReleaseKind.asWire
  match mirrorFilter opts roles release with
  | some _ => none
  | none => some (.of roles feature release (roles.axis.bind mapVersionRaw) note.title)

def projectMapFeatureEntriesScoped (notes : List CardNote) : List FeatureEntry :=
  sortEntries (notes.filterMap (storedEntry parseUlid opts projectFilter))

end Stored

/-! ## 3. Roles that a fence hides -/

structure StructuralScan where
  targets : List String
  swallowed : List String
  unterminated : Bool

structure FenceState where
  inFence : Bool
  fenced : List (List Char)
  targets : List (List Char)

/-- A closing mark makes what it held a quotation. -/
def FenceState.readLine (s : FenceState) (line : List Char) : FenceState :=
  if isFenceLine line then
    { s with inFence := !s.inFence, fenced := if s.inFence then [] else s.fenced }
  else if s.inFence then { s with fenced := s.fenced ++ structuralTargetsOnLine line }
  else { s with targets := s.targets ++ structuralTargetsOnLine line }

def structuralScan (body : String) : StructuralScan :=
  let s := (linesFrom [] body.toList).foldl FenceState.readLine ⟨false, [], []⟩
  ⟨s.targets.map String.ofList, if s.inFence then s.fenced.map String.ofList else [], s.inFence⟩

theorem foldl_readLine_targets (s : FenceState) (lines : List (List Char)) :
    (lines.foldl FenceState.readLine s).targets = s.targets ++ scanStructuralTargets s.inFence lines := by
  induction lines generalizing s with
  | nil => rw [List.foldl_nil, scanStructuralTargets, List.append_nil]
  | cons line lines ih =>
    rw [List.foldl_cons, ih, scanStructuralTargets, FenceState.readLine]
    by_cases hfence : isFenceLine line
    · rw [if_pos hfence, if_pos hfence]
    · rw [if_neg hfence, if_neg hfence]
      by_cases hin : s.inFence
      · rw [if_pos hin, if_pos hin]
      · rw [if_neg hin, if_neg hin, List.append_assoc]

theorem structuralScan_targets (body : String) :
    (structuralScan body).targets = extractStructuralTargets body := by
  rw [structuralScan, extractStructuralTargets, foldl_readLine_targets, List.nil_append]

def hasUnterminatedCodeFence (body : String) : Bool := (structuralScan body).unterminated

/-! ## 4. The derived release -/

inductive DerivationFallbackReason where
  | noTrack
  | unresolved (e : TrackResolutionError)
  | undetermined (e : ReleaseDerivationError)
  | unterminatedCodeFence
  deriving DecidableEq

/-- `{:?}`.  A name has no character that the quotation would escape. -/
def DerivationFallbackReason.debug : DerivationFallbackReason → String
  | noTrack => "NoTrack"
  | unresolved (.targetNotFound identity) =>
    "Unresolved(TargetNotFound \x7b identity: " ++ identity.quote ++ " \x7d)"
  | unresolved (.porteuseNotFound roadmap porteuse) =>
    "Unresolved(PorteuseNotFound \x7b roadmap: " ++ roadmap.quote ++ ", porteuse: " ++ porteuse.quote ++
      " \x7d)"
  | undetermined (.undeterminedRoadmapStatus status) =>
    "Undetermined(UndeterminedRoadmapStatus(" ++ statusName status ++ "))"
  | unterminatedCodeFence => "UnterminatedCodeFence"
where
  statusName : StatusKind → String
    | .brainstorming => "Brainstorming"
    | .open => "Open"
    | .inProgress => "InProgress"
    | .blocked => "Blocked"
    | .done => "Done"
    | .obsolete => "Obsolete"

structure DerivationDiagnostic where
  feature : String
  stored : Option String
  reason : DerivationFallbackReason
  deriving DecidableEq

def DerivationDiagnostic.le (a b : DerivationDiagnostic) : Bool :=
  ((compare (featureSortKey a.feature) (featureSortKey b.feature)).then <|
    (compare a.feature b.feature).then <|
    (compare a.stored b.stored).then (compare a.reason.debug b.reason.debug)).isLE

structure DerivedExport where
  entries : List FeatureEntry
  diagnostics : List DerivationDiagnostic

def fenceAwareReason (body : String) (scan : StructuralScan) (reason : DerivationFallbackReason) :
    DerivationFallbackReason :=
  if reason = .noTrack ∧ hasUnterminatedCodeFence body ∧ scan.swallowed ≠ [] then .unterminatedCodeFence
  else reason

def StructureIndex.derivation (index : StructureIndex) (roles : CardRoles) :
    Except DerivationFallbackReason (ReleaseKind × String) :=
  match roles.status, roles.track with
  | some status, some (project, target) =>
    match index.resolveTrack project target with
    | .ok found =>
      match deriveRelease status found target with
      | .ok release => .ok (release, identityText (project, target))
      | .error e => .error (.undetermined e)
    | .error e => .error (.unresolved e)
  | _, _ => .error .noTrack

namespace DerivedExport

def pushDiagnostic (out : DerivedExport) (diagnostic : DerivationDiagnostic) : DerivedExport :=
  { out with diagnostics := out.diagnostics ++ [diagnostic] }

def pushEntry (opts : ExportOptions) (roles : CardRoles) (entry : FeatureEntry) (out : DerivedExport) :
    DerivedExport :=
  match mirrorFilter opts roles entry.release with
  | some _ => out
  | none => { out with entries := out.entries ++ [entry] }

end DerivedExport

section Derived

variable (parseUlid : String → Option NoteId) (index : StructureIndex) (opts : ExportOptions)
  (projectFilter : Option String)

def DerivedExport.readNote (out : DerivedExport) (note : CardNote) : DerivedExport :=
  let scan := structuralScan note.body
  let roles := CardRoles.ofLinks (parsedLinks parseUlid scan.targets)
  match roles.featureInScope projectFilter with
  | none => out
  | some feature =>
    match index.derivation roles with
    | .ok (release, raw) =>
      out.pushEntry opts roles (.of roles feature release.asWire (mapVersionRaw raw) note.title)
    | .error reason =>
      let reason := fenceAwareReason note.body scan reason
      match roles.release with
      | some stored =>
        (out.pushDiagnostic ⟨feature, some stored.asWire, reason⟩).pushEntry opts roles
          (.of roles feature stored.asWire (roles.axis.bind mapVersionRaw) note.title)
      | none => out.pushDiagnostic ⟨feature, none, reason⟩

end Derived

def projectMapFeatureEntriesDerivedScoped (parseUlid : String → Option NoteId) (opts : ExportOptions)
    (projectFilter : Option String) (notes : List CardNote) : DerivedExport :=
  let index := StructureIndex.fromBodies parseUlid (notes.map CardNote.body)
  let out := notes.foldl (DerivedExport.readNote parseUlid index opts projectFilter) ⟨[], []⟩
  ⟨sortEntries out.entries, out.diagnostics.mergeSort DerivationDiagnostic.le⟩

end Gradatum.ProjectMap
