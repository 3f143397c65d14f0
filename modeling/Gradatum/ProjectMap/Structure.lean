import Mathlib.Data.List.Basic
import Mathlib.Data.List.Induction
import Gradatum.ProjectMap.Body

/-!
# Structure cards

A ROADMAP or BACKLOG is a structure card: the cards of its project attach to it with a link
`[[track:project/version]]` that names its version.  `StructureIndex` is how a reader finds it.
-/

open Reasoning

namespace Gradatum.ProjectMap

open Notes List

/-! ## 1. The index -/

structure StructureFacts where
  kind : KindKind
  status : StatusKind
  porteuse : Option String
  deriving DecidableEq

inductive TrackTarget where
  | backlog
  | roadmap (status : StatusKind) (porteuseStatus : Option StatusKind)
  deriving DecidableEq

inductive TrackResolutionError where
  | targetNotFound (identity : String)
  | porteuseNotFound (roadmap porteuse : String)
  deriving DecidableEq

structure StructureIndex where
  byIdentity : String → Option StructureFacts

namespace StructureIndex

def insert (index : StructureIndex) (identity : String) (facts : StructureFacts) : StructureIndex :=
  ⟨Function.update index.byIdentity identity (some facts)⟩

/-- The porteuse is looked up for an OBSOLETE roadmap alone. -/
def resolveTrack (index : StructureIndex) (project target : String) :
    Except TrackResolutionError TrackTarget :=
  let identity := identityText (project, target)
  match index.byIdentity identity with
  | none => .error (.targetNotFound identity)
  | some facts =>
    match facts.kind with
    | .backlog => .ok .backlog
    | .roadmap =>
      match facts.porteuse, facts.status with
      | some carrier, .obsolete =>
        match index.byIdentity carrier with
        | some found => .ok (.roadmap facts.status (some found.status))
        | none => .error (.porteuseNotFound identity carrier)
      | _, _ => .ok (.roadmap facts.status none)
    | _ => .error (.targetNotFound identity)

end StructureIndex

section Bodies

variable (parseUlid : String → Option NoteId)

/-- What is indexed of a body; of several links of a role the last one counts. -/
def structureFacts (body : String) : Option (String × StructureFacts) :=
  let links := structuralLinks parseUlid body
  match (kindsOf links).getLast?, (statusesOf links).getLast?, (versionsOf links).getLast? with
  | some kind, some status, some version =>
    if kind.isStructure then
      some (identityText version, ⟨kind, status, (porteusesOf links).getLast?.map identityText⟩)
    else none
  | _, _, _ => none

def StructureIndex.fromBodies (bodies : List String) : StructureIndex :=
  bodies.foldl (fun index body =>
    match structureFacts parseUlid body with
    | some (identity, facts) => index.insert identity facts
    | none => index) ⟨fun _ => none⟩

variable {parseUlid}

theorem fromBodies_append_one (bodies : List String) (body identity : String) :
    (StructureIndex.fromBodies parseUlid (bodies ++ [body])).byIdentity identity =
      match structureFacts parseUlid body with
      | some (identity', facts) =>
        if identity = identity' then some facts
        else (StructureIndex.fromBodies parseUlid bodies).byIdentity identity
      | none => (StructureIndex.fromBodies parseUlid bodies).byIdentity identity := by
  unfold StructureIndex.fromBodies
  rw [foldl_append, foldl_cons, foldl_nil]
  split
  · exact Function.update_apply _ _ _ _
  · rfl

theorem exists_body_of_byIdentity
    (h : (StructureIndex.fromBodies parseUlid bodies).byIdentity identity = some facts) :
    ∃ body ∈ bodies, structureFacts parseUlid body = some (identity, facts) := by
  induction bodies using List.reverseRecOn with
  | nil => cases h
  | append_singleton bodies body ih =>
    rw [fromBodies_append_one] at h
    split at h
    · rename_i identity' facts' hfacts
      split at h
      · rename_i heq
        cases h
        exact ⟨body, by simp, by rw [hfacts, heq]⟩
      · obtain ⟨old, hold, hbody⟩ := ih h
        exact ⟨old, by simp [hold], hbody⟩
    · obtain ⟨old, hold, hbody⟩ := ih h
      exact ⟨old, by simp [hold], hbody⟩

theorem byIdentity_isSome (hbody : body ∈ bodies)
    (hfacts : structureFacts parseUlid body = some (identity, facts)) :
    ((StructureIndex.fromBodies parseUlid bodies).byIdentity identity).isSome = true := by
  induction bodies using List.reverseRecOn with
  | nil => cases hbody
  | append_singleton bodies last ih =>
    rw [fromBodies_append_one]
    rcases mem_append.1 hbody with hold | hlast
    · split
      · split
        · rfl
        · exact ih hold
      · exact ih hold
    · cases mem_singleton.1 hlast
      rw [hfacts]
      dsimp only
      rw [if_pos rfl]
      rfl

theorem structureFacts_kind (h : structureFacts parseUlid body = some (identity, facts)) :
    facts.kind.isStructure = true := by
  unfold structureFacts at h
  dsimp only at h
  split at h
  · split at h
    · rename_i hstruct
      rw [← (Prod.mk.inj (Option.some.inj h)).2]
      exact hstruct
    · cases h
  · cases h

/-- The version of the card that carries on for an OBSOLETE roadmap. -/
def carrierOf (parseUlid : String → Option NoteId) (body : String) : Option (String × String) :=
  let links := structuralLinks parseUlid body
  if (kindsOf links).getLast? = some .roadmap ∧ (statusesOf links).getLast? = some .obsolete then
    (porteusesOf links).getLast?
  else none

theorem porteuse_of_structureFacts (h : structureFacts parseUlid body = some (identity, facts))
    (hkind : facts.kind = .roadmap) (hstat : facts.status = .obsolete) :
    facts.porteuse = (carrierOf parseUlid body).map identityText := by
  unfold structureFacts at h
  dsimp only at h
  split at h
  · rename_i hkinds hstats hvers
    split at h
    · cases h
      rw [carrierOf, if_pos ⟨hkinds.trans (congrArg some hkind), hstats.trans (congrArg some hstat)⟩]
    · cases h
  · cases h

/-- A track resolves where a body has its identity, if the cards that carry on are there too. -/
theorem resolveTrack_ok (hbody : body ∈ bodies)
    (hfacts : structureFacts parseUlid body = some (identityText (project, target), facts))
    (hcarry : ∀ body ∈ bodies, ∀ carrier, carrierOf parseUlid body = some carrier →
      ∃ other ∈ bodies, ∃ facts, structureFacts parseUlid other = some (identityText carrier, facts)) :
    ∃ found, (StructureIndex.fromBodies parseUlid bodies).resolveTrack project target = .ok found := by
  obtain ⟨found, hfound⟩ := Option.isSome_iff_exists.1 (byIdentity_isSome hbody hfacts)
  obtain ⟨source, hsrc, hread⟩ := exists_body_of_byIdentity hfound
  have hkind : found.kind.isStructure = true := structureFacts_kind hread
  unfold StructureIndex.resolveTrack
  dsimp only
  rw [hfound]
  dsimp only
  cases hk : found.kind with
  | backlog => exact ⟨_, rfl⟩
  | roadmap =>
    dsimp only
    split
    · rename_i carrier hporteuse hstat
      rw [porteuse_of_structureFacts hread hk hstat, Option.map_eq_some_iff] at hporteuse
      obtain ⟨pair, hpair, rfl⟩ := hporteuse
      obtain ⟨other, hother, facts', hfacts'⟩ := hcarry source hsrc pair hpair
      obtain ⟨next, hnext⟩ := Option.isSome_iff_exists.1 (byIdentity_isSome hother hfacts')
      rw [hnext]
      exact ⟨_, rfl⟩
    · exact ⟨_, rfl⟩
  | feature | enhancement | fix | task =>
    rw [hk] at hkind
    cases hkind

end Bodies

/-! ## 2. Identities -/

theorem IsIdent.slash_notMem (h : IsIdent text) : '/' ∉ text.toList := by
  intro hmem
  cases h '/' hmem

theorem identityText_toList (pair : String × String) :
    (identityText pair).toList = pair.1.toList ++ '/' :: pair.2.toList := by
  simp [identityText]

theorem identityText_inj (hpair : IsPair pair) (h : identityText pair = identityText pair') :
    pair = pair' := by
  have htext := congrArg String.toList h
  rw [identityText_toList, identityText_toList] at htext
  obtain ⟨hfirst, -, hsnd⟩ :=
    (append_cons_inj_of_notMem hpair.1.slash_notMem hpair.2.slash_notMem).1 htext
  exact Prod.ext (String.toList_inj.1 hfirst) (String.toList_inj.1 hsnd)

theorem IsPair.char (h : IsPair version) (hc : c ∈ (identityText version).toList) :
    isIdentChar c = true ∨ c = '/' := by
  rw [identityText_toList, mem_append, mem_cons] at hc
  rcases hc with hfirst | rfl | hsnd
  · exact .inl (h.1 c hfirst)
  · exact .inr rfl
  · exact .inl (h.2 c hsnd)

theorem IsPair.ne (h : IsPair version) (hc : c ∈ (identityText version).toList) :
    isWhiteSpace c = false ∧ c ≠ ']' := by
  rcases h.char hc with hident | rfl
  · refine ⟨isWhiteSpace_of_isIdentChar hident, ?_⟩
    rintro rfl
    cases hident
  · decide

theorem IsPair.track_ne (h : IsPair version) :
    ∀ c ∈ "track:".toList ++ (identityText version).toList, isWhiteSpace c = false ∧ c ≠ ']' := by
  intro c hc
  rcases mem_append.1 hc with hrole | hident
  · have hall : ∀ c ∈ "track:".toList, isWhiteSpace c = false ∧ c ≠ ']' :=
      @of_decide_eq_true _ (List.decidableBAll _ _) rfl
    exact hall c hrole
  · exact h.ne hident

/-! ## 3. Valid cards -/

section Valid

variable {links : List ProjectMapLink}

theorem keepLinks_ok (h : keepLinks parsed = .ok links) : links = parsed.filterMap Except.toOption := by
  induction parsed generalizing links with
  | nil =>
    cases h
    rfl
  | cons first parsed ih =>
    rw [filterMap_cons]
    cases first with
    | ok link =>
      rw [keepLinks] at h
      obtain ⟨rest, hrest, rfl⟩ := map_eq_ok_iff.1 h
      rw [ih hrest]
      rfl
    | error e =>
      rw [keepLinks] at h
      split at h
      · exact ih h
      · cases h

theorem cardLinks_ok (h : cardLinks parseUlid targets = .ok links) :
    links = parsedLinks parseUlid targets := by
  rw [keepLinks_ok h, filterMap_map]
  rfl

structure ValidCard (links : List ProjectMapLink) (kind : KindKind) (project : String) : Prop where
  kinds : kindsOf links = [kind]
  projects : projectsOf links = [project]
  statuses : ∃ status, statusesOf links = [status]
  versions : kind.isStructure = true → ∃ version, versionsOf links = [(project, version)]
  noTracks : kind.isStructure = true → tracksOf links = []
  tracks : (tracksOf links).length ≤ 1

theorem validateTracks_ok (h : validateTracks kind links = .ok ()) :
    (kind.isStructure = true → tracksOf links = []) ∧ (tracksOf links).length ≤ 1 := by
  unfold validateTracks at h
  dsimp only at h
  split at h
  · rw [require_eq_ok_iff, decide_eq_true_eq] at h
    exact ⟨fun _ => eq_nil_of_length_eq_zero h, by omega⟩
  rename_i hwork
  rw [require_eq_ok_iff, decide_eq_true_eq] at h
  exact ⟨fun hstruct => absurd hstruct hwork, h⟩

section

variable (h : validateLinks links = .ok ())

include h

theorem validateKind_of_validateLinks :
    ∃ kind, kindsOf links = [kind] ∧ validateKind kind links = .ok () ∧ (versionsOf links).length ≤ 1 ∧
      ∀ version ∈ versionsOf links, version.1 = (projectsOf links).headD "" := by
  simp only [validateLinks, bind_eq_ok_iff, require_eq_ok_iff, decide_eq_true_eq] at h
  obtain ⟨_, -, _, -, h⟩ := h
  split at h
  · rename_i kind hkinds
    obtain ⟨_, hver, h⟩ := bind_eq_ok_iff.1 h
    rw [require_eq_ok_iff, decide_eq_true_eq] at hver
    refine ⟨kind, hkinds, ?_⟩
    -- with a version or without one, the rules of the kind come last
    split at h
    · rename_i versionProject version rest hvers
      simp only [bind_eq_ok_iff, require_eq_ok_iff, decide_eq_true_eq] at h
      obtain ⟨_, hsame, hkind⟩ := h
      refine ⟨hkind, hver, fun found hfound => ?_⟩
      rw [hvers, length_cons] at hver
      rw [hvers, eq_nil_of_length_eq_zero (by omega : rest.length = 0)] at hfound
      rw [mem_singleton.1 hfound]
      exact hsame
    · rename_i hvers
      refine ⟨h, hver, fun found hfound => ?_⟩
      rw [hvers] at hfound
      cases hfound
  · cases h

theorem validateLinks_ok :
    ∃ kind project, ValidCard links kind project := by
  obtain ⟨kind, hkinds, hkind, -, hsame⟩ := validateKind_of_validateLinks h
  simp only [validateLinks, bind_eq_ok_iff, require_eq_ok_iff, decide_eq_true_eq] at h
  obtain ⟨_, hproj, _, hstat, -⟩ := h
  obtain ⟨project, hprojs⟩ := length_eq_one_iff.1 hproj
  rw [hprojs] at hsame
  simp only [validateKind, bind_eq_ok_iff] at hkind
  obtain ⟨_, htrks, _, -, _, -, hkind⟩ := hkind
  obtain ⟨hnone, hone⟩ := validateTracks_ok htrks
  refine ⟨kind, project, hkinds, hprojs, length_eq_one_iff.1 hstat, ?_, hnone, hone⟩
  intro hstruct
  simp only [hstruct, if_pos, validateStructure, bind_eq_ok_iff, require_eq_ok_iff,
    decide_eq_true_eq] at hkind
  obtain ⟨_, -, _, -, hlen⟩ := hkind
  obtain ⟨⟨versionProject, version⟩, hvers⟩ := length_eq_one_iff.1 hlen
  refine ⟨version, ?_⟩
  have hfirst : versionProject = project :=
    hsame (versionProject, version) (by rw [hvers]; exact mem_cons_self)
  rw [hvers, hfirst]

theorem length_featuresOf_le : (featuresOf links).length ≤ 1 := by
  obtain ⟨kind, -, hkind, -⟩ := validateKind_of_validateLinks h
  simp only [validateKind, bind_eq_ok_iff] at hkind
  obtain ⟨_, -, _, -, _, -, hkind⟩ := hkind
  split at hkind
  · simp only [validateStructure, bind_eq_ok_iff, require_eq_ok_iff, decide_eq_true_eq] at hkind
    obtain ⟨_, hfeats, -⟩ := hkind
    omega
  simp only [validateWork, bind_eq_ok_iff, require_eq_ok_iff, decide_eq_true_eq] at hkind
  obtain ⟨_, hfeats, -⟩ := hkind
  exact hfeats

end

theorem validateCardBody_ok (h : validateCardBody parseUlid body = .ok ()) :
    ∃ kind project, ValidCard (structuralLinks parseUlid body) kind project := by
  rw [validateCardBody, bind_eq_ok_iff] at h
  obtain ⟨links, hlinks, h⟩ := h
  rw [cardLinks_ok hlinks] at h
  exact validateLinks_ok h

end Valid

/-! ## 4. A track on a line of its own -/

section Line

theorem exists_line_of_mem_scan (h : target ∈ scanStructuralTargets inFence lines) :
    ∃ line ∈ lines, target ∈ structuralTargetsOnLine line := by
  induction lines generalizing inFence with
  | nil => cases h
  | cons line lines ih =>
    unfold scanStructuralTargets at h
    have hrest : (∃ fence, target ∈ scanStructuralTargets fence lines) ∨
        target ∈ structuralTargetsOnLine line := by
      split at h
      · exact .inl ⟨_, h⟩
      split at h
      · exact .inl ⟨_, h⟩
      · exact (mem_append.1 h).symm.imp_left fun hmem => ⟨_, hmem⟩
    rcases hrest with ⟨fence, hlines⟩ | hline
    · obtain ⟨found, hfound, htgt⟩ := ih hlines
      exact ⟨found, mem_cons_of_mem _ hfound, htgt⟩
    · exact ⟨line, mem_cons_self, hline⟩

theorem mem_scan_append (h : target ∈ scanStructuralTargets inFence (lines ++ more)) :
    target ∈ scanStructuralTargets inFence lines ∨
      ∃ line ∈ more, target ∈ structuralTargetsOnLine line := by
  induction lines generalizing inFence with
  | nil => exact .inr (exists_line_of_mem_scan h)
  | cons line lines ih =>
    rw [cons_append, scanStructuralTargets] at h
    rw [scanStructuralTargets]
    split at h
    · rename_i hfence
      rw [if_pos hfence]
      exact ih h
    rename_i hfence
    rw [if_neg hfence]
    split at h
    · rename_i hin
      rw [if_pos hin]
      exact ih h
    rename_i hin
    rw [if_neg hin]
    rcases mem_append.1 h with hline | hlines
    · exact .inl (mem_append_left _ hline)
    · exact (ih hlines).imp_left (mem_append_right _)

theorem breakAt_append {inner rest : List Char} (h : ']' ∉ inner) :
    breakAt ']' (inner ++ ']' :: ']' :: rest) = some (inner, rest) := by
  induction inner with
  | nil => rw [nil_append, breakAt, if_pos ⟨rfl, rfl⟩]
  | cons a inner ih =>
    have ha : ¬ a = ']' := fun heq => h (heq ▸ mem_cons_self)
    have hbreak := ih fun hmem => h (mem_cons_of_mem _ hmem)
    cases inner with
    | nil =>
      rw [cons_append, nil_append, breakAt, if_neg fun hboth => ha hboth.1]
      rw [nil_append] at hbreak
      rw [hbreak]
      rfl
    | cons b inner =>
      rw [cons_append] at hbreak
      rw [cons_append, cons_append, breakAt, if_neg fun hboth => ha hboth.1, hbreak]
      rfl

theorem structuralTargetsOnLine_link {inner : List Char} (h : ']' ∉ inner) :
    structuralTargetsOnLine ('[' :: '[' :: (inner ++ [']', ']'])) = [trim inner] := by
  have hopen : breakAt '[' ('[' :: '[' :: (inner ++ [']', ']'])) = some ([], inner ++ [']', ']']) := by
    rw [breakAt, if_pos ⟨rfl, rfl⟩]
  have hlen : ('[' :: '[' :: (inner ++ [']', ']'])).length = inner.length + 3 + 1 := by simp
  have htok : lineTokens ('[' :: '[' :: (inner ++ [']', ']'])).length
      ('[' :: '[' :: (inner ++ [']', ']'])) = ([⟨[], inner⟩], []) := by
    rw [hlen, lineTokens, hopen]
    dsimp only
    rw [breakAt_append h]
    dsimp only
    rw [lineTokens]
    rfl
  rw [structuralTargetsOnLine, htok]
  rfl

theorem mem_tracksOf_injected (hpair : IsPair version) (hend : body.toList.getLast? ≠ some '\r')
    (h : track ∈ tracksOf (structuralLinks parseUlid
      (body ++ "\n\n[[track:" ++ identityText version ++ "]]"))) :
    track ∈ tracksOf (structuralLinks parseUlid body) ∨ track = version := by
  obtain ⟨raw, hraw, hparse⟩ := mem_tracksOf_parsedLinks.1 h
  obtain ⟨target, htgt, rfl⟩ := List.mem_map.1 hraw
  let inner := "track:".toList ++ (identityText version).toList
  have hchars : ∀ c ∈ inner, isWhiteSpace c = false ∧ c ≠ ']' := hpair.track_ne
  have hbrac : ']' ∉ inner := fun hmem => (hchars _ hmem).2 rfl
  have hnewl : '\n' ∉ '[' :: '[' :: (inner ++ [']', ']']) := by
    intro hmem
    have hinner : '\n' ∈ inner := by simpa using hmem
    cases (hchars _ hinner).1
  have htext : (body ++ "\n\n[[track:" ++ identityText version ++ "]]").toList =
      body.toList ++ '\n' :: '\n' :: '[' :: '[' :: (inner ++ [']', ']']) := by
    simp [inner]
  obtain ⟨more, hlines, hmore⟩ := exists_lines_append hnewl (cons_ne_nil _ _) hend
  rw [htext, hlines] at htgt
  rcases mem_scan_append htgt with hbody | ⟨line, hline, htgt⟩
  · exact .inl (mem_tracksOf_parsedLinks.2 ⟨_, List.mem_map_of_mem hbody, hparse⟩)
  rcases hmore line hline with rfl | rfl
  · cases htgt
  -- the target is the link, which spells the version
  right
  rw [structuralTargetsOnLine_link hbrac, mem_singleton,
    trim_of_forall fun c hc => (hchars c hc).1] at htgt
  obtain ⟨-, hspel⟩ := parseLink_spells hparse
  rw [htgt, String.toList_ofList, trim_of_forall fun c hc => (hchars c hc).1] at hspel
  have hsame := append_cancel_left hspel
  rw [← identityText_toList] at hsame
  exact (identityText_inj hpair (String.toList_inj.1 hsame)).symm

end Line

/-! ## 5. Sound bodies -/

section Sound

variable (parseUlid : String → Option NoteId)

def isStructureBody (body : String) : Bool :=
  (kindsOf (structuralLinks parseUlid body)).getLast?.any KindKind.isStructure

def isWorkBody (body : String) : Bool :=
  (kindsOf (structuralLinks parseUlid body)).getLast?.any (!·.isStructure)

def plainLinks (body : String) : Bool :=
  tracksOf (bodyLinks parseUlid body) = tracksOf (structuralLinks parseUlid body) &&
    versionsOf (bodyLinks parseUlid body) = versionsOf (structuralLinks parseUlid body) &&
    kindsOf (bodyLinks parseUlid body) = kindsOf (structuralLinks parseUlid body)

structure SoundBody (body : String) : Prop where
  valid : validateCardBody parseUlid body = .ok ()
  plain : plainLinks parseUlid body = true

variable {parseUlid}

theorem plainLinks_iff : plainLinks parseUlid body = true ↔
    tracksOf (bodyLinks parseUlid body) = tracksOf (structuralLinks parseUlid body) ∧
      versionsOf (bodyLinks parseUlid body) = versionsOf (structuralLinks parseUlid body) ∧
      kindsOf (bodyLinks parseUlid body) = kindsOf (structuralLinks parseUlid body) := by
  simp only [plainLinks, Bool.and_eq_true, decide_eq_true_eq, and_assoc]

theorem structureFacts_of_valid (hvalid : validateCardBody parseUlid body = .ok ())
    (hstruct : isStructureBody parseUlid body = true) :
    ∃ version facts, projectsOf (structuralLinks parseUlid body) = [version.1] ∧
      versionsOf (structuralLinks parseUlid body) = [version] ∧
      structureFacts parseUlid body = some (identityText version, facts) := by
  obtain ⟨kind, project, hcard⟩ := validateCardBody_ok hvalid
  have hkind : kind.isStructure = true := by
    rw [isStructureBody, hcard.kinds] at hstruct
    exact hstruct
  obtain ⟨version, hver⟩ := hcard.versions hkind
  obtain ⟨status, hstat⟩ := hcard.statuses
  let porteuse := (porteusesOf (structuralLinks parseUlid body)).getLast?.map identityText
  refine ⟨(project, version), ⟨kind, status, porteuse⟩, hcard.projects, hver, ?_⟩
  unfold structureFacts
  dsimp only
  rw [hcard.kinds, hstat, hver]
  exact if_pos hkind

end Sound

end Gradatum.ProjectMap
