import Gradatum.Access.Api
import Gradatum.ProjectMap.Body
import Gradatum.Reasoning.Paging

/-!
# Cards in the index

The write path of project-map cards goes through the rows of the section in pages of 200 and looks for links
anywhere in their bodies.
-/

open Reasoning

namespace Gradatum.Access

open Notes ProjectMap List

/-! ## 1. Pages of rows -/

def vaultRows (v : IndexedVault) (vault : VaultId) : List (NoteId × NoteRow) :=
  v.keys.filterMap fun key =>
    if key.vault = vault then (v.state.notes key).map fun row => (key.id, row) else none

/-- `section = .. AND status != 'downgraded' AND role_kind = ..`; no ULID is like a sentinel. -/
def isListedCard (sec : Section) (roleKind : Option String) (row : NoteRow) : Bool :=
  row.section = sec && row.status ≠ .downgraded && roleKind.all (row.roleKind = some ·)

/-- `list_notes_filtered`.  ULIDs are ordered by their text as they are by their value. -/
def listCards (v : IndexedVault) (vault : VaultId) (sec : Section) (roleKind : Option String)
    (limit : Nat) : Option NoteId → List (NoteId × NoteRow) :=
  keysetQuery (fun a b => decide (a < b)) Prod.fst limit (fun r => isListedCard sec roleKind r.2)
    (fun _ => true) (vaultRows v vault)

def anyCard (v : IndexedVault) (vault : VaultId) (roleKind : Option String) (carries : String → Bool) :
    Bool :=
  anyInPages 200 Prod.fst (listCards v vault .projectMap roleKind 200) (fun r => carries r.2.bodyText)
    (v.keys.length + 1) none

theorem mem_vaultRows : r ∈ vaultRows v vault ↔ v.state.notes ⟨vault, r.1⟩ = some r.2 := by
  rw [vaultRows, mem_filterMap]
  constructor
  · rintro ⟨key, -, hkey⟩
    split at hkey
    · rename_i hvault
      obtain ⟨row, hrow, rfl⟩ := Option.map_eq_some_iff.1 hkey
      rw [← hvault]
      exact hrow
    · cases hkey
  · intro hrow
    refine ⟨⟨vault, r.1⟩, v.covers _ _ hrow, ?_⟩
    rw [if_pos rfl, hrow, Option.map_some]

theorem nodup_vaultRows (v : IndexedVault) (vault : VaultId) :
    ((vaultRows v vault).map Prod.fst).Nodup := by
  -- the ids of the vault are those of its keys, each of which gives at most one row
  have hids : (vaultRows v vault).map Prod.fst =
      v.keys.filterMap fun key =>
        if key.vault = vault then (v.state.notes key).map fun _ => key.id else none := by
    rw [vaultRows, map_filterMap]
    congr
    funext key
    split
    · rw [Option.map_map]
      rfl
    · rfl
  rw [hids]
  refine v.nodup.filterMap ?_
  intro key key' id hid hid'
  rw [Option.mem_def] at hid hid'
  split at hid
  · split at hid'
    · rename_i hvault hvault'
      obtain ⟨_, _, hkey⟩ := Option.map_eq_some_iff.1 hid
      obtain ⟨_, _, hkey'⟩ := Option.map_eq_some_iff.1 hid'
      obtain ⟨w, i⟩ := key
      obtain ⟨w', i'⟩ := key'
      cases hvault
      cases hvault'
      cases hkey
      cases hkey'
      rfl
    · cases hid'
  · cases hid

theorem strictOrder_lt : StrictOrder fun a b : Nat => decide (a < b) where
  asymm := by
    intro a b h
    simp only [decide_eq_true_eq, decide_eq_false_iff_not] at h ⊢
    omega
  trans := by
    intro a b c hab hbc
    simp only [decide_eq_true_eq] at hab hbc ⊢
    omega
  eq_of_neither := by
    intro a b hab hba
    simp only [decide_eq_false_iff_not] at hab hba
    omega

theorem anyCard_iff :
    anyCard v vault roleKind carries = true ↔ ∃ id row, v.state.notes ⟨vault, id⟩ = some row ∧
      isListedCard .projectMap roleKind row = true ∧ carries row.bodyText = true := by
  let cond := fun r : NoteId × NoteRow => isListedCard .projectMap roleKind r.2
  have hnodup : (((vaultRows v vault).filter cond).map Prod.fst).Nodup :=
    (nodup_vaultRows v vault).sublist (filter_sublist.map _)
  have hlen : (sortByKey (fun a b => decide (a < b)) Prod.fst
      ((vaultRows v vault).filter cond)).length < v.keys.length + 1 := by
    rw [sortByKey, length_insertionSort]
    have hfilt := length_filter_le cond (vaultRows v vault)
    have hrows : (vaultRows v vault).length ≤ v.keys.length := length_filterMap_le _ _
    omega
  have hserv : Serves 200 (fun _ => true) Prod.fst
      (sortByKey (fun a b => decide (a < b)) Prod.fst ((vaultRows v vault).filter cond))
      (listCards v vault .projectMap roleKind 200) := strictOrder_lt.serves_keysetQuery hnodup
  rw [anyCard, anyInPages_eq (by omega) hserv _ .start hlen, any_eq_true]
  constructor
  · rintro ⟨r, hr, hcarry⟩
    rw [mem_sortByKey, mem_filter, mem_vaultRows] at hr
    exact ⟨r.1, r.2, hr.1, hr.2, hcarry⟩
  rintro ⟨id, row, hrow, hlist, hcarry⟩
  refine ⟨(id, row), ?_, hcarry⟩
  rw [mem_sortByKey, mem_filter, mem_vaultRows]
  exact ⟨hrow, hlist⟩

/-! ## 2. Tracks -/

section Tracks

variable (parseUlid : String → Option NoteId)

def cardCarriesVersion (want body : String) : Bool :=
  (versionsOf (bodyLinks parseUlid body)).any fun version => identityText version = want

def cardCarriesTrack (want body : String) : Bool :=
  (tracksOf (bodyLinks parseUlid body)).any fun track => identityText track = want

def structureCardIdentity (body : String) : Option (String × String) :=
  let links := bodyLinks parseUlid body
  if (kindsOf links).any KindKind.isStructure then (versionsOf links).head? else none

variable (v : IndexedVault) (tenant : VaultId)

def isStructureTarget (want : String) : Bool :=
  [KindKind.roadmap, KindKind.backlog].any fun kind =>
    anyCard v tenant (some kind.asWire) (cardCarriesVersion parseUlid want)

inductive TrackResolution where
  | «structure»
  | workCardOnly
  | notFound
  deriving DecidableEq

def resolveTrackTarget (want : String) : TrackResolution :=
  if isStructureTarget parseUlid v tenant want then .structure
  -- only to tell the two refusals apart
  else if anyCard v tenant none (cardCarriesVersion parseUlid want) then .workCardOnly
  else .notFound

def enforceExplicitTrack (links : List ProjectMapLink) : Except ApiError Unit :=
  let cardProject := (projectsOf links).head?
  match (tracksOf links).head? with
  | none => .ok ()
  | some (project, target) =>
    if cardProject ≠ some project then
      .error (.invalidInput ("project-map: track project " ++ project.quote ++ " ≠ card project " ++
        (cardProject.getD "").quote ++
        " — a card may only attach to a structure card of its own project"))
    else
      let want := identityText (project, target)
      match resolveTrackTarget parseUlid v tenant want with
      | .structure => .ok ()
      | .workCardOnly => .error (.invalidInput ("project-map: track target " ++ want.quote ++
          " resolves to a work card, not a ROADMAP/BACKLOG — attach only to a structure card"))
      | .notFound => .error (.invalidInput ("project-map: track target " ++ want.quote ++
          " does not resolve to any structure card (non-derivable pointer — §3.3 lock; create " ++
          "the ROADMAP/BACKLOG first)"))

def structureHasChildren (want : String) : Bool :=
  anyCard v tenant none (cardCarriesTrack parseUlid want)

end Tracks

theorem enforceExplicitTrack_ok (htrack : (tracksOf links).head? = some track)
    (h : enforceExplicitTrack parseUlid v tenant links = .ok ()) : (projectsOf links).head? = some track.1 ∧
      isStructureTarget parseUlid v tenant (identityText track) = true := by
  unfold enforceExplicitTrack at h
  rw [htrack] at h
  dsimp only at h
  split at h
  · cases h
  rename_i hproj
  refine ⟨not_not.1 hproj, ?_⟩
  unfold resolveTrackTarget at h
  by_contra hnot
  rw [if_neg hnot] at h
  -- both refusals are errors
  split at h
  · rename_i hresolved
    split at hresolved <;> cases hresolved
  · cases h
  · cases h

end Gradatum.Access
