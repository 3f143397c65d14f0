import Gradatum.Access.Cards
import Gradatum.ProjectMap.Structure
import Gradatum.Reasoning.Reference

/-!
# The board

The cards of the section `project-map` that are not downgraded, as the index has them.  A structure card
provides its version; a work card needs the one it tracks, and an OBSOLETE roadmap the one that carries on
for it, each within its vault.
-/

open Reasoning

namespace Gradatum.Access

open Notes ProjectMap List

/-! ## 1. Cards -/

structure Card where
  body : String
  roleKind : Option String
  deriving DecidableEq

abbrev Board := NoteKey → Option Card

def cardOf (row : NoteRow) : Option Card :=
  if isListedCard .projectMap none row then some ⟨row.bodyText, row.roleKind⟩ else none

def boardOf (s : VaultState) : Board := fun key => (s.notes key).bind cardOf

structure StructureKey where
  vault : VaultId
  identity : String × String
  deriving DecidableEq

section Board

variable (parseUlid : String → Option NoteId)

def CardProvides (key : NoteKey) (card : Card) (i : StructureKey) : Prop :=
  key.vault = i.vault ∧ isStructureBody parseUlid card.body = true ∧
    i.identity.1 ∈ projectsOf (structuralLinks parseUlid card.body) ∧
    i.identity ∈ versionsOf (structuralLinks parseUlid card.body)

def CardTracks (key : NoteKey) (card : Card) (i : StructureKey) : Prop :=
  key.vault = i.vault ∧ isWorkBody parseUlid card.body = true ∧
    i.identity ∈ tracksOf (structuralLinks parseUlid card.body)

/-- The card is attached to, or carried on by, the structure card. -/
def CardNeeds (key : NoteKey) (card : Card) (i : StructureKey) : Prop :=
  CardTracks parseUlid key card i ∨ key.vault = i.vault ∧ carrierOf parseUlid card.body = some i.identity

structure SoundCard (card : Card) : Prop where
  body : SoundBody parseUlid card.body
  roleKind : card.roleKind = (rolesOfBody parseUlid card.body).kind

def SoundBoard (board : Board) : Prop := ∀ key card, board key = some card → SoundCard parseUlid card

variable {parseUlid}

/-! ## 2. What the index answers -/

theorem anyCard_iff_board :
    anyCard v vault roleKind carries = true ↔ ∃ id card, boardOf v.state ⟨vault, id⟩ = some card ∧
      roleKind.all (card.roleKind = some ·) = true ∧ carries card.body = true := by
  rw [anyCard_iff]
  have hliste : ∀ row, isListedCard .projectMap roleKind row = true ↔
      isListedCard .projectMap none row = true ∧ roleKind.all (row.roleKind = some ·) = true := by
    intro row
    simp only [isListedCard, Option.all_none, Bool.and_true, Bool.and_eq_true]
  constructor
  · rintro ⟨id, row, hrow, hlist, hcarry⟩
    obtain ⟨hcard, hkind⟩ := (hliste row).1 hlist
    exact ⟨id, ⟨row.bodyText, row.roleKind⟩, by rw [boardOf, hrow, Option.bind_some, cardOf, if_pos hcard],
      hkind, hcarry⟩
  · rintro ⟨id, card, hboard, hkind, hcarry⟩
    rw [boardOf, Option.bind_eq_some_iff] at hboard
    obtain ⟨row, hrow, hcard⟩ := hboard
    unfold cardOf at hcard
    split at hcard
    · rename_i hcard'
      cases hcard
      exact ⟨id, row, hrow, (hliste row).2 ⟨hcard', hkind⟩, hcarry⟩
    · cases hcard

theorem KindKind.asWire_inj {kind kind' : KindKind} (h : kind.asWire = kind'.asWire) : kind = kind' := by
  revert h
  cases kind <;> cases kind' <;> decide

theorem provided_of_isStructureTarget (hpair : IsPair track)
    (hsound : SoundBoard parseUlid (boardOf v.state))
    (h : isStructureTarget parseUlid v vault (identityText track) = true) :
    Provided (CardProvides parseUlid) (boardOf v.state) ⟨vault, track⟩ := by
  rw [isStructureTarget, any_eq_true] at h
  obtain ⟨kind, hkind, hfound⟩ := h
  obtain ⟨id, card, hcard, hrole, hcarry⟩ := anyCard_iff_board.1 hfound
  obtain ⟨hbody, hroleKind⟩ := hsound _ _ hcard
  obtain ⟨kind', project, hvalid⟩ := validateCardBody_ok hbody.valid
  -- the kind in the index is that of the body
  have hstruct : isStructureBody parseUlid card.body = true := by
    rw [Option.all_some, decide_eq_true_eq, hroleKind, rolesOfBody] at hrole
    rw [hvalid.kinds] at hrole
    have hsame : kind' = kind := KindKind.asWire_inj (Option.some.inj hrole)
    rw [isStructureBody, hvalid.kinds, hsame]
    simp only [mem_cons, not_mem_nil, or_false] at hkind
    rcases hkind with rfl | rfl <;> rfl
  obtain ⟨version, facts, hprojs, hvers, -⟩ := structureFacts_of_valid hbody.valid hstruct
  rw [cardCarriesVersion, (plainLinks_iff.1 hbody.plain).2.1, hvers, any_cons, any_nil,
    Bool.or_false, decide_eq_true_eq] at hcarry
  have htrack := identityText_inj hpair hcarry.symm
  refine ⟨_, card, hcard, rfl, hstruct, ?_, ?_⟩
  · rw [hprojs, htrack]
    exact mem_cons_self
  · rw [hvers, htrack]
    exact mem_cons_self

variable (parseUlid) in
/-- Whether a card of the vault is carried on by the one with this version. -/
def isCarrier (v : IndexedVault) (vault : VaultId) (version : String × String) : Bool :=
  anyCard v vault none fun body => carrierOf parseUlid body = some version

theorem not_pointed_of_structureHasChildren (hsound : SoundBoard parseUlid (boardOf v.state))
    (hchil : structureHasChildren parseUlid v vault (identityText version) = false)
    (hcarrier : isCarrier parseUlid v vault version = false) :
    ¬ Pointed (CardNeeds parseUlid) (boardOf v.state) ⟨vault, version⟩ := by
  rw [Bool.eq_false_iff] at hchil hcarrier
  rintro ⟨⟨w, id⟩, card, hcard, ⟨hvault, -, htrack⟩ | ⟨hvault, hcarry⟩⟩
  · cases (hvault : w = vault)
    apply hchil
    refine anyCard_iff_board.2 ⟨id, card, hcard, rfl, ?_⟩
    rw [cardCarriesTrack, (plainLinks_iff.1 (hsound _ _ hcard).body.plain).1, any_eq_true]
    exact ⟨version, htrack, decide_eq_true rfl⟩
  · cases (hvault : w = vault)
    exact hcarrier (anyCard_iff_board.2 ⟨id, card, hcard, rfl, decide_eq_true hcarry⟩)

end Board

end Gradatum.Access
