import Mathlib.Order.Lattice
import Mathlib.Data.List.Perm.Basic
import Gradatum.Reasoning.Run

/-!
# Numbered brackets

A sequence of marks opens, uses and closes numbered brackets.  `Brackets` scans it from the left, and
`wellBracketed_iff_scan` says that the scan decides whether it is well bracketed.
-/

namespace Reasoning

open List Option

/-! ## 1. Marks -/

inductive Mark (ι : Type)
  | opens (i : ι)
  | uses (i : ι)
  | closes (i : ι)
  deriving DecidableEq

section Brackets

variable {ι : Type} [LinearOrder ι]

def Mark.Fits (before : List (Mark ι)) : Mark ι → Prop
  | .opens i => ∀ j, .opens j ∈ before → j < i
  | .uses i => .opens i ∈ before ∧ .closes i ∉ before
  | .closes i => .opens i ∈ before ∧ .closes i ∉ before

structure WellBracketed (marks : List (Mark ι)) : Prop where
  fits : ∀ before m, before ++ [m] <+: marks → Mark.Fits before m
  closed : ∀ i, .opens i ∈ marks → .closes i ∈ marks

/-! ## 2. The scanner -/

structure Brackets (ι : Type) where
  active : List ι
  last : Option ι

namespace Brackets

def above (b : Brackets ι) (i : ι) : Bool := b.last.all (· < i)

def step (b : Brackets ι) : Mark ι → Option (Brackets ι)
  | .opens i => if b.above i then some ⟨i :: b.active, some i⟩ else none
  | .uses i => if i ∈ b.active then some b else none
  | .closes i => if i ∈ b.active then some ⟨b.active.erase i, b.last⟩ else none

def scan (b : Brackets ι) : List (Mark ι) → Option (Brackets ι)
  | [] => some b
  | m :: marks => (b.step m).bind (·.scan marks)

@[simp] theorem scan_nil (b : Brackets ι) : b.scan [] = some b := rfl

theorem scan_cons (b : Brackets ι) (m : Mark ι) (marks : List (Mark ι)) :
    b.scan (m :: marks) = (b.step m).bind (·.scan marks) := rfl

theorem scan_append (b : Brackets ι) (marks marks' : List (Mark ι)) :
    b.scan (marks ++ marks') = (b.scan marks).bind (·.scan marks') := by
  induction marks generalizing b with
  | nil => rfl
  | cons m marks ih =>
    rw [cons_append, scan_cons, scan_cons, bind_assoc]
    congr 1
    funext b'
    exact ih b'

theorem scan_closes {active : List ι} {last : Option ι} {is : List ι} (hperm : is.Perm active) :
    (Brackets.mk active last).scan (is.map .closes) = some ⟨[], last⟩ := by
  induction is generalizing active with
  | nil =>
    rw [nil_perm.1 hperm]
    rfl
  | cons i is ih =>
    have hmem : i ∈ active := hperm.subset (by simp)
    have herase : is.Perm (active.erase i) := (cons_perm_iff_perm_erase.1 hperm).2
    rw [map_cons, scan_cons, step, if_pos hmem]
    exact ih herase

/-! ## 3. The scan decides -/

/-- The scanner after `before`. -/
structure Describes (before : List (Mark ι)) (b : Brackets ι) : Prop where
  active : ∀ i, i ∈ b.active ↔ .opens i ∈ before ∧ .closes i ∉ before
  nodup : b.active.Nodup
  last : ∀ i, b.above i = true ↔ ∀ j, .opens j ∈ before → j < i
  pairs : ∀ i, .closes i ∈ before → .opens i ∈ before

theorem describes_nil : Describes ([] : List (Mark ι)) ⟨[], none⟩ where
  active i := by simp
  nodup := nodup_nil
  last i := by simp [above]
  pairs i := by simp

variable {b b' : Brackets ι}

theorem Describes.fits_iff (h : Describes before b) (m : Mark ι) :
    Mark.Fits before m ↔ (b.step m).isSome = true := by
  cases m with
  | opens i =>
    have hiff : (b.step (.opens i)).isSome = true ↔ b.above i = true := by
      simp [Brackets.step]
    exact (hiff.trans (h.last i)).symm
  | uses i =>
    have hiff : (b.step (.uses i)).isSome = true ↔ i ∈ b.active := by
      simp [Brackets.step]
    exact (hiff.trans (h.active i)).symm
  | closes i =>
    have hiff : (b.step (.closes i)).isSome = true ↔ i ∈ b.active := by
      simp [Brackets.step]
    exact (hiff.trans (h.active i)).symm

theorem Describes.step (h : Describes before b) (hstep : b.step m = some b') :
    Describes (before ++ [m]) b' := by
  cases m with
  | opens i =>
    obtain ⟨habove, ⟨⟩⟩ := ite_none_right_eq_some.1 hstep
    have hless := (h.last i).1 habove
    have hfresh : .opens i ∉ before := fun hmem => lt_irrefl i (hless i hmem)
    have hact : ∀ j, j ∈ b.active → j ≠ i := by
      rintro j hj rfl
      exact hfresh ((h.active j).1 hj).1
    constructor
    · intro j
      by_cases hj : j = i
      · subst hj
        have hnot : .closes j ∉ before := fun hmem => hfresh (h.pairs j hmem)
        simp [hnot]
      · simp [hj, h.active j]
    · exact nodup_cons.2 ⟨fun hmem => hact i hmem rfl, h.nodup⟩
    · intro j
      constructor
      · intro hj k hk
        have hij : i < j := by simpa [above] using hj
        simp only [mem_append, mem_singleton, Mark.opens.injEq] at hk
        rcases hk with hk | rfl
        · exact lt_trans (hless k hk) hij
        · exact hij
      · intro hj
        simpa [above] using hj i (by simp)
    · intro j hj
      have hj' : .closes j ∈ before := by simpa using hj
      simp [h.pairs j hj']
  | uses i =>
    obtain ⟨-, ⟨⟩⟩ := ite_none_right_eq_some.1 hstep
    exact ⟨fun j => by simp [h.active j], h.nodup, fun j => by simp [h.last j],
      fun j hj => by simp [h.pairs j (by simpa using hj)]⟩
  | closes i =>
    obtain ⟨hmem, ⟨⟩⟩ := ite_none_right_eq_some.1 hstep
    constructor
    · intro j
      by_cases hj : j = i
      · subst hj
        simp [h.nodup.mem_erase_iff]
      · simp [h.nodup.mem_erase_iff, hj, h.active j]
    · exact h.nodup.erase i
    · intro j
      have habove : (Brackets.mk (b.active.erase i) b.last).above j = b.above j := rfl
      rw [habove]
      simp [h.last j]
    · intro j hj
      simp only [mem_append, mem_singleton, Mark.closes.injEq] at hj
      rcases hj with hj | rfl
      · simp [h.pairs j hj]
      · simp [((h.active j).1 hmem).1]

theorem Describes.scan (h : Describes before b) (hscan : b.scan marks = some b') :
    Describes (before ++ marks) b' := by
  induction marks generalizing before b with
  | nil =>
    cases hscan
    simpa using h
  | cons m marks ih =>
    obtain ⟨b₁, hstep, hrest⟩ := bind_eq_some_iff.1 hscan
    simpa using ih (h.step hstep) hrest

theorem Describes.eachStep_iff (h : Describes before b) (marks : List (Mark ι)) :
    EachStep (fun before m => before ++ [m]) Mark.Fits before marks ↔ (b.scan marks).isSome = true := by
  induction marks generalizing before b with
  | nil => simp
  | cons m marks ih =>
    rw [eachStep_cons, h.fits_iff m, scan_cons]
    rcases hstep : b.step m with _ | b₁
    · simp
    · simp [ih (h.step hstep)]

end Brackets

theorem wellBracketed_iff_scan (marks : List (Mark ι)) :
    WellBracketed marks ↔ ∃ last, (Brackets.mk [] none).scan marks = some ⟨[], last⟩ := by
  have hfits : (∀ before m, before ++ [m] <+: marks → Mark.Fits before m) ↔
      ((Brackets.mk [] none).scan marks).isSome = true := by
    rw [← Brackets.describes_nil.eachStep_iff marks, eachStep_iff_forall_append]
    simp only [run_snoc, nil_append]
  constructor
  · intro h
    obtain ⟨⟨active, last⟩, hscan⟩ := isSome_iff_exists.1 (hfits.1 h.fits)
    have hdescribes := Brackets.describes_nil.scan hscan
    have hempty : active = [] := by
      rw [eq_nil_iff_forall_not_mem]
      intro i hi
      obtain ⟨hopen, hnot⟩ := (hdescribes.active i).1 hi
      exact hnot (h.closed i hopen)
    subst hempty
    exact ⟨last, hscan⟩
  · rintro ⟨last, hscan⟩
    refine ⟨hfits.2 (by rw [hscan]; rfl), fun i hi => ?_⟩
    by_contra hnot
    have hmem := ((Brackets.describes_nil.scan hscan).active i).2 ⟨hi, hnot⟩
    cases hmem

end Brackets

end Reasoning
