import Gradatum.Reasoning.Redact
import Mathlib.Data.List.Chain

/-!
# Windows over a body

A body that is too long for one call of a detector is cut into overlapping windows; every short piece of it
lies within one of them.
-/

open Reasoning

namespace Gradatum.Notes

open List Nat

structure WindowPlan where
  maxInputBytes : Nat
  overlapBytes : Nat

section Windows

variable (body : String)

def byteLen : Nat := extent Char.utf8Size body.toList

def isCharBoundary (n : Nat) : Bool := isBoundary Char.utf8Size n body.toList

def cutBack (start : Nat) : Nat → Nat
  | 0 => 0
  | stop + 1 => if start < stop + 1 ∧ ¬ isCharBoundary body (stop + 1) then cutBack start stop else stop + 1

def cutForward (stop next : Nat) : Nat :=
  if next < stop ∧ ¬ isCharBoundary body next then cutForward stop (next + 1) else next
termination_by stop - next

theorem le_cutForward {next : Nat} : next ≤ cutForward body stop next := by
  fun_induction cutForward body stop next with
  | case1 next _ ih => omega
  | case2 => exact le_refl _

theorem cutForward_spec {next : Nat} (hle : next ≤ stop) (hstop : isCharBoundary body stop) :
    cutForward body stop next ≤ stop ∧ isCharBoundary body (cutForward body stop next) ∧
      ∀ m, next ≤ m → isCharBoundary body m → cutForward body stop next ≤ m := by
  fun_induction cutForward body stop next with
  | case1 next hcut ih =>
    obtain ⟨hto, hbound, hleast⟩ := ih hcut.1
    refine ⟨hto, hbound, fun m hm hm' => hleast m (lt_of_le_of_ne hm ?_) hm'⟩
    rintro rfl
    exact hcut.2 hm'
  | case2 next hcut =>
    refine ⟨hle, ?_, fun m hm _ => hm⟩
    rcases lt_or_eq_of_le hle with hlt | rfl
    · exact Decidable.of_not_not fun hnot => hcut ⟨hlt, hnot⟩
    · exact hstop

theorem cutBack_spec (hle : start ≤ stop) (hstart : isCharBoundary body start) :
    cutBack body start stop ≤ stop ∧ isCharBoundary body (cutBack body start stop) ∧
      ∀ m, m ≤ stop → isCharBoundary body m → m ≤ cutBack body start stop := by
  induction stop with
  | zero =>
    obtain rfl : start = 0 := le_zero.1 hle
    exact ⟨le_refl _, hstart, fun m hm _ => hm⟩
  | succ stop ih =>
    rw [cutBack]
    split
    · rename_i hcut
      obtain ⟨hto, hbound, hlast⟩ := ih (le_of_lt_succ hcut.1)
      refine ⟨le_succ_of_le hto, hbound, fun m hm hm' => hlast m ?_ hm'⟩
      refine le_of_lt_succ (lt_of_le_of_ne hm ?_)
      rintro rfl
      exact hcut.2 hm'
    · rename_i hcut
      refine ⟨le_refl _, ?_, fun m hm _ => hm⟩
      rcases lt_or_eq_of_le hle with hlt | rfl
      · exact Decidable.of_not_not fun hnot => hcut ⟨hlt, hnot⟩
      · exact hstart

theorem isCharBoundary_extent (hsplit : body.toList = pre ++ post) :
    isCharBoundary body (extent Char.utf8Size pre) := by
  rw [isCharBoundary, isBoundary, hsplit, takeTo_extent Char.utf8Size_pos]
  exact decide_eq_true rfl

/-- No character is wider than four bytes. -/
theorem exists_isCharBoundary (hle : n ≤ byteLen body) : ∃ m, isCharBoundary body m ∧ m ≤ n ∧ n ≤ m + 3 := by
  refine ⟨extent Char.utf8Size (takeTo Char.utf8Size n body.toList),
    isCharBoundary_extent body (takeTo_append_dropTo _ n _).symm, ?_⟩
  unfold byteLen at hle
  generalize body.toList = l at hle
  induction l generalizing n with
  | nil => exact ⟨zero_le _, le_add_right_of_le hle⟩
  | cons c l ih =>
    have hwidth := c.utf8Size_le_four
    rw [extent_cons] at hle
    rw [takeTo]
    split
    · obtain ⟨hlow, hhigh⟩ := ih (n := n - c.utf8Size) (by omega)
      rw [extent_cons]
      omega
    · rw [extent_nil]
      omega

namespace WindowPlan

variable (plan : WindowPlan) (start : Nat)

def ceiling : Nat := max plan.maxInputBytes 4

def windowEnd : Nat := cutBack body start (start + min (byteLen body - start) plan.ceiling)

def nextStart (stop : Nat) : Nat :=
  cutForward body stop (if stop - plan.overlapBytes ≤ start then start + 1 else stop - plan.overlapBytes)

theorem lt_nextStart (stop : Nat) : start < plan.nextStart body start stop := by
  refine lt_of_lt_of_le ?_ (le_cutForward body)
  split <;> omega

/-- The loop of `windows`; a slice of the body is its two offsets. -/
def windowsFrom (start : Nat) : List (Nat × Nat) :=
  if start < byteLen body then
    let stop := plan.windowEnd body start
    (start, stop) :: if stop = byteLen body then [] else windowsFrom (plan.nextStart body start stop)
  else []
termination_by byteLen body - start
decreasing_by
  have hlt := plan.lt_nextStart body start (plan.windowEnd body start)
  omega

def windows : List (Nat × Nat) :=
  if plan.maxInputBytes = 0 then [] else if body = "" then [(0, 0)] else plan.windowsFrom body 0

structure Covers (windows : List (Nat × Nat)) : Prop where
  first : windows.head?.map Prod.fst = some start
  last : windows.getLast?.map Prod.snd = some (byteLen body)
  noGap : windows.IsChain fun w w' => w.1 < w'.1 ∧ w'.1 ≤ w.2
  cuts : ∀ w ∈ windows, w.1 ≤ w.2 ∧ isCharBoundary body w.1 ∧ isCharBoundary body w.2
  size : ∀ w ∈ windows, w.2 - w.1 ≤ max 4 plan.maxInputBytes
  short : ∀ a b, start ≤ a → a ≤ b → b ≤ byteLen body → isCharBoundary body a → isCharBoundary body b →
    b - a ≤ min plan.overlapBytes (max 4 plan.maxInputBytes - 3) → ∃ w ∈ windows, w.1 ≤ a ∧ b ≤ w.2

variable {start}

section

variable (hlt : start < byteLen body) (hstart : isCharBoundary body start)

include hlt hstart

theorem windowEnd_spec :
    start < plan.windowEnd body start ∧ plan.windowEnd body start ≤ start + max 4 plan.maxInputBytes ∧
      isCharBoundary body (plan.windowEnd body start) ∧ (plan.windowEnd body start = byteLen body ∨
        plan.windowEnd body start < byteLen body ∧
          start + max 4 plan.maxInputBytes ≤ plan.windowEnd body start + 3) := by
  unfold windowEnd ceiling
  obtain ⟨hto, hbound, hlast⟩ := cutBack_spec body
    (le_add_right start (min (byteLen body - start) (max plan.maxInputBytes 4))) hstart
  obtain ⟨m, hm, hle, hnear⟩ := exists_isCharBoundary body
    (show start + min (byteLen body - start) (max plan.maxInputBytes 4) ≤ byteLen body by omega)
  have hsome := hlast m hle hm
  have hwhole : byteLen body ≤ start + max plan.maxInputBytes 4 → byteLen body ≤ cutBack body start _ :=
    fun h => hlast _ (by omega) (isCharBoundary_extent body (append_nil _).symm)
  generalize cutBack body start _ = stop at *
  exact ⟨by omega, by omega, hbound, by omega⟩

/-- A short piece that begins in a window, before the next one, ends in it. -/
theorem le_windowEnd (hle : start ≤ a)
    (ha : isCharBoundary body a) (hnext : a < plan.nextStart body start (plan.windowEnd body start))
    (hb : b - a ≤ min plan.overlapBytes (max 4 plan.maxInputBytes - 3)) (hlen : b ≤ byteLen body) :
    b ≤ plan.windowEnd body start := by
  obtain ⟨hpos, -, hstop, hfull⟩ := plan.windowEnd_spec body hlt hstart
  unfold nextStart at hnext
  generalize plan.windowEnd body start = stop at *
  split at hnext
  · -- the cursor only moves on by one character
    have hfirst := (cutForward_spec body (succ_le_of_lt hpos) hstop).2.2 a
    have hsame : ¬ start + 1 ≤ a := fun h => Nat.not_le_of_lt hnext (hfirst h ha)
    omega
  · have hleast := (cutForward_spec body (sub_le stop plan.overlapBytes) hstop).2.2 a
    have hbef : ¬ stop - plan.overlapBytes ≤ a := fun h => Nat.not_le_of_lt hnext (hleast h ha)
    omega

theorem covers_windowsFrom :
    plan.Covers body start (plan.windowsFrom body start) := by
  fun_induction windowsFrom body plan start with
  | case1 start _ stop ih =>
    obtain ⟨hpos, hsize, hstop, hfull⟩ := plan.windowEnd_spec body hlt hstart
    split
    · rename_i hend
      refine ⟨rfl, congrArg some hend, .singleton _, ?_, ?_, fun a b hle _ hb _ _ _ => ?_⟩
      · rw [forall_mem_singleton]
        exact ⟨hpos.le, hstart, hstop⟩
      · rw [forall_mem_singleton]
        exact Nat.sub_le_iff_le_add'.2 hsize
      · exact ⟨_, mem_singleton_self _, hle, hb.trans_eq hend.symm⟩
    · rename_i hend
      obtain ⟨hto, hbound, -⟩ := cutForward_spec body (show (if stop - plan.overlapBytes ≤ start then
        start + 1 else stop - plan.overlapBytes) ≤ stop by split <;> omega) hstop
      have hrest := ih (lt_of_le_of_lt hto (hfull.resolve_left hend).1) hbound
      obtain ⟨w, hw, hlast⟩ := Option.map_eq_some_iff.1 hrest.last
      refine ⟨rfl, ?_, ?_, ?_, ?_, fun a b hle hab hb ha hb' hshort => ?_⟩
      · rw [getLast?_cons, hw]
        exact congrArg some hlast
      · refine hrest.noGap.cons fun w hw => ?_
        have hfirst := hrest.first
        rw [hw] at hfirst
        rw [Option.some.inj hfirst]
        exact ⟨plan.lt_nextStart body start stop, hto⟩
      · exact forall_mem_cons.2 ⟨⟨hpos.le, hstart, hstop⟩, hrest.cuts⟩
      · exact forall_mem_cons.2 ⟨Nat.sub_le_iff_le_add'.2 hsize, hrest.size⟩
      · rcases lt_or_ge a (plan.nextStart body start stop) with hin | hlater
        · exact ⟨_, mem_cons_self, hle, plan.le_windowEnd body hlt hstart hle ha hin hshort hb⟩
        · obtain ⟨w, hw, hcover⟩ := hrest.short a b hlater hab hb ha hb' hshort
          exact ⟨w, mem_cons_of_mem _ hw, hcover⟩
  | case2 start hnot => exact absurd hlt hnot

end

theorem covers_windows (hceiling : 0 < plan.maxInputBytes) : plan.Covers body 0 (plan.windows body) := by
  rw [windows, if_neg hceiling.ne']
  split
  · rename_i hempty
    subst hempty
    refine ⟨rfl, rfl, .singleton _, ?_, ?_, fun a b hle _ hb _ _ _ => ?_⟩
    · decide
    · simp
    · exact ⟨_, mem_singleton_self _, hle, hb⟩
  · rename_i hne
    refine plan.covers_windowsFrom body (pos_of_ne_zero fun hzero => hne ?_)
      (isCharBoundary_extent body (nil_append _).symm)
    exact String.toList_eq_nil_iff.1 (eq_nil_of_extent_eq_zero Char.utf8Size_pos hzero)

/-- The end of the second window is moved back and the start of the last one on, off the euro sign. -/
theorem covers_windows_euro : (⟨6, 2⟩ : WindowPlan).windows "abcdeé€fg" = [(0, 5), (3, 7), (5, 11), (10, 12)] ∧
    (⟨6, 2⟩ : WindowPlan).Covers "abcdeé€fg" 0 ((⟨6, 2⟩ : WindowPlan).windows "abcdeé€fg") :=
  ⟨by decide +kernel, covers_windows "abcdeé€fg" ⟨6, 2⟩ (by decide)⟩

end WindowPlan

end Windows

end Gradatum.Notes
