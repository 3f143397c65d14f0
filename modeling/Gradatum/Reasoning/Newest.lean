import Mathlib.Data.List.Sort

/-!
# Entries by time stamp

A list of stamped entries, the newest first.  Sorting the stamps turns the list around, and removing the
oldest stamps leaves an initial part of it.
-/

namespace Reasoning

open List Bool

section Newest

variable {α : Type} {l : List (Int × α)}

/-- Each entry is newer than those after it. -/
def NewestFirst (l : List (Int × α)) : Prop := l.Pairwise fun a b => b.1 < a.1

theorem NewestFirst.sorted_stamps (h : NewestFirst l) :
    (l.map Prod.fst).mergeSort (· ≤ ·) = (l.map Prod.fst).reverse := by
  have hsort : ((l.map Prod.fst).reverse).Pairwise fun a b => decide (a ≤ b) = true := by
    rw [pairwise_reverse, pairwise_map]
    exact h.imp fun hlt => decide_eq_true (Int.le_of_lt hlt)
  have hmerg : ((l.map Prod.fst).mergeSort (· ≤ ·)).Pairwise fun a b => decide (a ≤ b) = true := by
    apply pairwise_mergeSort
    · intro a b c hab hbc
      simp only [decide_eq_true_eq] at hab hbc ⊢
      omega
    · intro a b
      simp only [or_eq_true, decide_eq_true_eq]
      omega
  refine List.Perm.eq_of_pairwise ?_ hmerg hsort
    ((mergeSort_perm _ _).trans (reverse_perm _).symm)
  intro a b _ _ hab hba
  simp only [decide_eq_true_eq] at hab hba
  omega

/-- Without its oldest entries the list is an initial part of itself. -/
theorem NewestFirst.filter_not_oldest (h : NewestFirst l) (kept : Nat) :
    l.filter (fun entry => !((l.map Prod.fst).reverse.take (l.length - kept)).contains entry.1) =
      l.take kept := by
  have hlater : ∀ stamp, stamp ∈ (l.map Prod.fst).reverse.take (l.length - kept) ↔
      ∃ entry ∈ l.drop kept, entry.1 = stamp := by
    intro stamp
    have hdrop : (l.map Prod.fst).length - (l.length - kept) = min kept l.length := by
      rw [length_map]
      omega
    rw [take_reverse, mem_reverse, hdrop, ← map_drop, List.mem_map]
    rcases Nat.le_total kept l.length with hle | hle
    · rw [Nat.min_eq_left hle]
    · rw [Nat.min_eq_right hle, drop_length, drop_eq_nil_of_le hle]
  generalize (l.map Prod.fst).reverse.take (l.length - kept) = removed at hlater ⊢
  rw [NewestFirst, ← take_append_drop kept l, pairwise_append] at h
  obtain ⟨-, -, hnewer⟩ := h
  have hkept : (l.take kept).filter (fun entry => !removed.contains entry.1) = l.take kept := by
    rw [filter_eq_self]
    intro entry hentry
    rw [not_eq_true', ← not_eq_true, contains_iff_mem, hlater]
    rintro ⟨older, holder, heq⟩
    have hlt := hnewer entry hentry older holder
    omega
  have hgone : (l.drop kept).filter (fun entry => !removed.contains entry.1) = [] := by
    rw [filter_eq_nil_iff]
    intro entry hentry
    rw [not_eq_true', not_eq_false, contains_iff_mem, hlater]
    exact ⟨entry, hentry, rfl⟩
  conv_lhs => rw [← take_append_drop kept l]
  rw [filter_append, hkept, hgone, append_nil]

end Newest

end Reasoning
