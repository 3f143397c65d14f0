import Mathlib.Data.List.Sort

/-!
# The order of a stable sort

Of two elements of a sorted list the one with the smaller key comes first, and where the keys are equal the
one that came first before the sort.
-/

open scoped List

namespace Reasoning

open List

section StableOrder

variable {α κ : Type}

theorem pair_sublist_or (ha : a ∈ l) (hb : b ∈ l) (hne : a ≠ b) : [a, b] <+ l ∨ [b, a] <+ l := by
  induction l with
  | nil => cases ha
  | cons x l ih =>
    rcases mem_cons.1 ha with rfl | ha'
    · rcases mem_cons.1 hb with rfl | hb'
      · exact absurd rfl hne
      · exact .inl ((singleton_sublist.2 hb').cons_cons a)
    · rcases mem_cons.1 hb with rfl | hb'
      · exact .inr ((singleton_sublist.2 ha').cons_cons b)
      · exact (ih ha' hb').imp (·.cons x) (·.cons x)

theorem not_pair_sublist_swap (hnodup : l.Nodup) (hab : [a, b] <+ l) : ¬[b, a] <+ l := by
  induction l with
  | nil => cases hab
  | cons x l ih =>
    obtain ⟨hx, hnodup⟩ := nodup_cons.1 hnodup
    intro hba
    rw [cons_sublist_cons'] at hab hba
    rcases hab with hab | ⟨rfl, hb⟩
    · rcases hba with hba | ⟨rfl, -⟩
      · exact ih hnodup hab hba
      · exact hx (hab.subset (by simp))
    · rcases hba with hba | ⟨rfl, -⟩
      · exact hx (hba.subset (by simp))
      · exact hx (singleton_sublist.1 hb)

variable [LinearOrder κ] {key : α → κ}

theorem pairwise_insertionSort_key (l : List α) :
    (l.insertionSort fun x y => key x ≤ key y).Pairwise fun x y => key x ≤ key y := by
  have : Std.Total fun x y : α => key x ≤ key y := ⟨fun x y => le_total _ _⟩
  have : IsTrans α fun x y => key x ≤ key y := ⟨fun _ _ _ h h' => h.trans h'⟩
  exact pairwise_insertionSort _ l

theorem pair_sublist_insertionSort_iff (hnodup : l.Nodup) (ha : a ∈ l) (hb : b ∈ l) (hne : a ≠ b) :
    [a, b] <+ l.insertionSort (fun x y => key x ≤ key y) ↔
      key a < key b ∨ key a = key b ∧ [a, b] <+ l := by
  have : Std.Total fun x y : α => key x ≤ key y := ⟨fun x y => le_total _ _⟩
  have : IsTrans α fun x y => key x ≤ key y := ⟨fun _ _ _ h h' => h.trans h'⟩
  have hsort : ∀ {x y}, [x, y] <+ l.insertionSort (fun x y => key x ≤ key y) → key x ≤ key y := by
    intro x y h
    have hpair : [x, y].Pairwise fun x y => key x ≤ key y := (pairwise_insertionSort_key l).sublist h
    exact (pairwise_cons.1 hpair).1 y (by simp)
  have hnod' : (l.insertionSort fun x y => key x ≤ key y).Nodup :=
    (perm_insertionSort _ l).nodup_iff.2 hnodup
  constructor
  · intro hab
    rcases (hsort hab).lt_or_eq with hlt | heq
    · exact .inl hlt
    · refine .inr ⟨heq, (pair_sublist_or ha hb hne).resolve_right fun hba => ?_⟩
      exact not_pair_sublist_swap hnod' hab (pair_sublist_insertionSort heq.ge hba)
  · rintro (hlt | ⟨heq, hab⟩)
    · refine (pair_sublist_or (mem_insertionSort _ |>.2 ha) (mem_insertionSort _ |>.2 hb)
        hne).resolve_right fun hba => ?_
      exact absurd (hsort hba) (not_le.2 hlt)
    · exact pair_sublist_insertionSort heq.le hab

/-- The order is the same under names that are not given twice. -/
theorem pair_sublist_map_iff (hnodup : (l.map f).Nodup) (ha : a ∈ l) (hb : b ∈ l) :
    [f a, f b] <+ l.map f ↔ [a, b] <+ l := by
  refine ⟨fun h => ?_, fun h => h.map f⟩
  obtain ⟨l', hl', heq⟩ := sublist_map_iff.1 h
  obtain ⟨x, rest, rfl, hx, hrest⟩ := map_eq_cons_iff.1 heq.symm
  obtain ⟨y, rest, rfl, hy, hnil⟩ := map_eq_cons_iff.1 hrest
  rw [map_eq_nil_iff.1 hnil] at hl'
  have hxa : x = a := inj_on_of_nodup_map hnodup (hl'.subset (by simp)) ha hx
  have hyb : y = b := inj_on_of_nodup_map hnodup (hl'.subset (by simp)) hb hy
  rw [← hxa, ← hyb]
  exact hl'

end StableOrder

end Reasoning
