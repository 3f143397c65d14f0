import Mathlib.Data.List.Sort
import Mathlib.Data.Finset.Card

/-!
# Tables with a primary key

A `Table key` is a list of rows in the order of their insertion, no two of which have the same `key`.  What
a statement does to a table is said by what it does to `find?`.
-/

namespace Reasoning

open List

/-- A table whose rows have pairwise different primary keys. -/
structure Table {κ ρ : Type} (key : ρ → κ) where
  rows : List ρ
  nodup : (rows.map key).Nodup

namespace Table

variable {κ ρ : Type} {key : ρ → κ}

/-! ## 1. The statements -/

def empty : Table key := ⟨[], nodup_nil⟩

/-- `SELECT … WHERE p`, in the order of insertion. -/
def select (t : Table key) (p : ρ → Bool) : List ρ := t.rows.filter p

/-- `SELECT … WHERE p ORDER BY r LIMIT 1`.  Rows that `r` does not separate stay in the order of
their insertion. -/
def selectFirst (t : Table key) (p : ρ → Bool) (r : ρ → ρ → Prop) [DecidableRel r] : Option ρ :=
  ((t.select p).insertionSort r).head?

/-- `UPDATE … SET f WHERE p`, for an `f` that leaves the primary key alone. -/
def updateWhere (t : Table key) (p : ρ → Bool) (f : ρ → ρ)
    (hf : ∀ r, key (f r) = key r := by intro r; rfl) : Table key where
  rows := t.rows.map fun r => if p r then f r else r
  nodup := by
    have hkey : (key ∘ fun r => if p r then f r else r) = key := by
      funext r
      simp only [Function.comp_apply]
      split
      · exact hf r
      · rfl
    rw [List.map_map, hkey]
    exact t.nodup

/-- `DELETE … WHERE p`. -/
def deleteWhere (t : Table key) (p : ρ → Bool) : Table key where
  rows := t.rows.filter fun r => !p r
  nodup := t.nodup.sublist (filter_sublist.map key)

section Keyed

variable [DecidableEq κ]

def find? (t : Table key) (k : κ) : Option ρ := t.rows.find? fun r => key r = k

/-- `INSERT`: `none` when the primary key is taken. -/
def insert (t : Table key) (r : ρ) : Option (Table key) :=
  if h : key r ∈ t.rows.map key then none
  else some
    { rows := t.rows ++ [r]
      nodup := by
        rw [map_append, map_singleton]
        exact t.nodup.append (nodup_singleton _) (by simpa using h) }

variable {t : Table key}

theorem find?_eq_some_iff : t.find? k = some r ↔ r ∈ t.rows ∧ key r = k := by
  constructor
  · intro h
    exact ⟨mem_of_find?_eq_some h, by simpa using find?_some h⟩
  rintro ⟨hmem, rfl⟩
  cases hfind : t.find? (key r) with
  | none =>
    have := find?_eq_none.1 hfind r hmem
    simp at this
  | some r' =>
    have hkey : key r' = key r := by simpa using find?_some hfind
    have hmem' : r' ∈ t.rows := mem_of_find?_eq_some hfind
    rw [inj_on_of_nodup_map t.nodup hmem' hmem hkey]

theorem key_of_find? (h : t.find? k = some r) : key r = k :=
  (find?_eq_some_iff.1 h).2

theorem find?_of_mem (h : r ∈ t.rows) : t.find? (key r) = some r :=
  find?_eq_some_iff.2 ⟨h, rfl⟩

/-! ## 2. What each statement does to a row -/

/-- An `UPDATE` acts on every row by itself. -/
theorem find?_updateWhere (t : Table key) (p : ρ → Bool) (f : ρ → ρ)
    (hf : ∀ r, key (f r) = key r) (k : κ) :
    (t.updateWhere p f hf).find? k = (t.find? k).map fun r => if p r then f r else r := by
  have hkey : ∀ r, key (if p r then f r else r) = key r := by
    intro r
    split
    · exact hf r
    · rfl
  simp only [find?, updateWhere, find?_map, Function.comp_def, hkey]

theorem find?_insert (h : t.insert r = some t') (k : κ) :
    t'.find? k = if k = key r then some r else t.find? k := by
  unfold insert at h
  split at h
  · cases h
  rename_i hnew
  cases h
  simp only [find?, find?_append]
  by_cases hk : k = key r
  · have hnone : t.rows.find? (fun r => key r = k) = none := by
      rw [find?_eq_none]
      intro r' hr' hkey
      exact hnew (mem_map.2 ⟨r', hr', by simpa [hk] using hkey⟩)
    rw [hnone, if_pos hk]
    simp [hk]
  · simp [hk, Ne.symm hk]

theorem insert_eq_none_iff : t.insert r = none ↔ ∃ r', t.find? (key r) = some r' := by
  unfold insert
  split
  · rename_i h
    obtain ⟨r', hr', hkey⟩ := mem_map.1 h
    simp only [true_iff]
    exact ⟨r', find?_eq_some_iff.2 ⟨hr', hkey⟩⟩
  · rename_i h
    simp only [reduceCtorEq, false_iff, not_exists]
    intro r' hr'
    obtain ⟨hmem, hkey⟩ := find?_eq_some_iff.1 hr'
    exact h (mem_map.2 ⟨r', hmem, hkey⟩)

theorem find?_deleteWhere (t : Table key) (p : ρ → Bool) (k : κ) :
    (t.deleteWhere p).find? k = (t.find? k).filter fun r => !p r := by
  ext r
  rw [Option.filter_eq_some_iff, find?_eq_some_iff, find?_eq_some_iff]
  simp only [deleteWhere, mem_filter]
  tauto

end Keyed

/-! ## 3. Queries -/

/-- An UPDATE after which a row is not selected any more selects no other row. -/
theorem select_updateWhere_sublist (t : Table key) (p : ρ → Bool) (hkey : ∀ r, key (f r) = key r)
    (hf : ∀ r, q (f r) = false) : ((t.updateWhere p f hkey).select q).Sublist (t.select q) := by
  simp only [select, updateWhere]
  generalize t.rows = rows
  induction rows with
  | nil => exact .slnil
  | cons r rows ih =>
    by_cases hp : p r
    · rw [map_cons, if_pos hp, filter_cons_of_neg (by simp [hf])]
      exact ih.trans ((sublist_cons_self r rows).filter q)
    rw [map_cons, if_neg hp]
    by_cases hq : q r = true
    · rw [filter_cons_of_pos hq, filter_cons_of_pos hq]
      exact ih.cons_cons r
    · rw [filter_cons_of_neg hq, filter_cons_of_neg hq]
      exact ih

theorem selectFirst_some {t : Table key} [DecidableRel r] (h : t.selectFirst p r = some a) :
    a ∈ t.rows ∧ p a = true := by
  have hmem : a ∈ (t.select p).insertionSort r := mem_of_mem_head? h
  rw [mem_insertionSort] at hmem
  exact mem_filter.1 hmem

theorem selectFirst_eq_none_iff {t : Table key} [DecidableRel r] :
    t.selectFirst p r = none ↔ ∀ a ∈ t.rows, p a = false := by
  rw [selectFirst, head?_eq_none_iff, ← length_eq_zero_iff, length_insertionSort,
    length_eq_zero_iff, select, filter_eq_nil_iff]
  simp

/-- `SELECT COUNT(*) … WHERE key IN ks AND p` reaches the length of the list `ks` just when the
list has no repeats and each of its entries is the key of a row that meets `p`. -/
theorem length_select_mem_eq_iff [DecidableEq κ] (t : Table key) (ks : List κ) (p : ρ → Bool) :
    (t.select fun r => decide (key r ∈ ks) && p r).length = ks.length ↔
      ks.Nodup ∧ ∀ k ∈ ks, ∃ r, t.find? k = some r ∧ p r = true := by
  set hits := t.select fun r => decide (key r ∈ ks) && p r with hhits
  have hnodup : (hits.map key).Nodup := t.nodup.sublist (filter_sublist.map key)
  have hsub : hits.map key ⊆ ks := by
    intro k hk
    obtain ⟨r, hr, rfl⟩ := mem_map.1 hk
    have := (mem_filter.1 hr).2
    simp only [Bool.and_eq_true, decide_eq_true_eq] at this
    exact this.1
  have hmem : ∀ k, k ∈ hits.map key ↔ k ∈ ks ∧ ∃ r, t.find? k = some r ∧ p r = true := by
    intro k
    simp only [hhits, select, mem_map, mem_filter, Bool.and_eq_true, decide_eq_true_eq,
      find?_eq_some_iff]
    constructor
    · rintro ⟨r, ⟨hr, hks, hp⟩, rfl⟩
      exact ⟨hks, r, ⟨hr, rfl⟩, hp⟩
    · rintro ⟨hks, r, ⟨hr, rfl⟩, hp⟩
      exact ⟨r, ⟨hr, hks, hp⟩, rfl⟩
  have hleng : hits.length = (hits.map key).length := (length_map key).symm
  rw [hleng]
  constructor
  · intro hlen
    -- a duplicate-free sublist as long as the whole is a permutation of it
    have hperm : (hits.map key).Perm ks :=
      (hnodup.subperm hsub).perm_of_length_le hlen.ge
    exact ⟨hperm.nodup_iff.1 hnodup, fun k hk => ((hmem k).1 (hperm.mem_iff.2 hk)).2⟩
  · rintro ⟨hks, hall⟩
    have hperm : (hits.map key).Perm ks :=
      (perm_ext_iff_of_nodup hnodup hks).2 fun k =>
        ⟨fun hk => hsub hk, fun hk => (hmem k).2 ⟨hk, hall k hk⟩⟩
    exact hperm.length_eq

end Table

theorem lookup_eq_some_iff [BEq κ] [LawfulBEq κ] {pairs : List (κ × β)}
    (hnodup : (pairs.map Prod.fst).Nodup) : pairs.lookup k = some b ↔ (k, b) ∈ pairs := by
  induction pairs with
  | nil => simp
  | cons p pairs ih =>
    obtain ⟨key, b'⟩ := p
    rw [map_cons, nodup_cons] at hnodup
    rw [lookup_cons, mem_cons]
    by_cases heq : k = key
    · subst heq
      have hnot : (k, b) ∉ pairs := fun hmem => hnodup.1 (mem_map.2 ⟨_, hmem, rfl⟩)
      simp only [beq_self_eq_true, hnot, or_false, Prod.mk.injEq, true_and]
      exact ⟨fun h => (Option.some.inj h).symm, fun h => congrArg some h.symm⟩
    · simp only [beq_eq_false_iff_ne.2 heq, Prod.mk.injEq, heq, false_and, false_or]
      exact ih hnodup.2

end Reasoning
