import Mathlib.Algebra.Order.Field.Basic
import Mathlib.Tactic.Linarith
import Gradatum.Notes.Query
import Gradatum.Reasoning.StableOrder
import Gradatum.Reasoning.Table

/-!
# Penalties on full-text scores

The searches of the index multiply the score of a forgotten note by a factor that falls with time, and one of
them that of a downgraded note by ten.  FTS5 scores are negative, so the factor of ten moves a note up.
-/

open Reasoning
open scoped List

namespace Gradatum.Search

open List

open Notes (VaultId NoteId RowStatus likeStart)

/-! ## 1. The rows -/

structure FtsRow (K : Type) where
  vaultId : VaultId
  id : NoteId
  bm25 : K
  «section» : String
  locus : Option String
  status : RowStatus
  forgotten : Bool
  forgottenAt : Option Int
  deriving DecidableEq

/-- The rows that match a query, under their primary key.  Equal scores are served in the order of the
rows.  FTS5 gives a match a negative score. -/
structure FtsMatches (K : Type) [Zero K] [LT K] where
  table : Table fun r : FtsRow K => (r.vaultId, r.id)
  negative : ∀ r ∈ table.rows, r.bm25 < 0

structure FtsHit (K : Type) where
  noteId : NoteId
  score : K
  status : RowStatus

section Searches

variable {K : Type} [Field K] [LinearOrder K]

/-- `WHERE .. ORDER BY score ASC LIMIT ..`. -/
def servedRows (found : FtsMatches K) (vault : VaultId) (limit : Nat) (includeDowngraded : Bool)
    (sec locus : Option String) : List (FtsRow K) :=
  ((found.table.select fun r => r.vaultId = vault && (includeDowngraded || r.status ≠ .downgraded) &&
    sec.all (r.section = ·) && locus.all fun start => r.locus.any (likeStart start)).insertionSort
      fun a b => a.bm25 ≤ b.bm25).take limit

/-- Days since the mark; a mark without a time, or from the future, is of now. -/
def elapsedDays (nowMs : Int) (forgottenAt : Option Int) : K :=
  max ((forgottenAt.map fun atMs => ((nowMs - atMs : Int) : K) / 86400000).getD 0) 0

def decay (halfPow : K → K) (nowMs : Int) (r : FtsRow K) : K := halfPow (elapsedDays nowMs r.forgottenAt)

def penalizedScore (halfPow : K → K) (nowMs : Int) (r : FtsRow K) : K :=
  if r.forgotten then r.bm25 * decay halfPow nowMs r
  else if r.status = .downgraded then r.bm25 * 10
  else r.bm25

def decayedScore (halfPow : K → K) (nowMs : Int) (r : FtsRow K) : K :=
  if r.forgotten then r.bm25 * decay halfPow nowMs r else r.bm25

def rescored (score : FtsRow K → K) (rows : List (FtsRow K)) : List (FtsHit K) :=
  (rows.insertionSort fun a b => score a ≤ score b).map fun r => ⟨r.id, score r, r.status⟩

variable (halfPow : K → K) (nowMs : Int) (found : FtsMatches K) (vault : VaultId) (limit : Nat)
  (includeDowngraded : Bool)

def searchFtsScored : List (FtsHit K) :=
  rescored (penalizedScore halfPow nowMs) (servedRows found vault limit includeDowngraded none none)

def searchFtsScoredFiltered (sec locus : Option String) : List (FtsHit K) :=
  rescored (decayedScore halfPow nowMs) (servedRows found vault limit includeDowngraded sec locus)

end Searches

/-! ## 2. The property -/

section Property

variable {K : Type} [Field K] [LinearOrder K]

def FtsRow.Penalized (r : FtsRow K) : Prop := r.status = .downgraded ∨ r.forgotten = true

def FtsRow.Live (r : FtsRow K) : Prop := r.status = .of .live ∧ r.forgotten = false

/-- No row with a penalty comes before a live one that matches as well or better. -/
def OnlyDemotes (rows : List (FtsRow K)) (hits : List (FtsHit K)) : Prop :=
  ∀ a ∈ rows, ∀ b ∈ rows, a.Penalized → b.Live → b.bm25 ≤ a.bm25 → ¬[a.id, b.id] <+ hits.map FtsHit.noteId

/-- For `search_fts_scored`: a live row that matches as well as a downgraded one, or better, does so by a
factor of ten, and a forgotten row that is served before a live one has decayed. -/
def DemotesScored (halfPow : K → K) (nowMs : Int) (rows : List (FtsRow K)) : Prop :=
  ∀ a ∈ rows, ∀ b ∈ rows, b.Live → b.bm25 ≤ a.bm25 →
    (a.status = .downgraded → a.forgotten = false → b.bm25 ≤ a.bm25 * 10) ∧
      (a.forgotten = true → [a, b] <+ rows → decay halfPow nowMs a < 1)

/-- For `search_fts_scored_filtered`: only a forgotten row that has decayed is served before a live one
that matches as well. -/
def DemotesFiltered (halfPow : K → K) (nowMs : Int) (rows : List (FtsRow K)) : Prop :=
  ∀ a ∈ rows, ∀ b ∈ rows, a.Penalized → b.Live → b.bm25 ≤ a.bm25 → [a, b] <+ rows →
    a.forgotten = true ∧ decay halfPow nowMs a < 1

end Property

/-! ## 3. The order of the hits -/

section Order

variable {K : Type}

theorem ne_of_penalized_live {a b : FtsRow K} (ha : a.Penalized) (hb : b.Live) : a ≠ b := by
  rintro rfl
  rcases ha with hstat | hforg
  · rw [hb.1] at hstat
    cases hstat
  · rw [hb.2] at hforg
    cases hforg

variable [LinearOrder K]

theorem pair_sublist_rescored_iff (score : FtsRow K → K)
    (hnodup : (rows.map FtsRow.id).Nodup) (ha : a ∈ rows) (hb : b ∈ rows) (hne : a ≠ b) :
    [a.id, b.id] <+ (rescored score rows).map FtsHit.noteId ↔
      score a < score b ∨ score a = score b ∧ [a, b] <+ rows := by
  have hids : (rescored score rows).map FtsHit.noteId =
      (rows.insertionSort fun x y => score x ≤ score y).map FtsRow.id := by
    rw [rescored, List.map_map]
    rfl
  have hsort : ((rows.insertionSort fun x y => score x ≤ score y).map FtsRow.id).Nodup :=
    ((perm_insertionSort _ rows).map _).nodup_iff.2 hnodup
  rw [hids, pair_sublist_map_iff hsort (mem_insertionSort _ |>.2 ha) (mem_insertionSort _ |>.2 hb),
    pair_sublist_insertionSort_iff hnodup.of_map ha hb hne]

variable [Field K]

theorem elapsedDays_nonneg (nowMs : Int) (forgottenAt : Option Int) : 0 ≤ (elapsedDays nowMs forgottenAt : K) :=
  le_max_right _ _

variable {found : FtsMatches K}

theorem mem_table_of_mem_servedRows (h : r ∈ servedRows found vault limit includeDowngraded sec locus) :
    r ∈ found.table.rows ∧ r.vaultId = vault := by
  have hmem := mem_insertionSort _ |>.1 (mem_of_mem_take h)
  simp only [Table.select, mem_filter, Bool.and_eq_true, decide_eq_true_eq] at hmem
  exact ⟨hmem.1, hmem.2.1.1.1⟩

theorem nodup_servedRows :
    ((servedRows found vault limit includeDowngraded sec locus).map FtsRow.id).Nodup := by
  have hkeys : ((servedRows found vault limit includeDowngraded sec locus).map
      fun r => (r.vaultId, r.id)).Nodup := by
    refine ((take_sublist _ _).map _).nodup (((perm_insertionSort _ _).map _).nodup_iff.2 ?_)
    exact (filter_sublist.map _).nodup found.table.nodup
  refine List.Nodup.map_on (fun a ha b hb hid => ?_) hkeys.of_map
  apply inj_on_of_nodup_map hkeys ha hb
  rw [(mem_table_of_mem_servedRows ha).2, (mem_table_of_mem_servedRows hb).2, hid]

theorem pairwise_servedRows :
    (servedRows found vault limit includeDowngraded sec locus).Pairwise fun a b => a.bm25 ≤ b.bm25 :=
  (pairwise_insertionSort_key _).sublist (take_sublist _ _)

end Order

/-! ## 4. When penalties only demote -/

section Demotes

variable {K : Type} [Field K] [LinearOrder K] [IsStrictOrderedRing K] {halfPow : K → K} {nowMs : Int}

theorem lt_mul_decay_iff {x d : K} (hx : x < 0) (hd : d ≤ 1) : x ≤ x * d ∧ (x = x * d ↔ d = 1) := by
  refine ⟨by nlinarith, fun h => ?_, fun h => by rw [h, mul_one]⟩
  exact (mul_eq_left₀ hx.ne).1 h.symm

section

variable {rows : List (FtsRow K)} (hneg : ∀ r ∈ rows, r.bm25 < 0)
  (hdecay : ∀ days, 0 ≤ days → halfPow days ≤ 1) (hsort : rows.Pairwise fun a b => a.bm25 ≤ b.bm25)

include hneg hdecay hsort

/-- A live row is behind a forgotten one that does not match better only by the order in which equal scores
are served, and only if the mark has not decayed. -/
theorem not_precedes_forgotten_iff {score : FtsRow K → K} (ha : a ∈ rows) (hle : b.bm25 ≤ a.bm25)
    (hscoreA : score a = a.bm25 * decay halfPow nowMs a) (hscoreB : score b = b.bm25) :
    ¬(score a < score b ∨ score a = score b ∧ [a, b] <+ rows) ↔
      ([a, b] <+ rows → decay halfPow nowMs a < 1) := by
  have hone : decay halfPow nowMs a ≤ 1 := hdecay _ (elapsedDays_nonneg _ _)
  obtain ⟨hmul, heq⟩ := lt_mul_decay_iff (hneg a ha) hone
  rw [hscoreA, hscoreB]
  constructor
  · intro hnot hab
    have hab' : a.bm25 ≤ b.bm25 := by simpa using hsort.sublist hab
    refine lt_of_le_of_ne hone fun hd => hnot (.inr ⟨?_, hab⟩)
    rw [← heq.2 hd]
    exact le_antisymm hab' hle
  · rintro hbef (hlt | ⟨hsame, hab⟩)
    · exact absurd (hle.trans hmul) (not_le.2 hlt)
    · refine (hbef hab).ne (heq.1 ?_)
      exact le_antisymm hmul (hsame.le.trans hle)

theorem onlyDemotes_scored_iff (hnodup : (rows.map FtsRow.id).Nodup) :
    OnlyDemotes rows (rescored (penalizedScore halfPow nowMs) rows) ↔ DemotesScored halfPow nowMs rows := by
  have hlive : ∀ {b : FtsRow K}, b.Live → penalizedScore halfPow nowMs b = b.bm25 := by
    intro b hb
    simp [penalizedScore, hb.1, hb.2]
  have hiff : ∀ a ∈ rows, ∀ b ∈ rows, a.Penalized → b.Live → b.bm25 ≤ a.bm25 →
      (¬[a.id, b.id] <+ (rescored (penalizedScore halfPow nowMs) rows).map FtsHit.noteId ↔
        (a.status = .downgraded → a.forgotten = false → b.bm25 ≤ a.bm25 * 10) ∧
          (a.forgotten = true → [a, b] <+ rows → decay halfPow nowMs a < 1)) := by
    intro a ha b hb hpen hbl hle
    rw [pair_sublist_rescored_iff _ hnodup ha hb (ne_of_penalized_live hpen hbl)]
    cases hforg : a.forgotten with
    | true =>
      rw [not_precedes_forgotten_iff hneg hdecay hsort ha hle
        (by rw [penalizedScore, if_pos hforg]) (hlive hbl)]
      simp
    | false =>
      have hstat : a.status = .downgraded := hpen.resolve_right (by rw [hforg]; decide)
      have hscore : penalizedScore halfPow nowMs a = a.bm25 * 10 := by
        simp [penalizedScore, hforg, hstat]
      rw [hscore, hlive hbl]
      have hnega := hneg a ha
      -- of two equal scores the row with the smaller `bm25` was served first
      have htie : ¬(a.bm25 * 10 = b.bm25 ∧ [a, b] <+ rows) := by
        rintro ⟨heq, hab⟩
        have hab' : a.bm25 ≤ b.bm25 := by simpa using hsort.sublist hab
        linarith
      simp only [htie, or_false, not_lt, hstat, forall_const, Bool.false_eq_true,
        false_imp_iff, and_true]
  constructor
  · intro h a ha b hb hbl hle
    by_cases hpen : a.Penalized
    · exact (hiff a ha b hb hpen hbl hle).1 (h a ha b hb hpen hbl hle)
    · exact ⟨fun hstat => absurd (.inl hstat) hpen, fun hforg => absurd (.inr hforg) hpen⟩
  · intro h a ha b hb hpen hbl hle
    exact (hiff a ha b hb hpen hbl hle).2 (h a ha b hb hbl hle)

theorem onlyDemotes_filtered_iff (hnodup : (rows.map FtsRow.id).Nodup) :
    OnlyDemotes rows (rescored (decayedScore halfPow nowMs) rows) ↔ DemotesFiltered halfPow nowMs rows := by
  refine forall₂_congr fun a ha => forall₂_congr fun b hb => ?_
  refine forall_congr' fun hpen => forall_congr' fun hbl => forall_congr' fun hle => ?_
  have hlive : decayedScore halfPow nowMs b = b.bm25 := by simp [decayedScore, hbl.2]
  rw [pair_sublist_rescored_iff _ hnodup ha hb (ne_of_penalized_live hpen hbl)]
  cases hforg : a.forgotten with
  | true =>
    rw [not_precedes_forgotten_iff hneg hdecay hsort ha hle
      (by rw [decayedScore, if_pos hforg]) hlive]
    simp
  | false =>
    have hscore : decayedScore halfPow nowMs a = a.bm25 := by simp [decayedScore, hforg]
    rw [hscore, hlive]
    simp only [Bool.false_eq_true, false_and, imp_false]
    refine not_congr ⟨?_, fun hab => ?_⟩
    · rintro (hlt | ⟨-, hab⟩)
      · exact absurd hle (not_le.2 hlt)
      · exact hab
    · have hab' : a.bm25 ≤ b.bm25 := by simpa using hsort.sublist hab
      exact .inr ⟨le_antisymm hab' hle, hab⟩

end

/-- Penalties only demote, in each of the two searches, just when the rows that SQLite serves have the gaps
and the order that its penalties need. -/
theorem penalties_only_demote_iff (halfPow : K → K)
    (hdecay : ∀ days, 0 ≤ days → 0 < halfPow days ∧ halfPow days ≤ 1) (nowMs : Int) (found : FtsMatches K)
    (vault : VaultId) (limit : Nat) (includeDowngraded : Bool) (sec locus : Option String) :
    (OnlyDemotes (servedRows found vault limit includeDowngraded none none)
        (searchFtsScored halfPow nowMs found vault limit includeDowngraded) ↔
      DemotesScored halfPow nowMs (servedRows found vault limit includeDowngraded none none)) ∧
    (OnlyDemotes (servedRows found vault limit includeDowngraded sec locus)
        (searchFtsScoredFiltered halfPow nowMs found vault limit includeDowngraded sec locus) ↔
      DemotesFiltered halfPow nowMs (servedRows found vault limit includeDowngraded sec locus)) := by
  have hneg : ∀ sec locus, ∀ r ∈ servedRows found vault limit includeDowngraded sec locus, r.bm25 < 0 :=
    fun _ _ r hr => found.negative r (mem_table_of_mem_servedRows hr).1
  have hone : ∀ days, 0 ≤ days → halfPow days ≤ 1 := fun days h => (hdecay days h).2
  exact ⟨onlyDemotes_scored_iff (hneg _ _) hone pairwise_servedRows nodup_servedRows,
    onlyDemotes_filtered_iff (hneg _ _) hone pairwise_servedRows nodup_servedRows⟩

def downgradedRow : FtsRow ℚ := ⟨"main", 1, -1, "reference", none, .downgraded, false, none⟩

/-- It matches twice as well. -/
def liveRow : FtsRow ℚ := ⟨"main", 2, -2, "reference", none, .of .live, false, none⟩

def liveAndDowngraded : FtsMatches ℚ where
  table := ⟨[downgradedRow, liveRow], by decide⟩
  negative := by decide +kernel

theorem penalties_only_demote_iff_liveAndDowngraded :
    (∀ days : ℚ, 0 ≤ days → 0 < (1 / 2 : ℚ) ∧ (1 / 2 : ℚ) ≤ 1) ∧
    (OnlyDemotes (servedRows liveAndDowngraded "main" 10 true none none)
        (searchFtsScoredFiltered (fun _ => 1 / 2) 0 liveAndDowngraded "main" 10 true none none) ↔
      DemotesFiltered (fun _ => 1 / 2) 0 (servedRows liveAndDowngraded "main" 10 true none none)) := by
  have hdecay : ∀ days : ℚ, 0 ≤ days → 0 < (1 / 2 : ℚ) ∧ (1 / 2 : ℚ) ≤ 1 := fun _ _ => by norm_num
  exact ⟨hdecay, (penalties_only_demote_iff (fun _ => 1 / 2) hdecay 0 liveAndDowngraded "main" 10 true
    none none).2⟩

/-- The downgraded note comes first: ten times its score is below the score of the live one. -/
theorem not_onlyDemotes_liveAndDowngraded :
    ¬OnlyDemotes (servedRows liveAndDowngraded "main" 10 true none none)
      (searchFtsScored (fun _ => 1) 0 liveAndDowngraded "main" 10 true) := by
  intro h
  have hserv : servedRows liveAndDowngraded "main" 10 true none none = [liveRow, downgradedRow] := by
    decide +kernel
  rw [hserv] at h
  have hfirst : [downgradedRow.id, liveRow.id] <+
      (searchFtsScored (fun _ => 1) 0 liveAndDowngraded "main" 10 true).map FtsHit.noteId := by
    decide +kernel
  exact h downgradedRow (by simp) liveRow (by simp) (.inl rfl) ⟨rfl, rfl⟩ (by decide +kernel) hfirst

end Demotes

end Gradatum.Search
