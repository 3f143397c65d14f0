import Mathlib.Tactic.FieldSimp
import Mathlib.Tactic.Linarith
import Mathlib.Tactic.Positivity
import Gradatum.Reasoning.Lines
import Gradatum.Reasoning.StableOrder
import Gradatum.Reasoning.Table
import Gradatum.Search.Fusion

/-!
# Lexical relevance

FTS5 gives the better match the more negative score.  Whether the fused list respects that order depends
on the scores: `normalize_bm25` takes their magnitude.
-/

open Reasoning

namespace Gradatum.Search

open List

/-! ## 1. The property -/

def Before (a b : String × ℚ) (arm : Arm) : Prop := [a, b].Sublist arm

def standing (semantic : Arm) (id : String) : Option ℚ := semantic.lookup id

/-- The hits are in non-increasing order of their scores, and of two hits with the same semantic standing
the one that comes first in the lexical list does not score lower. -/
structure Respects (bm25 semantic : Arm) (hits : List RrfHit) : Prop where
  sorted : hits.Pairwise fun x y => y.rrfScore ≤ x.rrfScore
  lexical : ∀ a b, Before a b bm25 → standing semantic a.1 = standing semantic b.1 →
    ∀ x ∈ hits, ∀ y ∈ hits, x.noteId = a.1 → y.noteId = b.1 → y.rrfScore ≤ x.rrfScore

structure StoreLists (bm25 semantic : Arm) : Prop where
  nonpos : ∀ a ∈ bm25, a.2 ≤ 0
  ascending : bm25.Pairwise fun a b => a.2 ≤ b.2
  descending : semantic.Pairwise fun a b => b.2 ≤ a.2
  nodupBm25 : (bm25.map Prod.fst).Nodup
  nodupSemantic : (semantic.map Prod.fst).Nodup

/-- The best candidates by the score; of those with the same score the first ones. -/
def bestIds (score : String → ℚ) (bm25 semantic : Arm) (limit : Nat) : List String :=
  ((allIds bm25 semantic).insertionSort fun a b => score b ≤ score a).take limit

/-- The best candidates by the weighted score.  A lexical list alone is cut off as it is. -/
def weightedIds (bm25 semantic : Arm) (limit : Nat) : List String :=
  if semantic.isEmpty then (bm25.map Prod.fst).take limit
  else bestIds (fun id => weightedFusionScore (collect bm25 id) (collect semantic id)) bm25 semantic limit

def Tied (bm25 semantic : Arm) (limit : Nat) : Prop :=
  ∀ a b, Before a b bm25 → standing semantic a.1 = standing semantic b.1 →
    a.1 ∈ weightedIds bm25 semantic limit → b.1 ∈ weightedIds bm25 semantic limit → a.2 = b.2

/-- Where ranks are fused: of two of the best candidates with the same semantic standing, the first in the
lexical list wins by its lexical rank at least what it loses if its semantic rank is the worse one. -/
def Outweighs (bm25 semantic : Arm) (k : ℚ) (limit : Nat) : Prop :=
  ∀ a b, Before a b bm25 → standing semantic a.1 = standing semantic b.1 →
    a.1 ∈ bestIds (rrfScore bm25 semantic k) bm25 semantic limit →
    b.1 ∈ bestIds (rrfScore bm25 semantic k) bm25 semantic limit →
    effectiveRank semantic b.1 < effectiveRank semantic a.1 →
    contribution k (effectiveRank semantic b.1) - contribution k (effectiveRank semantic a.1) ≤
      contribution k (effectiveRank bm25 a.1) - contribution k (effectiveRank bm25 b.1)

theorem normalizeBm25_le_iff (hxy : x ≤ y) (hy : y ≤ 0) : normalizeBm25 y ≤ normalizeBm25 x ↔ x = y := by
  have hx : |x| = -x := abs_of_nonpos (hxy.trans hy)
  have hy' : |y| = -y := abs_of_nonpos hy
  rw [normalizeBm25, normalizeBm25, hx, hy', one_div_le_one_div (by linarith) (by linarith)]
  constructor
  · intro h
    linarith
  · intro h
    linarith

theorem normalizeSemantic_mono (h : x ≤ y) : normalizeSemantic x ≤ normalizeSemantic y :=
  max_le_max_left 0 (min_le_min_right 1 h)

theorem contribution_le (hk : 0 < k) (h : r ≤ s) : contribution k s ≤ contribution k r := by
  have hcast : (r : ℚ) ≤ s := by exact_mod_cast h
  have hr : (0 : ℚ) ≤ r := Nat.cast_nonneg r
  exact one_div_le_one_div_of_le (by linarith) (by linarith)

/-! ## 2. Lookups -/

theorem collect_eq_some_iff {β : Type} {pairs : List (String × β)} (hnodup : (pairs.map Prod.fst).Nodup)
    {id : String} {v : β} : collect pairs id = some v ↔ (id, v) ∈ pairs := by
  rw [collect, Reasoning.lookup_eq_some_iff, mem_reverse]
  rwa [map_reverse, nodup_reverse]

theorem collect_eq_standing (hnodup : (semantic.map Prod.fst).Nodup) (id : String) :
    collect semantic id = standing semantic id := by
  ext v
  rw [collect_eq_some_iff hnodup, standing, Reasoning.lookup_eq_some_iff hnodup]

theorem effectiveRank_getElem (hnodup : (arm.map Prod.fst).Nodup) (hi : i < arm.length) :
    effectiveRank arm arm[i].1 = i := by
  have hkeys : (arm.zipIdx.map fun p => (p.1.1, p.2)).map Prod.fst = arm.map Prod.fst := by
    calc (arm.zipIdx.map fun p => (p.1.1, p.2)).map Prod.fst
        = (arm.zipIdx.map Prod.fst).map Prod.fst := by rw [map_map, map_map]; rfl
      _ = arm.map Prod.fst := by rw [zipIdx_map_fst]
  have hrank : rank arm arm[i].1 = some i := by
    rw [rank, collect_eq_some_iff (hkeys ▸ hnodup)]
    exact mem_map.2 ⟨(arm[i], i), mem_zipIdx_iff_getElem?.2 (getElem?_eq_getElem hi), rfl⟩
  rw [effectiveRank, hrank, Option.getD_some]

theorem effectiveRank_le_of_before (hnodup : (arm.map Prod.fst).Nodup) (h : Before a b arm) :
    effectiveRank arm a.1 ≤ effectiveRank arm b.1 := by
  have hpairs : arm.Pairwise fun a b => effectiveRank arm a.1 ≤ effectiveRank arm b.1 := by
    rw [pairwise_iff_getElem]
    intro i j hi hj hij
    rw [effectiveRank_getElem hnodup hi, effectiveRank_getElem hnodup hj]
    exact hij.le
  exact pairwise_iff_forall_sublist.1 hpairs h

/-! ## 3. Fused lists -/

variable {bm25 semantic : Arm} {limit : Nat}

theorem score_of_mem_fuseBy (hx : x ∈ fuseBy score bm25 semantic limit) : x.rrfScore = score x.noteId := by
  obtain ⟨hit, hhit, rfl⟩ := mem_map.1 hx
  have hsort := mem_of_mem_take hhit
  rw [mem_insertionSort] at hsort
  obtain ⟨id, -, rfl⟩ := mem_map.1 hsort
  rfl

theorem pairwise_insertionSort_snd (l : List (String × ℚ)) :
    (l.insertionSort fun a b => b.2 ≤ a.2).Pairwise fun a b => b.2 ≤ a.2 :=
  @pairwise_insertionSort_key _ _ _ (fun a => OrderDual.toDual a.2) l

theorem sorted_fuseBy (score : String → ℚ) :
    (fuseBy score bm25 semantic limit).Pairwise fun x y => y.rrfScore ≤ x.rrfScore := by
  rw [fuseBy, pairwise_map]
  exact (pairwise_insertionSort_snd _).sublist (take_sublist _ _)

theorem noteIds_fuseBy (score : String → ℚ) :
    (fuseBy score bm25 semantic limit).map RrfHit.noteId = bestIds score bm25 semantic limit := by
  rw [fuseBy, bestIds, ← map_insertionSort (fun a b => score b ≤ score a) _ (fun id => (id, score id)),
    ← map_take, map_map, map_map]
  · exact map_id _
  · exact fun _ _ _ _ => Iff.rfl

theorem respects_fuseBy_iff (score : String → ℚ) :
    Respects bm25 semantic (fuseBy score bm25 semantic limit) ↔
      ∀ a b, Before a b bm25 → standing semantic a.1 = standing semantic b.1 →
        a.1 ∈ bestIds score bm25 semantic limit → b.1 ∈ bestIds score bm25 semantic limit →
          score b.1 ≤ score a.1 := by
  rw [← noteIds_fuseBy]
  constructor
  · intro h a b hbef hstand ha hb
    obtain ⟨x, hx, hxa⟩ := mem_map.1 ha
    obtain ⟨y, hy, hyb⟩ := mem_map.1 hb
    have hle := h.lexical a b hbef hstand x hx y hy hxa hyb
    rwa [score_of_mem_fuseBy hx, score_of_mem_fuseBy hy, hxa, hyb] at hle
  · refine fun h => ⟨sorted_fuseBy score, fun a b hbef hstand x hx y hy hxa hyb => ?_⟩
    rw [score_of_mem_fuseBy hx, score_of_mem_fuseBy hy, hxa, hyb]
    exact h a b hbef hstand (mem_map.2 ⟨x, hx, hxa⟩) (mem_map.2 ⟨y, hy, hyb⟩)

theorem StoreLists.before (h : StoreLists bm25 semantic) (hbef : Before a b bm25) :
    a ∈ bm25 ∧ b ∈ bm25 ∧ a.2 ≤ b.2 ∧ b.2 ≤ 0 := by
  have ha : a ∈ bm25 := hbef.subset mem_cons_self
  have hb : b ∈ bm25 := hbef.subset (mem_cons_of_mem _ mem_cons_self)
  exact ⟨ha, hb, pairwise_iff_forall_sublist.1 h.ascending hbef, h.nonpos b hb⟩

theorem respects_hybridFuseWeighted_iff (h : StoreLists bm25 semantic) (hsem : semantic.isEmpty = false) :
    Respects bm25 semantic (hybridFuseWeighted bm25 semantic limit) ↔ Tied bm25 semantic limit := by
  rw [hybridFuseWeighted, respects_fuseBy_iff, Tied, weightedIds, hsem, if_neg Bool.false_ne_true]
  refine forall₄_congr fun a b hbef hstand => imp_congr_right fun _ => imp_congr_right fun _ => ?_
  obtain ⟨ha, hb, hle, hnonpos⟩ := h.before hbef
  rw [collect_eq_standing h.nodupSemantic, collect_eq_standing h.nodupSemantic, hstand,
    (collect_eq_some_iff h.nodupBm25).2 ha, (collect_eq_some_iff h.nodupBm25).2 hb,
    ← normalizeBm25_le_iff hle hnonpos]
  simp only [weightedFusionScore, Option.map_some, Option.getD_some]
  constructor
  · intro hscore
    linarith
  · intro hscore
    linarith

theorem respects_rrfFuse_iff (hk : 0 < k) (h : StoreLists bm25 semantic) :
    Respects bm25 semantic (rrfFuse bm25 semantic k limit) ↔ Outweighs bm25 semantic k limit := by
  rw [rrfFuse, respects_fuseBy_iff]
  refine forall₄_congr fun a b hbef hstand => imp_congr_right fun _ => imp_congr_right fun _ => ?_
  have hbm25 := contribution_le hk (effectiveRank_le_of_before h.nodupBm25 hbef)
  unfold rrfScore
  constructor
  · intro hscore _
    linarith
  intro hweigh
  rcases lt_or_ge (effectiveRank semantic b.1) (effectiveRank semantic a.1) with hlt | hge
  · have := hweigh hlt
    linarith
  · have := contribution_le hk hge
    linarith

/-! ## 4. One arm -/

theorem pairwise_zipIdx {arm : Arm} (h : arm.Pairwise R) : arm.zipIdx.Pairwise fun p q => R p.1 q.1 := by
  rw [← pairwise_map, zipIdx_map_fst]
  exact h

def semanticHits (semantic : Arm) (limit : Nat) : List RrfHit :=
  (semantic.zipIdx.map fun p => ⟨p.1.1, normalizeSemantic p.1.2, true, none, some (toU32 p.2)⟩).take limit

theorem respects_semanticHits (h : StoreLists [] semantic) (limit : Nat) :
    Respects [] semantic (semanticHits semantic limit) ∧ ∀ cut, Tied [] semantic cut := by
  have hempty : ∀ {a b : String × ℚ}, ¬ Before a b [] := fun hbef => by
    cases sublist_nil.1 hbef
  refine ⟨⟨?_, fun a b hbef => absurd hbef hempty⟩, fun _ a b hbef => absurd hbef hempty⟩
  refine List.Pairwise.sublist (take_sublist _ _) (pairwise_map.2 ?_)
  exact (pairwise_zipIdx h.descending).imp fun hle => normalizeSemantic_mono hle

def lexicalHits (bm25 : Arm) (limit : Nat) : List RrfHit :=
  (bm25.zipIdx.map fun p => ⟨p.1.1, normalizeBm25 p.1.2, false, some (toU32 p.2), none⟩).take limit

theorem score_of_mem_lexicalHits (hnodup : (bm25.map Prod.fst).Nodup) (hx : x ∈ lexicalHits bm25 limit)
    (ha : a ∈ bm25) (heq : x.noteId = a.1) : x.rrfScore = normalizeBm25 a.2 := by
  obtain ⟨p, hp, rfl⟩ := mem_map.1 (mem_of_mem_take hx)
  have hmem : p.1 ∈ bm25 := by
    rw [← zipIdx_map_fst 0 bm25]
    exact mem_map_of_mem hp
  have hsame : p.1 = a := inj_on_of_nodup_map hnodup hmem ha heq
  rw [← hsame]

theorem before_of_sublist_zipIdx (h : [p, q].Sublist bm25.zipIdx) : Before p.1 q.1 bm25 := by
  have hmap := h.map Prod.fst
  rwa [zipIdx_map_fst] at hmap

theorem noteIds_lexicalHits :
    (lexicalHits bm25 limit).map RrfHit.noteId = (bm25.map Prod.fst).take limit := by
  rw [lexicalHits, map_take, map_map, ← zipIdx_map_fst 0 bm25, map_map,
    zipIdx_map_fst]
  rfl

theorem respects_lexicalHits_iff (h : StoreLists bm25 []) :
    Respects bm25 [] (lexicalHits bm25 limit) ↔ Tied bm25 [] limit := by
  rw [Tied, weightedIds, if_pos isEmpty_nil, ← noteIds_lexicalHits]
  constructor
  · intro hrespects a b hbef hstand ha hb
    obtain ⟨hamem, hbmem, hle, hnonpos⟩ := h.before hbef
    obtain ⟨x, hx, hxa⟩ := mem_map.1 ha
    obtain ⟨y, hy, hyb⟩ := mem_map.1 hb
    have hscore := hrespects.lexical a b hbef hstand x hx y hy hxa hyb
    rw [score_of_mem_lexicalHits h.nodupBm25 hx hamem hxa,
      score_of_mem_lexicalHits h.nodupBm25 hy hbmem hyb] at hscore
    exact (normalizeBm25_le_iff hle hnonpos).1 hscore
  · intro htied
    constructor
    · rw [lexicalHits, ← map_take, pairwise_map, pairwise_iff_forall_sublist]
      intro p q hpq
      have hbef := before_of_sublist_zipIdx (hpq.trans (take_sublist _ _))
      have hkept : ∀ r ∈ [p, q], r.1.1 ∈ (lexicalHits bm25 limit).map RrfHit.noteId := by
        intro r hr
        rw [lexicalHits, ← map_take, map_map]
        exact mem_map.2 ⟨r, hpq.subset hr, rfl⟩
      have hequal := htied p.1 q.1 hbef rfl (hkept p (by simp)) (hkept q (by simp))
      dsimp only
      rw [hequal]
    · intro a b hbef hstand x hx y hy hxa hyb
      obtain ⟨hamem, hbmem, -, -⟩ := h.before hbef
      have hequal := htied a b hbef hstand (mem_map.2 ⟨x, hx, hxa⟩) (mem_map.2 ⟨y, hy, hyb⟩)
      rw [score_of_mem_lexicalHits h.nodupBm25 hx hamem hxa,
        score_of_mem_lexicalHits h.nodupBm25 hy hbmem hyb, hequal]

theorem respects_shortCircuit_iff (h : StoreLists bm25 semantic) (k : ℚ) :
    Respects bm25 semantic (rrfFuseShortCircuit bm25 semantic k limit) ↔ Tied bm25 semantic limit := by
  rcases bm25 with _ | ⟨a, bm25⟩
  · rcases semantic with _ | ⟨s, semantic⟩
    · have hnone := respects_semanticHits h 0
      exact iff_of_true hnone.1 (hnone.2 limit)
    · have hsem := respects_semanticHits h limit
      exact iff_of_true hsem.1 (hsem.2 limit)
  · rcases semantic with _ | ⟨s, semantic⟩
    · exact respects_lexicalHits_iff h
    · exact respects_hybridFuseWeighted_iff h rfl

/-! ## 5. Several vaults -/

structure VaultLists (byVault : List (String × Arm)) : Prop where
  vaults : (byVault.map Prod.fst).Nodup
  noSep : ∀ v ∈ byVault, multivaultKeySep ∉ v.1.toList
  notes : ∀ v ∈ byVault, (v.2.map Prod.fst).Nodup

theorem composeMultivaultKey_inj (hv : multivaultKeySep ∉ vault.toList)
    (hv' : multivaultKeySep ∉ vault'.toList)
    (h : composeMultivaultKey vault note = composeMultivaultKey vault' note') :
    vault = vault' ∧ note = note' := by
  have hchars := congrArg String.toList h
  simp only [composeMultivaultKey, String.toList_append, Char.toString, String.toList_singleton,
    append_assoc, singleton_append] at hchars
  obtain ⟨hvault, hnote⟩ := append_separator_inj hv hv' hchars
  exact ⟨String.toList_injective hvault, String.toList_injective hnote⟩

theorem VaultLists.nodup_qualified (h : VaultLists byVault) : ((qualified byVault).map Prod.fst).Nodup := by
  rw [qualified, map_flatMap, nodup_flatMap]
  constructor
  · intro v hv
    rw [map_map]
    have hnotes := h.notes v hv
    rw [List.Nodup, pairwise_map] at hnotes ⊢
    exact hnotes.imp fun hne heq =>
      hne (composeMultivaultKey_inj (h.noSep v hv) (h.noSep v hv) heq).2
  · have hvaults := h.vaults
    rw [List.Nodup, pairwise_map] at hvaults
    refine List.Pairwise.imp_of_mem ?_ hvaults
    intro v w hv hw hne key hkey hkey'
    simp only [map_map, mem_map, Function.comp] at hkey hkey'
    obtain ⟨a, -, rfl⟩ := hkey
    obtain ⟨b, -, heq⟩ := hkey'
    exact hne (composeMultivaultKey_inj (h.noSep w hw) (h.noSep v hv) heq).1.symm

theorem storeLists_global (hbm25 : VaultLists bm25ByVault) (hsem : VaultLists semanticByVault)
    (hnonpos : ∀ v ∈ bm25ByVault, ∀ a ∈ v.2, a.2 ≤ 0) :
    StoreLists (bm25Global bm25ByVault) (semGlobal semanticByVault) where
  nonpos a ha := by
    rw [bm25Global, mem_insertionSort] at ha
    obtain ⟨v, hv, ha⟩ := mem_flatMap.1 ha
    obtain ⟨hit, hhit, rfl⟩ := mem_map.1 ha
    exact hnonpos v hv hit hhit
  ascending := pairwise_insertionSort_key _
  descending := pairwise_insertionSort_snd _
  nodupBm25 := ((perm_insertionSort _ _).map _).nodup_iff.2 hbm25.nodup_qualified
  nodupSemantic := ((perm_insertionSort _ _).map _).nodup_iff.2 hsem.nodup_qualified

/-- Of one vault and of any number of them: the fused list respects the lexical order exactly when the best
candidates with the same semantic standing are lexically tied, or, where only ranks are fused, when the
lexical order outweighs the semantic one. -/
theorem respects_iff_tied (k : Rat) (limit : Nat) :
    (∀ bm25 semantic, StoreLists bm25 semantic →
      (Respects bm25 semantic (rrfFuseShortCircuit bm25 semantic k limit) ↔ Tied bm25 semantic limit)) ∧
    ∀ bm25ByVault semanticByVault, VaultLists bm25ByVault → VaultLists semanticByVault →
      (∀ v ∈ bm25ByVault, ∀ a ∈ v.2, a.2 ≤ 0) → ∀ hybrid, 0 < k →
      (Respects (bm25Global bm25ByVault) (semGlobal semanticByVault)
          (fuseMultivault bm25ByVault semanticByVault hybrid k limit) ↔
        if hybrid then Tied (bm25Global bm25ByVault) (semGlobal semanticByVault) limit
        else Outweighs (bm25Global bm25ByVault) (semGlobal semanticByVault) k limit) := by
  constructor
  · intro bm25 semantic h
    exact respects_shortCircuit_iff h k
  intro bm25ByVault semanticByVault hbm25 hsem hnonpos hybrid hk
  have h := storeLists_global hbm25 hsem hnonpos
  cases hybrid with
  | true => exact respects_shortCircuit_iff h k
  | false => exact respects_rrfFuse_iff hk h

def tiedMatches : Arm := [("a", -2), ("b", -2)]

def unequalMatches : Arm := [("a", -4), ("b", -1)]

theorem storeLists_tiedMatches : StoreLists tiedMatches [("c", 1 / 2)] where
  nonpos := by decide +kernel
  ascending := by decide +kernel
  descending := by simp
  nodupBm25 := by decide
  nodupSemantic := by simp

theorem storeLists_unequalMatches : StoreLists unequalMatches [("c", 1 / 2)] where
  nonpos := by decide +kernel
  ascending := by decide +kernel
  descending := by simp
  nodupBm25 := by decide
  nodupSemantic := by simp

theorem respects_tiedMatches :
    Respects tiedMatches [("c", 1 / 2)] (rrfFuseShortCircuit tiedMatches [("c", 1 / 2)] 60 10) ∧
      Respects (bm25Global [("main", tiedMatches)]) (semGlobal [])
        (fuseMultivault [("main", tiedMatches)] [] true 60 10) := by
  have hequal : ∀ arm : Arm, (∀ a ∈ arm, a.2 = -2) → ∀ semantic limit, Tied arm semantic limit :=
    fun arm hall semantic limit a b hbef _ _ _ =>
      (hall a (hbef.subset (by simp))).trans (hall b (hbef.subset (by simp))).symm
  constructor
  · exact ((respects_iff_tied 60 10).1 _ _ storeLists_tiedMatches).2 (hequal _ (by simp [tiedMatches]) _ _)
  refine ((respects_iff_tied 60 10).2 [("main", tiedMatches)] [] ?_ ?_ ?_ true (by norm_num)).2
    (hequal _ ?_ _ _)
  · constructor
    · simp
    · decide
    · simp [tiedMatches]
  · constructor <;> simp
  · decide +kernel
  · intro a ha
    rw [bm25Global, mem_insertionSort] at ha
    simp only [qualified, tiedMatches, flatMap_cons, flatMap_nil, map_cons, map_nil,
      append_nil, mem_cons, not_mem_nil, or_false] at ha
    rcases ha with rfl | rfl <;> rfl

/-- The note that matches best gets the lowest score: 1/10 against 1/4. -/
theorem not_respects_unequalMatches : StoreLists unequalMatches [("c", 1 / 2)] ∧
      ¬ Respects unequalMatches [("c", 1 / 2)]
        (rrfFuseShortCircuit unequalMatches [("c", 1 / 2)] 60 10) := by
  refine ⟨storeLists_unequalMatches, fun h => ?_⟩
  have hle := h.lexical ("a", -4) ("b", -1) (List.Sublist.refl _) rfl
    ⟨"a", 1 / 10, false, some 0, none⟩ ?_ ⟨"b", 1 / 4, false, some 1, none⟩ ?_ rfl rfl
  · norm_num at hle
  · decide +kernel
  · decide +kernel

end Gradatum.Search
