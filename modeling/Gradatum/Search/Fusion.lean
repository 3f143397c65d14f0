import Mathlib.Algebra.Field.Rat
import Mathlib.Algebra.Order.Ring.Rat
import Mathlib.Data.List.Sort

/-!
# Fusion of the two search arms

A lexical list (BM25 scores of SQLite FTS5) and a semantic list (cosines) become one ranked list of hits, over
one vault or several.  Scores are rationals here; `f32` and `f64` are not rounded.
-/

namespace Gradatum.Search

/-! ## 1. Scores -/

def normalizeBm25 (bm25 : ℚ) : ℚ := 1 / (1 + |bm25|)

def normalizeSemantic (cosine : ℚ) : ℚ := max 0 (min cosine 1)

/-- `weighted_fusion_score`; an arm that the note is absent from contributes nothing. -/
def weightedFusionScore (bm25 semantic : Option ℚ) : ℚ :=
  1 / 2 * (bm25.map normalizeBm25).getD 0 + 1 / 2 * (semantic.map normalizeSemantic).getD 0

/-! ## 2. Fusion -/

/-- The results of an arm, the best first. -/
abbrev Arm := List (String × ℚ)

/-- `RrfHit`, without the fields that the handlers fill in later. -/
structure RrfHit where
  noteId : String
  rrfScore : ℚ
  isSemanticOnly : Bool
  bm25Rank : Option Nat
  semRank : Option Nat
  deriving DecidableEq

/-- A `HashMap` collected from pairs: a later pair replaces an earlier one with the same key. -/
def collect {β : Type} (pairs : List (String × β)) (id : String) : Option β := pairs.reverse.lookup id

def rank (arm : Arm) (id : String) : Option Nat := collect (arm.zipIdx.map fun p => (p.1.1, p.2)) id

/-- `u32::try_from(..).unwrap_or(u32::MAX)`. -/
def toU32 (n : Nat) : Nat := min n (2 ^ 32 - 1)

variable (bm25 semantic : Arm)

def allIds : List String :=
  bm25.map Prod.fst ++ (semantic.map Prod.fst).filter fun id => (rank bm25 id).isNone

def RrfHit.of (id : String) (score : ℚ) : RrfHit where
  noteId := id
  rrfScore := score
  isSemanticOnly := (rank bm25 id).isNone
  bm25Rank := (rank bm25 id).map toU32
  semRank := (rank semantic id).map toU32

/-- What `rrf_fuse` and `hybrid_fuse_weighted` share: the candidates are scored, sorted by score (stable,
the highest first) and cut off. -/
def fuseBy (score : String → ℚ) (bm25 semantic : Arm) (limit : Nat) : List RrfHit :=
  let hits := (allIds bm25 semantic).map fun id => (id, score id)
  let hits := (hits.insertionSort fun a b => b.2 ≤ a.2).take limit
  hits.map fun hit => RrfHit.of bm25 semantic hit.1 hit.2

def contribution (k : ℚ) (r : Nat) : ℚ := 1 / (k + r)

/-- The rank that counts: after the end of the list if the note is absent. -/
def effectiveRank (arm : Arm) (id : String) : Nat := (rank arm id).getD (arm.length + 1)

def rrfScore (k : ℚ) (id : String) : ℚ :=
  contribution k (effectiveRank bm25 id) + contribution k (effectiveRank semantic id)

def rrfFuse (k : ℚ) (limit : Nat) : List RrfHit :=
  fuseBy (rrfScore bm25 semantic k) bm25 semantic limit

def hybridFuseWeighted (limit : Nat) : List RrfHit :=
  fuseBy (fun id => weightedFusionScore (collect bm25 id) (collect semantic id)) bm25 semantic limit

/-- `rrf_fuse_short_circuit`; `_k` is not used. -/
def rrfFuseShortCircuit (_k : ℚ) (limit : Nat) : List RrfHit :=
  if bm25.isEmpty && semantic.isEmpty then []
  else if bm25.isEmpty then
    (semantic.zipIdx.map fun p =>
      ⟨p.1.1, normalizeSemantic p.1.2, true, none, some (toU32 p.2)⟩).take limit
  else if semantic.isEmpty then
    (bm25.zipIdx.map fun p =>
      ⟨p.1.1, normalizeBm25 p.1.2, false, some (toU32 p.2), none⟩).take limit
  else hybridFuseWeighted bm25 semantic limit

/-! ## 3. Several vaults -/

def multivaultKeySep : Char := Char.ofNat 1

def composeMultivaultKey (vault note : String) : String := vault ++ multivaultKeySep.toString ++ note

def qualified (byVault : List (String × Arm)) : Arm :=
  byVault.flatMap fun v => v.2.map fun hit => (composeMultivaultKey v.1 hit.1, hit.2)

def bm25Global (bm25ByVault : List (String × Arm)) : Arm :=
  (qualified bm25ByVault).insertionSort fun a b => a.2 ≤ b.2

def semGlobal (semanticByVault : List (String × Arm)) : Arm :=
  (qualified semanticByVault).insertionSort fun a b => b.2 ≤ a.2

def fuseMultivault (bm25ByVault semanticByVault : List (String × Arm)) (hybrid : Bool) (k : ℚ)
    (limit : Nat) : List RrfHit :=
  if hybrid then rrfFuseShortCircuit (bm25Global bm25ByVault) (semGlobal semanticByVault) k limit
  else rrfFuse (bm25Global bm25ByVault) (semGlobal semanticByVault) k limit

end Gradatum.Search
