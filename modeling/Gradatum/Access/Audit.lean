import Mathlib.Data.String.Basic
import Mathlib.Order.WellFoundedSet
import Gradatum.Access.ReadGuard

/-!
# The audit of a vault

`detect` proposes notes for deletion or review.  Four detectors make their proposals independently, and the
first proposal of the highest severity is kept for each note.  A duplicate names the note that is to survive
it, which may be proposed for deletion itself.
-/

namespace Gradatum.Access

open Notes List Function

/-! ## 1. The detectors -/

structure AuditRecord where
  id : String
  «section» : String
  title : String
  body : String
  authorId : Option String
  deriving DecidableEq

inductive DedupCategory where
  | exactDuplicate
  | structuralJunk
  | nearDuplicate
  | titleCollision
  | semanticDuplicate
  deriving DecidableEq

inductive AuditTier where
  | delete
  | review
  deriving DecidableEq

def DedupCategory.severity : DedupCategory → Nat
  | exactDuplicate => 5
  | structuralJunk => 4
  | nearDuplicate => 3
  | titleCollision => 2
  | semanticDuplicate => 1

def DedupCategory.defaultTier : DedupCategory → AuditTier
  | exactDuplicate | structuralJunk | nearDuplicate => .delete
  | titleCollision | semanticDuplicate => .review

/-- The tier of a candidate is that of its category. -/
structure AuditCandidate where
  noteId : String
  category : DedupCategory
  survivorId : Option String
  deriving DecidableEq

/-- SHA-256 of the normalised body, `to_lowercase`, and the tests on pairs: `jaccard_strong`, and
`cosine_review` with `semantic_jaccard_floor`. -/
structure AuditTests where
  minProbeBytes : Nat
  contentHash : String → String
  toLowercase : String → String
  hasShingles : AuditRecord → Bool
  near : AuditRecord → AuditRecord → Bool
  semantic : AuditRecord → AuditRecord → Bool

def trimmed (text : String) : String := String.ofList (trim text.toList)

def isStressTestTitle (t : String) : Bool :=
  let tokens := splitWhitespace t
  (tokens.zip (tokens.drop 1)).any fun (a, b) => a = "test" && b ≠ "" && b.toList.all Char.isDigit

def group (key : AuditRecord → Option String) (records : List AuditRecord) (k : String) : List AuditRecord :=
  (records.filter (key · = some k)).insertionSort (·.id ≤ ·.id)

/-- The candidates of the groups of records with one key: the record with the smallest id survives. -/
def grouped (key : AuditRecord → Option String) (category : DedupCategory) (records : List AuditRecord) :
    List AuditCandidate :=
  ((records.filterMap key).dedup.insertionSort (· ≤ ·)).flatMap fun k =>
    match group key records k with
    | [] => []
    | survivor :: duplicates => duplicates.map fun r => ⟨r.id, category, some survivor.id⟩

/-- The pairs `(i, j)` with `i < j`, in the order of the loops. -/
def pairs : List AuditRecord → List (AuditRecord × AuditRecord)
  | [] => []
  | a :: rest => rest.map (a, ·) ++ pairs rest

namespace AuditTests

variable (tests : AuditTests)

def exactKey (r : AuditRecord) : Option String :=
  if trimmed r.body = "" then none else some (tests.contentHash r.body)

def detectExact : List AuditRecord → List AuditCandidate := grouped tests.exactKey .exactDuplicate

def isProbeTitle (title : String) : Bool :=
  let t := tests.toLowercase (trimmed title)
  ["t", "test", "probe"].contains t || t.toList.tails.any ("smoke".toList.isPrefixOf ·) ||
    ["tagprobe", "probe", "canary", "zz", "[test]"].any (t.startsWith ·) || isStressTestTitle t

def structural (r : AuditRecord) : Bool :=
  r.section = "debug" && (trimmed r.body = "" || tests.isProbeTitle r.title ||
    r.authorId = some "tester" && (trimmed r.body).utf8ByteSize ≤ tests.minProbeBytes)

def detectStructural (records : List AuditRecord) : List AuditCandidate :=
  (records.filter tests.structural).map fun r => ⟨r.id, .structuralJunk, none⟩

def titleKey (r : AuditRecord) : Option String :=
  let key := tests.toLowercase (trimmed r.title)
  if key = "" then none else some key

def detectTitleCollisions : List AuditRecord → List AuditCandidate := grouped tests.titleKey .titleCollision

/-- Both bodies have shingles, and the titles are not the same up to the case of ASCII letters. -/
def comparable (a b : AuditRecord) : Bool :=
  tests.hasShingles a && tests.hasShingles b &&
    (trim a.title.toList).map Char.toLower != (trim b.title.toList).map Char.toLower

/-- The survivor of the pair and the candidate. -/
def byAge (pair : AuditRecord × AuditRecord) : AuditRecord × AuditRecord :=
  if pair.1.id ≤ pair.2.id then pair else pair.swap

def comparePair (pair : AuditRecord × AuditRecord) : Option AuditCandidate :=
  if tests.comparable pair.1 pair.2 then
    let (survivor, cand) := byAge pair
    if tests.near pair.1 pair.2 then some ⟨cand.id, .nearDuplicate, some survivor.id⟩
    else if tests.semantic pair.1 pair.2 then some ⟨cand.id, .semanticDuplicate, some survivor.id⟩
    else none
  else none

def detectNearAndSemantic (records : List AuditRecord) : List AuditCandidate :=
  (pairs records).filterMap tests.comparePair

end AuditTests

/-! ## 2. The merge -/

def consider (best : String → Option AuditCandidate) (cand : AuditCandidate) :
    String → Option AuditCandidate :=
  update best cand.noteId <| some <|
    match best cand.noteId with
    | none => cand
    | some existing => if existing.category.severity < cand.category.severity then cand else existing

def best (proposals : List AuditCandidate) : String → Option AuditCandidate :=
  proposals.foldl consider fun _ => none

def AuditTests.proposals (tests : AuditTests) (records : List AuditRecord) : List AuditCandidate :=
  tests.detectExact records ++ tests.detectStructural records ++ tests.detectTitleCollisions records ++
    tests.detectNearAndSemantic records

def AuditTests.detect (tests : AuditTests) (records : List AuditRecord) : List AuditCandidate :=
  let proposals := tests.proposals records
  ((proposals.map (·.noteId)).dedup.filterMap (best proposals)).insertionSort fun a b =>
    b.category.severity < a.category.severity ∨
      a.category.severity = b.category.severity ∧ a.noteId ≤ b.noteId

def firstOf (proposals : List AuditCandidate) (id : String) (severity : Nat) : Option AuditCandidate :=
  proposals.find? fun d => d.noteId = id && d.category.severity = severity

theorem firstOf_append (proposals : List AuditCandidate) (d : AuditCandidate) (id : String) (severity : Nat) :
    firstOf (proposals ++ [d]) id severity = (firstOf proposals id severity).or
      (if d.noteId = id ∧ d.category.severity = severity then some d else none) := by
  simp [firstOf, find?_append, find?_singleton]

theorem firstOf_eq {id : String} {first : Option AuditCandidate}
    (h : ∀ c, c ∈ proposals ∧ c.noteId = id ∧ c.category.severity = severity ↔ first = some c) :
    firstOf proposals id severity = first := by
  cases hfind : firstOf proposals id severity with
  | none =>
    cases first with
    | none => rfl
    | some c =>
      obtain ⟨hmem, hid, hsev⟩ := (h c).2 rfl
      exact absurd (find?_eq_none.1 hfind c hmem) (by simp [hid, hsev])
  | some c =>
    have hc := find?_some hfind
    rw [Bool.and_eq_true, decide_eq_true_eq, decide_eq_true_eq] at hc
    exact ((h c).1 ⟨mem_of_find?_eq_some hfind, hc⟩).symm

/-- The kept verdict is the first one of the highest severity. -/
theorem best_spec (proposals : List AuditCandidate) (id : String) :
    (∀ c, best proposals id = some c → c.noteId = id ∧ firstOf proposals id c.category.severity = some c ∧
        ∀ severity, c.category.severity < severity → firstOf proposals id severity = none) ∧
      (best proposals id = none → ∀ severity, firstOf proposals id severity = none) := by
  induction proposals using List.reverseRecOn with
  | nil => simp [best, firstOf]
  | append_singleton proposals d ih =>
    obtain ⟨hsome, hnone⟩ := ih
    have hbest : best (proposals ++ [d]) = consider (best proposals) d := by
      rw [best, foldl_append]
      rfl
    rw [hbest, consider]
    simp only [firstOf_append]
    by_cases hid : id = d.noteId
    · subst hid
      rw [update_self]
      cases hbest : best proposals d.noteId with
      | none => grind
      | some e =>
        obtain ⟨hid, hfirst, habove⟩ := hsome e hbest
        grind
    · rw [update_of_ne hid]
      grind

theorem mem_detect_iff (tests : AuditTests) (records : List AuditRecord) (c : AuditCandidate) :
    c ∈ tests.detect records ↔ best (tests.proposals records) c.noteId = some c := by
  rw [AuditTests.detect, mem_insertionSort, mem_filterMap]
  constructor
  · rintro ⟨id, -, hbest⟩
    rw [((best_spec _ id).1 c hbest).1]
    exact hbest
  · intro hbest
    have hmem := mem_of_find?_eq_some ((best_spec _ _).1 c hbest).2.1
    exact ⟨c.noteId, mem_dedup.2 (mem_map_of_mem hmem), hbest⟩

theorem eq_of_mem_detect (hc : c ∈ AuditTests.detect tests records) (hd : d ∈ tests.detect records)
    (heq : c.noteId = d.noteId) : c = d := by
  rw [mem_detect_iff] at hc hd
  rw [heq, hd] at hc
  exact (Option.some.inj hc).symm

/-! ## 3. Survivors -/

/-- The oldest record of the group of `r`, where that is another one. -/
def groupSurvivor (key : AuditRecord → Option String) (records : List AuditRecord) (r : AuditRecord) :
    Option AuditRecord :=
  (key r).bind fun k => (group key records k).head?.filter (·.id ≠ r.id)

namespace AuditTests

variable (tests : AuditTests) (records : List AuditRecord) (r : AuditRecord)

/-- The older record of the first near pair, in the order of the loops, of which `r` is the newer one. -/
def nearSurvivor : Option AuditRecord :=
  ((pairs records).find? fun p => tests.comparable p.1 p.2 && tests.near p.1 p.2 && (byAge p).2.id = r.id).map
    fun p => (byAge p).1

/-- The verdict that proposes `r` for deletion: a copy of the oldest record with its body, structural junk, or
near to an older record. -/
def verdict : Option AuditCandidate :=
  ((groupSurvivor tests.exactKey records r).map fun s => ⟨r.id, .exactDuplicate, some s.id⟩).or <|
    (if tests.structural r then some ⟨r.id, .structuralJunk, none⟩ else none).or <|
      (tests.nearSurvivor records r).map fun s => ⟨r.id, .nearDuplicate, some s.id⟩

end AuditTests

variable {records : List AuditRecord}

theorem mem_group : r ∈ group key records k ↔ r ∈ records ∧ key r = some k := by
  rw [group, mem_insertionSort, mem_filter, decide_eq_true_eq]

theorem groupSurvivor_lt (hr : r ∈ records) (h : groupSurvivor key records r = some s) :
    s ∈ records ∧ s.id < r.id := by
  obtain ⟨k, hk, hhead⟩ := Option.bind_eq_some_iff.1 h
  rw [Option.filter_eq_some_iff, decide_eq_true_eq] at hhead
  have hsorted := pairwise_insertionSort (fun a b : AuditRecord => a.id ≤ b.id)
    (records.filter (key · = some k))
  have hmem := mem_group.2 ⟨hr, hk⟩
  obtain ⟨rest, hgroup⟩ := head?_eq_some_iff.1 hhead.1
  change (group key records k).Pairwise _ at hsorted
  refine ⟨(mem_group.1 (mem_of_mem_head? hhead.1)).1, lt_of_le_of_ne ?_ hhead.2⟩
  rw [hgroup] at hmem hsorted
  rcases mem_cons.1 hmem with rfl | hrest
  · exact le_refl _
  · exact (pairwise_cons.1 hsorted).1 r hrest

theorem mem_grouped_iff (hnodup : (records.map (·.id)).Nodup) : c ∈ grouped key category records ↔
    ∃ r ∈ records, ∃ s, groupSurvivor key records r = some s ∧ c = ⟨r.id, category, some s.id⟩ := by
  rw [grouped, mem_flatMap]
  constructor
  · rintro ⟨k, -, hc⟩
    split at hc
    · cases hc
    rename_i survivor duplicates hgroup
    obtain ⟨r, hr, rfl⟩ := mem_map.1 hc
    obtain ⟨hrec, hkey⟩ := mem_group.1 (hgroup ▸ mem_cons_of_mem _ hr)
    have hids : ((group key records k).map (·.id)).Nodup :=
      ((perm_insertionSort _ _).map _).nodup_iff.2 (hnodup.sublist (filter_sublist.map _))
    rw [hgroup] at hids
    have hne : survivor.id ≠ r.id := fun heq => (nodup_cons.1 hids).1 (mem_map.2 ⟨r, hr, heq.symm⟩)
    exact ⟨r, hrec, survivor, by simp [groupSurvivor, hkey, hgroup, hne], rfl⟩
  · rintro ⟨r, hr, s, hsurv, rfl⟩
    obtain ⟨k, hk, hhead⟩ := Option.bind_eq_some_iff.1 hsurv
    rw [Option.filter_eq_some_iff, decide_eq_true_eq] at hhead
    obtain ⟨rest, hgroup⟩ := head?_eq_some_iff.1 hhead.1
    have hmem := mem_group.2 ⟨hr, hk⟩
    refine ⟨k, (mem_insertionSort _).2 (mem_dedup.2 (mem_filterMap.2 ⟨r, hr, hk⟩)), ?_⟩
    rw [hgroup] at hmem ⊢
    rcases mem_cons.1 hmem with rfl | hrest
    · exact absurd rfl hhead.2
    · exact mem_map.2 ⟨r, hrest, rfl⟩

theorem mem_pairs (hnodup : (records.map (·.id)).Nodup)
    (h : (a, b) ∈ pairs records) : a ∈ records ∧ b ∈ records ∧ a.id ≠ b.id := by
  induction records with
  | nil => cases h
  | cons r rest ih =>
    obtain ⟨hr, hrest⟩ := nodup_cons.1 hnodup
    rcases mem_append.1 h with h | h
    · obtain ⟨_, hb, ⟨⟩⟩ := mem_map.1 h
      exact ⟨.head _, .tail _ hb, fun heq => hr (mem_map.2 ⟨b, hb, heq.symm⟩)⟩
    · obtain ⟨ha, hb, hne⟩ := ih hrest h
      exact ⟨.tail _ ha, .tail _ hb, hne⟩

theorem older_induction {P : AuditRecord → Prop}
    (h : ∀ r ∈ records, (∀ s ∈ records, s.id < r.id → P s) → P r) : ∀ r ∈ records, P r := by
  let : Preorder AuditRecord := Preorder.lift AuditRecord.id
  exact fun r hr => ((finite_toSet records).wellFoundedOn (r := (· < ·))).induction hr h

/-- The note is not proposed for deletion, or following survivors leads to such a note. -/
inductive LeadsToKept (candidates : List AuditCandidate) : String → Prop
  | kept {id : String} (h : ∀ c ∈ candidates, c.noteId = id → c.category.defaultTier ≠ .delete) :
      LeadsToKept candidates id
  | survivor {c : AuditCandidate} {id : String} (hc : c ∈ candidates) (hid : c.survivorId = some id)
      (h : LeadsToKept candidates id) : LeadsToKept candidates c.noteId

def AuditCandidate.isDuplicate (c : AuditCandidate) : Bool :=
  c.category = .exactDuplicate || c.category = .nearDuplicate

open AuditTests

section Verdicts

variable {tests : AuditTests}

theorem comparePair_eq_some (h : tests.comparePair p = some c) : c.noteId = (byAge p).2.id ∧
    (c.category = .nearDuplicate ∧ tests.comparable p.1 p.2 = true ∧ tests.near p.1 p.2 = true ∨
      c.category = .semanticDuplicate) := by
  unfold comparePair at h
  grind

theorem any_comparePair (r : AuditRecord) (p : AuditRecord × AuditRecord) :
    ((tests.comparePair p).any fun d => d.noteId = r.id && d.category.severity = 3) =
      (tests.comparable p.1 p.2 && tests.near p.1 p.2 && (byAge p).2.id = r.id) := by
  unfold comparePair
  cases tests.comparable p.1 p.2 <;> cases tests.near p.1 p.2 <;> cases tests.semantic p.1 p.2 <;>
    simp [DedupCategory.severity]

variable (hnodup : (records.map (·.id)).Nodup)

include hnodup

theorem mem_proposals_iff : c ∈ tests.proposals records ↔
    (∃ r ∈ records, ∃ s, groupSurvivor tests.exactKey records r = some s ∧
        c = ⟨r.id, .exactDuplicate, some s.id⟩) ∨
      (∃ r ∈ records, tests.structural r = true ∧ c = ⟨r.id, .structuralJunk, none⟩) ∨
      (∃ r ∈ records, ∃ s, groupSurvivor tests.titleKey records r = some s ∧
        c = ⟨r.id, .titleCollision, some s.id⟩) ∨
      ∃ p ∈ pairs records, tests.comparePair p = some c := by
  rw [proposals, mem_append, mem_append, mem_append, or_assoc, or_assoc, detectExact,
    detectTitleCollisions, mem_grouped_iff hnodup, mem_grouped_iff hnodup,
    detectStructural, mem_map, detectNearAndSemantic, mem_filterMap]
  simp only [mem_filter, and_assoc, eq_comm]

theorem firstOf_exact (hr : r ∈ records) : firstOf (tests.proposals records) r.id 5 =
    (groupSurvivor tests.exactKey records r).map fun s => ⟨r.id, .exactDuplicate, some s.id⟩ := by
  refine firstOf_eq fun c => ?_
  rw [mem_proposals_iff hnodup, Option.map_eq_some_iff]
  constructor
  · rintro ⟨⟨r', hr', s, hs, rfl⟩ | ⟨_, _, _, rfl⟩ | ⟨_, _, _, _, rfl⟩ | ⟨p, _, hp⟩, hid, hsev⟩
    · cases inj_on_of_nodup_map hnodup hr' hr hid
      exact ⟨s, hs, rfl⟩
    · cases hsev
    · cases hsev
    · rcases (comparePair_eq_some hp).2 with ⟨hcat, -⟩ | hcat <;> rw [hcat] at hsev <;> cases hsev
  · rintro ⟨s, hs, rfl⟩
    exact ⟨.inl ⟨r, hr, s, hs, rfl⟩, rfl, rfl⟩

theorem firstOf_junk (hr : r ∈ records) : firstOf (tests.proposals records) r.id 4 =
    if tests.structural r then some ⟨r.id, .structuralJunk, none⟩ else none := by
  refine firstOf_eq fun c => ?_
  rw [mem_proposals_iff hnodup, Option.ite_none_right_eq_some, Option.some.injEq]
  constructor
  · rintro ⟨⟨_, _, _, _, rfl⟩ | ⟨r', hr', hjunk, rfl⟩ | ⟨_, _, _, _, rfl⟩ | ⟨p, _, hp⟩, hid, hsev⟩
    · cases hsev
    · cases inj_on_of_nodup_map hnodup hr' hr hid
      exact ⟨hjunk, rfl⟩
    · cases hsev
    · rcases (comparePair_eq_some hp).2 with ⟨hcat, -⟩ | hcat <;> rw [hcat] at hsev <;> cases hsev
  · rintro ⟨hjunk, rfl⟩
    exact ⟨.inr (.inl ⟨r, hr, hjunk, rfl⟩), rfl, rfl⟩

/-- The first proposal of a near duplicate is that of its survivor. -/
theorem firstOf_near (r : AuditRecord) : firstOf (tests.proposals records) r.id 3 =
      (tests.nearSurvivor records r).map fun s => ⟨r.id, .nearDuplicate, some s.id⟩ := by
  have hothers : (tests.detectExact records ++ tests.detectStructural records ++
      tests.detectTitleCollisions records).find? (fun d => d.noteId = r.id && d.category.severity = 3) =
        none := by
    rw [find?_eq_none]
    intro d hd
    rw [mem_append, mem_append, detectExact, detectTitleCollisions, mem_grouped_iff hnodup,
      mem_grouped_iff hnodup, detectStructural, mem_map] at hd
    rcases hd with (⟨_, _, _, _, rfl⟩ | ⟨_, _, rfl⟩) | ⟨_, _, _, _, rfl⟩ <;> simp [DedupCategory.severity]
  rw [firstOf, proposals, find?_append, hothers, Option.none_or, detectNearAndSemantic,
    find?_filterMap, nearSurvivor, Option.map_map]
  simp only [any_comparePair]
  cases hfind : (pairs records).find? _ with
  | none => rfl
  | some p =>
    have hp := find?_some hfind
    simp only [Bool.and_eq_true, decide_eq_true_eq] at hp
    simp [comparePair, hp]

/-- The report proposes the records for deletion that have a verdict. -/
theorem verdict_eq (hr : r ∈ records) : tests.verdict records r =
    (best (tests.proposals records) r.id).filter (·.category.defaultTier = .delete) := by
  rw [verdict, ← firstOf_exact hnodup hr, ← firstOf_junk hnodup hr, ← firstOf_near hnodup r]
  have hspec := best_spec (tests.proposals records) r.id
  cases hbest : best (tests.proposals records) r.id with
  | none => simp [hspec.2 hbest]
  | some c =>
    obtain ⟨-, hfirst, habove⟩ := hspec.1 c hbest
    rw [Option.filter_some]
    cases hcat : c.category <;> simp only [hcat, DedupCategory.severity] at hfirst habove <;>
      simp [hfirst, habove, DedupCategory.defaultTier]

theorem mem_detect_iff_verdict (hr : r ∈ records) :
    c ∈ tests.detect records ∧ c.noteId = r.id ∧ c.category.defaultTier = .delete ↔
      tests.verdict records r = some c := by
  rw [mem_detect_iff, verdict_eq hnodup hr, Option.filter_eq_some_iff, decide_eq_true_eq, ← and_assoc]
  refine and_congr_left fun _ => ⟨fun ⟨hbest, hid⟩ => hid ▸ hbest, fun hbest => ?_⟩
  have hid := ((best_spec _ _).1 c hbest).1
  exact ⟨hid.symm ▸ hbest, hid⟩

theorem exists_record (hc : c ∈ tests.detect records) : ∃ r ∈ records, c.noteId = r.id := by
  have hprop := mem_of_find?_eq_some ((best_spec _ _).1 c ((mem_detect_iff tests records c).1 hc)).2.1
  rcases (mem_proposals_iff hnodup).1 hprop with ⟨r, hr, _, _, rfl⟩ | ⟨r, hr, _, rfl⟩ | ⟨r, hr, _, _, rfl⟩ |
    ⟨p, hp, hpair⟩
  · exact ⟨r, hr, rfl⟩
  · exact ⟨r, hr, rfl⟩
  · exact ⟨r, hr, rfl⟩
  · have hmem := mem_pairs hnodup hp
    refine ⟨_, ?_, (comparePair_eq_some hpair).1⟩
    unfold byAge
    split
    · exact hmem.2.1
    · exact hmem.1

theorem verdict_survivor (hr : r ∈ records) (h : tests.verdict records r = some c) :
    c.category = .structuralJunk ∧ c.survivorId = none ∨
      c.isDuplicate = true ∧ ∃ s ∈ records, c.survivorId = some s.id ∧ s.id < r.id := by
  rcases Option.or_eq_some_iff.1 h with h | ⟨-, h⟩
  · obtain ⟨s, hs, rfl⟩ := Option.map_eq_some_iff.1 h
    obtain ⟨hmem, hlt⟩ := groupSurvivor_lt hr hs
    exact .inr ⟨rfl, s, hmem, rfl, hlt⟩
  rcases Option.or_eq_some_iff.1 h with h | ⟨-, h⟩
  · obtain ⟨-, ⟨⟩⟩ := Option.ite_none_right_eq_some.1 h
    exact .inl ⟨rfl, rfl⟩
  · obtain ⟨s, hs, rfl⟩ := Option.map_eq_some_iff.1 h
    obtain ⟨p, hp, rfl⟩ := Option.map_eq_some_iff.1 hs
    have hpair := mem_pairs hnodup (mem_of_find?_eq_some hp)
    have hid := find?_some hp
    refine .inr ⟨rfl, _, ?_, rfl, ?_⟩ <;> unfold byAge at hid ⊢ <;> grind

end Verdicts

/-- What is proposed for deletion can be archived together: from every duplicate a note that stays is
reached.  It is so just if no duplicate is to be replaced by a record that is structural junk. -/
theorem leadsToKept_iff (tests : AuditTests) (records : List AuditRecord)
    (hnodup : (records.map (·.id)).Nodup) :
    (∀ c ∈ tests.detect records, c.isDuplicate = true → LeadsToKept (tests.detect records) c.noteId) ↔
      ∀ r ∈ records, ∀ c ∈ tests.verdict records r, ∀ s ∈ records, c.survivorId = some s.id →
        ∀ d ∈ tests.verdict records s, d.category ≠ .structuralJunk := by
  constructor
  · intro hsafe r hr c hc s hs hcs d hd hcat
    obtain ⟨hcmem, hcr, hctier⟩ := (mem_detect_iff_verdict hnodup hr).2 hc
    obtain ⟨hdmem, hds, hdtier⟩ := (mem_detect_iff_verdict hnodup hs).2 hd
    have hend : ∀ id, LeadsToKept (tests.detect records) id → id ≠ s.id := by
      intro id h hid
      cases h with
      | kept h => exact h d hdmem (hds.trans hid.symm) hdtier
      | survivor hc' hid' =>
        cases eq_of_mem_detect hc' hdmem (hid.trans hds.symm)
        rcases verdict_survivor hnodup hs hd with ⟨-, hnone⟩ | ⟨hdup, -⟩
        · cases hnone.symm.trans hid'
        · simp [AuditCandidate.isDuplicate, hcat] at hdup
    rcases verdict_survivor hnodup hr hc with ⟨-, hnone⟩ | ⟨hdup, -⟩
    · cases hnone.symm.trans hcs
    have hlead := hsafe c hcmem hdup
    generalize hid : c.noteId = id at hlead
    cases hlead with
    | kept h => exact h c hcmem hid hctier
    | survivor hc' hid' h =>
      rw [← eq_of_mem_detect hcmem hc' hid, hcs] at hid'
      exact hend _ h (Option.some.inj hid').symm
  · intro hno
    -- induction on the ids of the records, which are finitely many
    have hlead : ∀ r ∈ records, ∀ c, tests.verdict records r = some c → c.isDuplicate = true →
        LeadsToKept (tests.detect records) r.id := by
      refine older_induction fun r hr ih c hc hdup => ?_
      rcases verdict_survivor hnodup hr hc with ⟨hjunk, -⟩ | ⟨-, s, hs, hsurv, hlt⟩
      · simp [AuditCandidate.isDuplicate, hjunk] at hdup
      obtain ⟨hmem, hid, -⟩ := (mem_detect_iff_verdict hnodup hr).2 hc
      rw [← hid]
      refine .survivor hmem hsurv ?_
      by_cases hkept : ∀ d ∈ tests.detect records, d.noteId = s.id → d.category.defaultTier ≠ .delete
      · exact .kept hkept
      push Not at hkept
      obtain ⟨d, hd⟩ := hkept
      have hv := (mem_detect_iff_verdict hnodup hs).1 hd
      rcases verdict_survivor hnodup hs hv with ⟨hjunk, -⟩ | ⟨hdup', -⟩
      · exact absurd hjunk (hno r hr c hc s hs hsurv d hv)
      · exact ih s hs hlt d hv hdup'
    intro c hc hdup
    obtain ⟨r, hr, hid⟩ := exists_record hnodup hc
    have hdel : c.category.defaultTier = .delete := by
      unfold AuditCandidate.isDuplicate at hdup
      cases hcat : c.category <;> simp_all [DedupCategory.defaultTier]
    rw [hid]
    exact hlead r hr c ((mem_detect_iff_verdict hnodup hr).1 ⟨hc, hid, hdel⟩) hdup

def plainTests : AuditTests := ⟨64, id, id, fun _ => false, fun _ _ => false, fun _ _ => false⟩

def copies : List AuditRecord :=
  [⟨"1", "reference", "a", "text", none⟩, ⟨"2", "debug", "b", "text", none⟩]

theorem leadsToKept_copies : (plainTests.detect copies).length = 1 ∧ ∀ c ∈ plainTests.detect copies,
      c.isDuplicate = true → LeadsToKept (plainTests.detect copies) c.noteId := by
  exact ⟨by decide +kernel, (leadsToKept_iff plainTests copies (by decide)).2 (by decide +kernel)⟩

def smokeCopies : List AuditRecord :=
  [⟨"1", "debug", "smoke-deploy", "text", none⟩, ⟨"2", "reference", "b", "text", none⟩]

/-- A note that has the body of an older smoke test goes together with it. -/
theorem not_leadsToKept_smokeCopies : (smokeCopies.map (·.id)).Nodup ∧
      ∃ c ∈ plainTests.detect smokeCopies, c.isDuplicate = true ∧
        ¬ LeadsToKept (plainTests.detect smokeCopies) c.noteId := by
  have hdetect : plainTests.detect smokeCopies =
      [⟨"2", .exactDuplicate, some "1"⟩, ⟨"1", .structuralJunk, none⟩] := by decide +kernel
  refine ⟨by decide, ⟨"2", .exactDuplicate, some "1"⟩, by simp [hdetect], rfl, ?_⟩
  rw [hdetect]
  have hone : ∀ id, LeadsToKept [⟨"2", .exactDuplicate, some "1"⟩, ⟨"1", .structuralJunk, none⟩] id →
      id ≠ "1" ∧ id ≠ "2" := by
    intro id h
    induction h with
    | kept h => exact ⟨fun heq => h ⟨"1", .structuralJunk, none⟩ (by simp) heq.symm rfl,
        fun heq => h ⟨"2", .exactDuplicate, some "1"⟩ (by simp) heq.symm rfl⟩
    | survivor hc hid _ ih =>
      simp only [mem_cons, not_mem_nil, or_false] at hc
      rcases hc with rfl | rfl
      · cases hid
        exact absurd rfl ih.1
      · cases hid
  exact fun h => (hone _ h).2 rfl

end Gradatum.Access
