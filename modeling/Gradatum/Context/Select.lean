import Gradatum.Access.Listing

/-!
# Notes for a context

The notes at the head of the list of candidates are taken with their bodies as long as a budget of tokens
lasts; of the others a line each is taken, up to a budget of its own.
-/

open Reasoning

namespace Gradatum.Context

open Notes List Option Nat
open Access (ApiError isSentinel)

/-! ## 1. The index of the vault -/

/-- What a context reads of a row of `notes`. -/
structure NoteRecord where
  id : String
  title : Option String
  «section» : String
  created : Int
  bodyText : String
  tagsRaw : Option String

abbrev NotesIndex := Table fun r : NoteRecord => r.id

structure SearchIndex where
  notes : NotesIndex
  /-- `get_note` fails for these ids. -/
  unreadable : String → Bool
  /-- The batch read of the tags fails. -/
  tagsFailure : Option ApiError

/-- `get_note`.  A row that cannot be read is passed over like one that is missing. -/
def SearchIndex.getNote (index : SearchIndex) (id : String) : Option NoteRecord :=
  if index.unreadable id || isSentinel id then none else index.notes.find? id

theorem id_of_getNote {index : SearchIndex} {id : String}
    (h : index.getNote id = some record) : record.id = id := by
  unfold SearchIndex.getNote at h
  split at h
  · cases h
  · exact Table.key_of_find? h

/-! ## 2. Notes and references -/

structure Candidate where
  noteId : String
  rrfScore : ℚ
  deriving DecidableEq

structure Selected where
  noteId : String
  title : String
  «section» : String
  date : String
  score : ℚ
  body : String
  deriving DecidableEq

/-- A note that is referred to instead of being quoted. -/
structure Stub where
  ulid : String
  title : String
  «section» : String
  snippet : String
  deriving DecidableEq

def renderStub (s : Stub) : String :=
  "@ref " ++ s.ulid ++ " · " ++ s.title ++ " · §" ++ s.section ++ " — " ++ s.snippet

def stubFromSelected (sel : Selected) (snippetMaxChars : Nat) : Stub where
  ulid := sel.noteId
  title := sel.title
  «section» := sel.section
  snippet := String.ofList
    ((sel.body.toList.map fun c => if c = '\n' then ' ' else c).take snippetMaxChars)

def stubSnippetChars : Nat := 120

/-- What comes from outside: the token estimator, the formats of times and numbers, the similarity of two
embeddings. -/
structure Toolkit where
  estimate : String → Nat
  /-- `DateTime::from_timestamp_millis(..)` and `to_rfc3339`. -/
  rfc3339 : Int → Option String
  /-- `{:.2}`. -/
  formatScore : ℚ → String
  cosineSimilarity : List ℚ → List ℚ → ℚ

def Toolkit.date (tools : Toolkit) (created : Int) : String :=
  (tools.rfc3339 created).getD "1970-01-01T00:00:00+00:00"

def saturatingAdd (a b : Nat) : Nat := min (a + b) (2 ^ 32 - 1)

/-! ## 3. The selection -/

def scoredBefore (a b : Candidate × ℚ) : Prop :=
  b.2 < a.2 ∨ a.2 = b.2 ∧ a.1.noteId ≤ b.1.noteId

instance : DecidableRel scoredBefore := fun a b =>
  inferInstanceAs (Decidable (b.2 < a.2 ∨ a.2 = b.2 ∧ a.1.noteId ≤ b.1.noteId))

/-- The notes that are quoted, their tokens, and the candidates from the first one that is not. -/
structure InlinePhase where
  inline : List Selected
  used : Nat
  rest : List (Candidate × ℚ)

section Selection

variable (tools : Toolkit) (index : SearchIndex)

def selectedOf (record : NoteRecord) (score : ℚ) : Selected where
  noteId := record.id
  title := record.title.getD record.id
  «section» := record.section
  date := tools.date record.created
  score := score
  body := record.bodyText

def inlinePhase (budget : Nat) (used : Nat) : List (Candidate × ℚ) → InlinePhase
  | [] => ⟨[], used, []⟩
  | (c, score) :: rest =>
    if budget ≤ used then ⟨[], used, (c, score) :: rest⟩
    else match index.getNote c.noteId with
      | none => inlinePhase budget used rest
      | some record =>
        let tokens := tools.estimate record.bodyText
        -- a smaller note further on is not looked for
        if budget < saturatingAdd used tokens then ⟨[], used, (c, score) :: rest⟩
        else
          let phase := inlinePhase budget (saturatingAdd used tokens) rest
          { phase with inline := selectedOf tools record score :: phase.inline }

/-- A reference that does not fit is dropped, and the next one is tried. -/
def stubPhase (stubBudget : Nat) (used : Nat) : List (Candidate × ℚ) → List Stub
  | [] => []
  | (c, score) :: rest =>
    if stubBudget ≤ used then []
    else match index.getNote c.noteId with
      | none => stubPhase stubBudget used rest
      | some record =>
        let stub := stubFromSelected (selectedOf tools record score) stubSnippetChars
        let tokens := tools.estimate (renderStub stub)
        if saturatingAdd used tokens ≤ stubBudget then
          stub :: stubPhase stubBudget (saturatingAdd used tokens) rest
        else stubPhase stubBudget used rest

/-- `score` is the composite score; a candidate whose data cannot be read has none and is passed over. -/
def selectBudgetAware (score : Candidate → Option ℚ) (candidates : List Candidate)
    (budget stubBudget : Nat) : List Selected × List Stub × Nat :=
  let scored := candidates.filterMap fun c => (score c).map fun value => (c, value)
  let phase := inlinePhase tools index budget 0 (scored.insertionSort scoredBefore)
  (phase.inline, stubPhase tools index stubBudget 0 phase.rest, phase.used)

variable {tools index} {budget stubBudget used : Nat} {scored : List (Candidate × ℚ)}

/-! ## 4. Where notes and references come from -/

theorem inlinePhase_rest_suffix : (inlinePhase tools index budget used scored).rest <:+ scored := by
  induction scored generalizing used with
  | nil => exact suffix_rfl
  | cons first rest ih =>
    rw [inlinePhase]
    split
    · exact suffix_rfl
    split
    · exact ih.trans (suffix_cons _ _)
    dsimp only
    split
    · exact suffix_rfl
    · exact ih.trans (suffix_cons _ _)

def readable (tools : Toolkit) (index : SearchIndex) (scored : List (Candidate × ℚ)) : List Selected :=
  scored.filterMap fun c => (index.getNote c.1.noteId).map fun record => selectedOf tools record c.2

theorem readable_cons_none (h : index.getNote first.1.noteId = none) :
    readable tools index (first :: scored) = readable tools index scored := by
  simp [readable, h]

theorem readable_cons_some (h : index.getNote first.1.noteId = some record) :
    readable tools index (first :: scored) =
      selectedOf tools record first.2 :: readable tools index scored := by
  simp [readable, h]

theorem exists_of_mem_readable (h : s ∈ readable tools index scored) :
    ∃ c ∈ scored, c.1.noteId = s.noteId := by
  obtain ⟨c, hc, hread⟩ := mem_filterMap.1 h
  obtain ⟨record, hrec, rfl⟩ := map_eq_some_iff.1 hread
  exact ⟨c, hc, (id_of_getNote hrec).symm⟩

theorem inlinePhase_append : (inlinePhase tools index budget used scored).inline ++
      readable tools index (inlinePhase tools index budget used scored).rest =
        readable tools index scored := by
  induction scored generalizing used with
  | nil => rfl
  | cons first rest ih =>
    rw [inlinePhase]
    split
    · rfl
    split
    · rename_i hnone
      rw [readable_cons_none hnone]
      exact ih
    rename_i record hrec
    dsimp only
    split
    · rfl
    · rw [readable_cons_some hrec, cons_append, ih]

def stubOf (s : Selected) : Stub := stubFromSelected s stubSnippetChars

theorem stubPhase_sublist :
    (stubPhase tools index stubBudget used scored).Sublist ((readable tools index scored).map stubOf) := by
  induction scored generalizing used with
  | nil => exact List.Sublist.refl _
  | cons first rest ih =>
    rw [stubPhase]
    split
    · exact nil_sublist _
    split
    · rename_i hnone
      rw [readable_cons_none hnone]
      exact ih
    rename_i record hrec
    rw [readable_cons_some hrec, map_cons]
    dsimp only
    split
    · exact ih.cons_cons _
    · exact ih.cons _

theorem exists_of_mem_inlinePhase (h : s ∈ (inlinePhase tools index budget used scored).inline) :
    ∃ c ∈ scored, c.1.noteId = s.noteId := by
  have hmem : s ∈ readable tools index scored := by
    rw [← inlinePhase_append]
    exact mem_append_left _ h
  exact exists_of_mem_readable hmem

theorem exists_of_mem_stubPhase (h : s ∈ stubPhase tools index stubBudget used scored) :
    ∃ c ∈ scored, c.1.noteId = s.ulid := by
  obtain ⟨note, hnote, rfl⟩ := List.mem_map.1 (stubPhase_sublist.subset h)
  exact exists_of_mem_readable hnote

variable {score : Candidate → Option ℚ} {candidates : List Candidate}

theorem mem_scored (h : c ∈ (candidates.filterMap fun c =>
    (score c).map fun value => (c, value)).insertionSort scoredBefore) : c.1 ∈ candidates := by
  rw [mem_insertionSort, mem_filterMap] at h
  obtain ⟨found, hfound, hscore⟩ := h
  obtain ⟨value, -, rfl⟩ := map_eq_some_iff.1 hscore
  exact hfound

theorem exists_candidate_of_inline
    (h : s ∈ (selectBudgetAware tools index score candidates budget stubBudget).1) :
    ∃ c ∈ candidates, c.noteId = s.noteId := by
  obtain ⟨c, hc, hid⟩ := exists_of_mem_inlinePhase h
  exact ⟨c.1, mem_scored hc, hid⟩

theorem exists_candidate_of_stub
    (h : s ∈ (selectBudgetAware tools index score candidates budget stubBudget).2.1) :
    ∃ c ∈ candidates, c.noteId = s.ulid := by
  obtain ⟨c, hc, hid⟩ := exists_of_mem_stubPhase h
  exact ⟨c.1, mem_scored (inlinePhase_rest_suffix.subset hc), hid⟩

/-! ## 5. The budgets -/

def bodyTokens (tools : Toolkit) (s : Selected) : Nat := tools.estimate s.body

def stubTokens (tools : Toolkit) (s : Selected) : Nat := tools.estimate (renderStub (stubOf s))

theorem saturatingAdd_eq (h : a + b < 2 ^ 32) : saturatingAdd a b = a + b := by
  unfold saturatingAdd
  omega

theorem inlinePhase_spends (hsum : used + ((readable tools index scored).map (bodyTokens tools)).sum < 2 ^ 32)
    (hused : used ≤ budget) :
    let phase := inlinePhase tools index budget used scored
    phase.used = used + (phase.inline.map (bodyTokens tools)).sum ∧ phase.used ≤ budget ∧
      ∀ next ∈ (readable tools index phase.rest).head?,
        budget ≤ phase.used ∨ budget < phase.used + bodyTokens tools next := by
  induction scored generalizing used with
  | nil => exact ⟨rfl, hused, nofun⟩
  | cons first rest ih =>
    rw [inlinePhase]
    split
    · rename_i hfull
      exact ⟨rfl, hused, fun _ _ => .inl hfull⟩
    split
    · rename_i hnone
      rw [readable_cons_none hnone] at hsum
      exact ih hsum hused
    rename_i record hrec
    rw [readable_cons_some hrec, map_cons, sum_cons, ← add_assoc] at hsum
    have hadd : saturatingAdd used (tools.estimate record.bodyText) =
        used + bodyTokens tools (selectedOf tools record first.2) :=
      saturatingAdd_eq (lt_of_le_of_lt (le_add_right _ _) hsum)
    dsimp only
    rw [hadd]
    split
    · rename_i hover
      refine ⟨rfl, hused, fun next hnext => .inr ?_⟩
      rw [readable_cons_some hrec] at hnext
      cases hnext
      exact hover
    · rename_i hfits
      obtain ⟨hspent, hwith, hnext⟩ := ih hsum (Nat.le_of_not_lt hfits)
      refine ⟨?_, hwith, hnext⟩
      rw [hspent, map_cons, sum_cons, add_assoc]

theorem stubPhase_spends (hsum : used + ((readable tools index scored).map (stubTokens tools)).sum < 2 ^ 32)
    (hused : used ≤ stubBudget) :
    used + ((stubPhase tools index stubBudget used scored).map fun s => tools.estimate (renderStub s)).sum ≤
      stubBudget := by
  induction scored generalizing used with
  | nil => exact hused
  | cons first rest ih =>
    rw [stubPhase]
    split
    · exact hused
    split
    · rename_i hnone
      rw [readable_cons_none hnone] at hsum
      exact ih hsum hused
    rename_i record hrec
    rw [readable_cons_some hrec, map_cons, sum_cons, ← add_assoc] at hsum
    have hadd : saturatingAdd used
        (tools.estimate (renderStub (stubFromSelected (selectedOf tools record first.2) stubSnippetChars))) =
        used + stubTokens tools (selectedOf tools record first.2) :=
      saturatingAdd_eq (lt_of_le_of_lt (le_add_right _ _) hsum)
    dsimp only
    rw [hadd]
    split
    · rename_i hfits
      rw [map_cons, sum_cons, ← add_assoc]
      exact ih hsum hfits
    · exact ih (by omega) hused

instance : Std.Total scoredBefore where
  total a b := by
    rcases lt_trichotomy a.2 b.2 with hlt | heq | hlt
    · exact .inr (.inl hlt)
    · rcases String.le_total a.1.noteId b.1.noteId with hle | hle
      · exact .inl (.inr ⟨heq, hle⟩)
      · exact .inr (.inr ⟨heq.symm, hle⟩)
    · exact .inl (.inl hlt)

instance : IsTrans (Candidate × ℚ) scoredBefore where
  trans a b c := by
    rintro (hab | ⟨hab, hid⟩) (hbc | ⟨hbc, hid'⟩)
    · exact .inl (hbc.trans hab)
    · exact .inl (hbc ▸ hab)
    · exact .inl (hab ▸ hbc)
    · exact .inr ⟨hab.trans hbc, String.le_trans hid hid'⟩

def scoredCandidates (score : Candidate → Option ℚ) (candidates : List Candidate) : List (Candidate × ℚ) :=
  candidates.filterMap fun c => (score c).map fun value => (c, value)

/-- The notes of `ranked` that fit into the budget are quoted, and some of the others are referred to. -/
structure PrefixPolicy (tools : Toolkit) (budget stubBudget : Nat) (ranked : List Selected)
    (result : List Selected × List Stub × Nat) : Prop where
  ordered : ranked.Pairwise fun a b => b.score < a.score ∨ a.score = b.score ∧ a.noteId < b.noteId
  quoted : result.1 <+: ranked
  spent : result.2.2 = (result.1.map (bodyTokens tools)).sum
  within : result.2.2 ≤ budget
  stops : ∀ next, ranked[result.1.length]? = some next →
    result.2.2 = budget ∨ budget < result.2.2 + bodyTokens tools next
  referred : result.2.1.Sublist ((ranked.drop result.1.length).map stubOf)
  disjoint : ∀ s ∈ result.1, ∀ stub ∈ result.2.1, s.noteId ≠ stub.ulid
  stubsWithin : (result.2.1.map fun stub => tools.estimate (renderStub stub)).sum ≤ stubBudget

theorem prefixPolicy_of_ordered (hordered : (readable tools index scored).Pairwise fun a b =>
      b.score < a.score ∨ a.score = b.score ∧ a.noteId ≤ b.noteId)
    (hne : (readable tools index scored).Pairwise fun a b => a.noteId ≠ b.noteId)
    (hinl : ((readable tools index scored).map (bodyTokens tools)).sum < 2 ^ 32)
    (hstubs : ((readable tools index scored).map (stubTokens tools)).sum < 2 ^ 32) :
    PrefixPolicy tools budget stubBudget (readable tools index scored)
      ((inlinePhase tools index budget 0 scored).inline,
        stubPhase tools index stubBudget 0 (inlinePhase tools index budget 0 scored).rest,
        (inlinePhase tools index budget 0 scored).used) := by
  obtain ⟨hspent, hwith, hnext⟩ :=
    inlinePhase_spends (by rwa [zero_add]) (zero_le budget)
  have hsplit : (inlinePhase tools index budget 0 scored).inline ++ _ = readable tools index scored :=
    inlinePhase_append
  generalize inlinePhase tools index budget 0 scored = phase at hspent hwith hnext hsplit ⊢
  have hdrop : (readable tools index scored).drop phase.inline.length = readable tools index phase.rest := by
    rw [← hsplit, drop_left]
  have hparts := hne
  rw [← hsplit, pairwise_append] at hparts
  exact
    { ordered := (hordered.and hne).imp fun ⟨horder, hid⟩ => horder.imp_right fun ⟨hscore, hle⟩ =>
        ⟨hscore, String.not_le.1 fun hge => hid (String.le_antisymm hle hge)⟩
      quoted := ⟨_, hsplit⟩
      spent := by rw [hspent, zero_add]
      within := hwith
      stops := by
        intro next hat
        rw [← head?_drop, hdrop] at hat
        exact (hnext next hat).imp_left (le_antisymm hwith)
      referred := by
        rw [hdrop]
        exact stubPhase_sublist
      disjoint := by
        intro s hs stub hstub
        obtain ⟨note, hnote, rfl⟩ := List.mem_map.1 (stubPhase_sublist.subset hstub)
        exact hparts.2.2 s hs note hnote
      stubsWithin := by
        rw [← hsplit, map_append, List.sum_append] at hstubs
        have hrest : 0 + ((readable tools index phase.rest).map (stubTokens tools)).sum < 2 ^ 32 := by omega
        have hspends := stubPhase_spends hrest (zero_le stubBudget)
        rwa [zero_add] at hspends }

theorem ids_readable_ne (hids : (candidates.map Candidate.noteId).Nodup)
    (hperm : scored.Perm (scoredCandidates score candidates)) :
    (readable tools index scored).Pairwise fun a b => a.noteId ≠ b.noteId := by
  have hscor : scored.Pairwise fun a b => a.1.noteId ≠ b.1.noteId := by
    refine (hperm.pairwise_iff fun h => h.symm).2 (List.Pairwise.filterMap _ ?_ (pairwise_map.1 hids))
    intro a b hne pair hpair pair' hpair'
    obtain ⟨value, -, rfl⟩ := map_eq_some_iff.1 hpair
    obtain ⟨value', -, rfl⟩ := map_eq_some_iff.1 hpair'
    exact hne
  refine List.Pairwise.filterMap _ ?_ hscor
  intro a b hne s hs s' hs'
  obtain ⟨record, hrec, rfl⟩ := map_eq_some_iff.1 hs
  obtain ⟨record', hrec', rfl⟩ := map_eq_some_iff.1 hs'
  change record.id ≠ record'.id
  rwa [id_of_getNote hrec, id_of_getNote hrec']

theorem ordered_readable (h : scored.Pairwise scoredBefore) :
    (readable tools index scored).Pairwise fun a b =>
      b.score < a.score ∨ a.score = b.score ∧ a.noteId ≤ b.noteId := by
  refine List.Pairwise.filterMap _ ?_ h
  intro a b horder s hs s' hs'
  obtain ⟨record, hrec, rfl⟩ := map_eq_some_iff.1 hs
  obtain ⟨record', hrec', rfl⟩ := map_eq_some_iff.1 hs'
  change _ ∨ _ ∧ record.id ≤ record'.id
  rwa [id_of_getNote hrec, id_of_getNote hrec']

theorem selectBudgetAware_prefixPolicy (hids : (candidates.map Candidate.noteId).Nodup)
    (hinline : ((readable tools index (scoredCandidates score candidates)).map (bodyTokens tools)).sum < 2 ^ 32)
    (hstubs : ((readable tools index (scoredCandidates score candidates)).map (stubTokens tools)).sum < 2 ^ 32) :
    ∃ ranked : List Selected, ranked.Perm (readable tools index (scoredCandidates score candidates)) ∧
      PrefixPolicy tools budget stubBudget ranked
        (selectBudgetAware tools index score candidates budget stubBudget) := by
  have hperm := perm_insertionSort scoredBefore (scoredCandidates score candidates)
  have hranked : (readable tools index _).Perm (readable tools index _) := hperm.filterMap _
  rw [← (hranked.map _).sum_nat] at hinline hstubs
  exact ⟨_, hranked, prefixPolicy_of_ordered (ordered_readable (pairwise_insertionSort _ _))
    (ids_readable_ne hids hperm) hinline hstubs⟩

end Selection

def lengthTools : Toolkit := ⟨String.length, fun _ => none, fun _ => "", fun _ _ => 0⟩

/-- Five notes, of which `E` cannot be read. -/
def fiveNotes : SearchIndex where
  notes := ⟨["A", "B", "C", "D", "E"].map fun id => ⟨id, none, "decisions", 0, "text", none⟩, by decide⟩
  unreadable := (· = "E")
  tagsFailure := none

def fiveCandidates : List Candidate := [⟨"D", 1⟩, ⟨"B", 3⟩, ⟨"E", 4⟩, ⟨"A", 3⟩, ⟨"C", 2⟩]

/-- `A` and `B` have the same score and fill the budget; there is room for one reference. -/
theorem selectBudgetAware_prefixPolicy_fiveNotes :
    let result := selectBudgetAware lengthTools fiveNotes (some ·.rrfScore) fiveCandidates 10 40
    (result.1.map Selected.noteId = ["A", "B"] ∧ result.2.1.map Stub.ulid = ["C"] ∧ result.2.2 = 8) ∧
      ∃ ranked : List Selected,
        ranked.Perm (readable lengthTools fiveNotes (scoredCandidates (some ·.rrfScore) fiveCandidates)) ∧
        PrefixPolicy lengthTools 10 40 ranked result :=
  ⟨by decide +kernel, selectBudgetAware_prefixPolicy (by decide) (by decide +kernel) (by decide +kernel)⟩

end Gradatum.Context
