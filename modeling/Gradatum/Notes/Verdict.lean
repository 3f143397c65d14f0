import Gradatum.Notes.Store

/-!
# What the block of a note says

A re-scan whose verdict has the block that the note carries leaves the note as it is.  The block does not hold
all that the verdict was made of.
-/

namespace Gradatum.Notes

open List Option

/-! ## 1. Blocks that differ in their time -/

def Toml.without (key : String) : Toml → Toml
  | .table entries => .table (entries.filter (·.1 ≠ key))
  | value => value

def sameBlockModuloScannedAt (a b : Toml) : Bool := a.without "scanned_at" = b.without "scanned_at"

/-- The ceiling makes a truncated pass of a complete one. -/
def recordedStatus (status : ScanStatus) (spans : List PiiSpan) : ScanStatus :=
  if status = .ok ∧ maxSpans < spans.length then .spansTruncated else status

theorem Review.asStr_injective : Function.Injective Review.asStr := by
  intro a b h
  cases a <;> cases b <;> first | rfl | exact absurd h (by decide)

theorem ScanStatus.asStr_injective : Function.Injective ScanStatus.asStr := by
  intro a b h
  cases a <;> cases b <;> first | rfl | exact absurd h (by decide)

theorem PiiCategory.asStr_injective : Function.Injective PiiCategory.asStr := by
  intro a b h
  cases a <;> cases b <;> first | rfl | exact absurd h (by decide)

theorem spanValue_injective : Function.Injective spanValue := by
  intro a b h
  obtain ⟨start, len, category, score⟩ := a
  obtain ⟨start', len', category', score'⟩ := b
  simp only [spanValue, Toml.text, Toml.int, Toml.table.injEq, List.cons.injEq, Prod.mk.injEq, true_and,
    Toml.scalar.injEq, Scalar.string.injEq, Scalar.integer.injEq, Int.natCast_inj, and_true] at h
  obtain ⟨hcat, rfl, rfl, rfl⟩ := h
  rw [PiiCategory.asStr_injective hcat]

namespace PrivacySettings

variable {settings : PrivacySettings} {identity : DetectorIdentity}

theorem sameBlock_block_iff :
    sameBlockModuloScannedAt (settings.block identity status spans at₁ review).value
        (settings.block identity status' spans' at₂ review').value = true ↔
      counts spans = counts spans' ∧ review = review' ∧
        (settings.policy.masks = false → spans.take maxSpans = spans'.take maxSpans) ∧
        settings.spansDigest (spans.take maxSpans) = settings.spansDigest (spans'.take maxSpans) ∧
        recordedStatus status spans = recordedStatus status' spans' := by
  have hstat : (if status = .ok ∧ maxSpans < spans.length then ScanStatus.spansTruncated else status) =
      recordedStatus status spans := rfl
  have hstat' : (if status' = .ok ∧ maxSpans < spans'.length then ScanStatus.spansTruncated else status') =
      recordedStatus status' spans' := rfl
  have hspans : (spans.map spanValue).take maxSpans = (spans'.map spanValue).take maxSpans ↔
      spans.take maxSpans = spans'.take maxSpans := by
    rw [← map_take, ← map_take]
    exact (map_injective_iff.2 spanValue_injective).eq_iff
  unfold block
  rw [hstat, hstat']
  -- the other entries are the same in both, and the time is left out
  cases hmasks : settings.policy.masks <;>
    simp [sameBlockModuloScannedAt, Toml.without, Toml.text, hspans, Review.asStr_injective.eq_iff,
      ScanStatus.asStr_injective.eq_iff]

def carriedReview (settings : PrivacySettings) (outcome : PassOutcome) (previous : Option Toml) : Review :=
  match previous with
  | some prev =>
    if digestOf prev = some (settings.spansDigest (outcome.spans.take maxSpans)) then Review.of prev
    else .pending
  | none => .pending

theorem block_unscanned (status : ScanStatus) (spans : List PiiSpan) (scannedAt : String) (review : Review) :
    (settings.block identity status spans scannedAt review).unscanned =
      decide (recordedStatus status spans ≠ .ok) := by
  show (recordedStatus status spans).isUnscanned = _
  cases recordedStatus status spans <;> rfl

section Tags

variable (outcome : PassOutcome) (scannedAt : String) (previous : Option Toml)

theorem verdict_block : (settings.verdict identity outcome scannedAt previous).block =
    (settings.block identity outcome.status outcome.spans scannedAt
      (settings.carriedReview outcome previous)).value := rfl

theorem verdict_classified : (settings.verdict identity outcome scannedAt previous).classified =
    if settings.carriedReview outcome previous = .rejected then .retire
    else if recordedStatus outcome.status outcome.spans ≠ .ok then .keep
    else if markable outcome.spans settings.policy then .pose else .retire := by
  have hdef : (settings.verdict identity outcome scannedAt previous).classified =
      if settings.carriedReview outcome previous = .rejected then .retire
      else if (settings.block identity outcome.status outcome.spans scannedAt
        (settings.carriedReview outcome previous)).unscanned then .keep
      else if markable outcome.spans settings.policy then .pose else .retire := rfl
  rw [hdef, block_unscanned]
  simp only [decide_eq_true_eq]

theorem verdict_unscanned : (settings.verdict identity outcome scannedAt previous).unscanned =
    if recordedStatus outcome.status outcome.spans ≠ .ok then .pose else .retire := by
  have hdef : (settings.verdict identity outcome scannedAt previous).unscanned =
      if (settings.block identity outcome.status outcome.spans scannedAt
        (settings.carriedReview outcome previous)).unscanned then .pose else .retire := rfl
  rw [hdef, block_unscanned]
  simp only [decide_eq_true_eq]

end Tags

theorem recordedStatus_eq_ok_iff :
    recordedStatus status spans = .ok ↔ status = .ok ∧ spans.length ≤ maxSpans := by
  unfold recordedStatus
  split
  · rename_i htruncated
    simp only [reduceCtorEq, false_iff, not_and, Nat.not_le]
    exact fun _ => htruncated.2
  rename_i hnot
  rw [not_and, Nat.not_lt] at hnot
  exact (and_iff_left_of_imp hnot).symm

/-! ## 2. The block and the tags -/

/-- The block decides the tags: verdicts of two passes over one note that differ in their tags differ in
their blocks. -/
def BlockDecidesTags (settings : PrivacySettings) (identity : DetectorIdentity) : Prop :=
  ∀ (previous : Option Toml) (outcome outcome' : PassOutcome) (at₁ at₂ : String),
    sameBlockModuloScannedAt (settings.verdict identity outcome at₁ previous).block
        (settings.verdict identity outcome' at₂ previous).block = true →
      (settings.verdict identity outcome at₁ previous).classified =
          (settings.verdict identity outcome' at₂ previous).classified ∧
        (settings.verdict identity outcome at₁ previous).unscanned =
          (settings.verdict identity outcome' at₂ previous).unscanned

/-- A block that holds the spans of a complete pass decides the tags; one that does not, under a policy that
masks, decides them if nothing is ever marked. -/
theorem blockDecidesTags_iff : settings.BlockDecidesTags identity ↔
    settings.policy.masks = false ∨ ∀ span, settings.policy.marks span = false := by
  constructor
  · intro h
    by_contra hnot
    rw [not_or, Bool.not_eq_false, not_forall] at hnot
    obtain ⟨hmasks, span, hmarks⟩ := hnot
    rw [Bool.not_eq_false] at hmarks
    -- the same span, once with its score and once without
    have hlow : settings.policy.marks { span with scoreM := 0 } = false := by
      unfold PrivacyPolicy.marks
      cases settings.policy.thresholdM span.category with
      | none => rfl
      | some threshold =>
        rw [any_some, Bool.and_eq_false_iff, decide_eq_false_iff_not, decide_eq_false_iff_not]
        dsimp only
        omega
    have hblock : sameBlockModuloScannedAt
        (settings.verdict identity ⟨.ok, [span]⟩ "" none).block
        (settings.verdict identity ⟨.ok, [{ span with scoreM := 0 }]⟩ "" none).block = true := by
      rw [verdict_block, verdict_block, sameBlock_block_iff]
      refine ⟨rfl, rfl, fun hrep => ?_, ?_, rfl⟩
      · rw [hmasks] at hrep
        cases hrep
      · simp [spansDigest, PiiSpan.line, PiiSpan.end, maxSpans]
    have hclassified := (h none _ _ "" "" hblock).1
    rw [verdict_classified, verdict_classified] at hclassified
    simp [carriedReview, recordedStatus, maxSpans, markable, hmarks, hlow] at hclassified
  · intro hcond previous outcome outcome' at₁ at₂ hblock
    rw [verdict_block, verdict_block, sameBlock_block_iff] at hblock
    obtain ⟨-, hrev, hspans, -, hstat⟩ := hblock
    rw [verdict_classified, verdict_classified, verdict_unscanned, verdict_unscanned, hrev, hstat]
    refine ⟨?_, rfl⟩
    by_cases hok : recordedStatus outcome'.status outcome'.spans = .ok
    · have hmarkable : markable outcome.spans settings.policy = markable outcome'.spans settings.policy := by
        rcases hcond with hrep | hnone
        · have htake := hspans hrep
          rw [take_of_length_le ((recordedStatus_eq_ok_iff.1 (hstat.trans hok)).2),
            take_of_length_le ((recordedStatus_eq_ok_iff.1 hok).2)] at htake
          rw [htake]
        · unfold markable
          rw [List.any_eq_false.2 fun span _ => ne_true_of_eq_false (hnone span),
            List.any_eq_false.2 fun span _ => ne_true_of_eq_false (hnone span)]
      rw [hmarkable]
    · rw [if_pos hok, if_pos hok]

end PrivacySettings

/-- A detector, and a policy that masks e-mail addresses of score 500 and more. -/
def maskingSettings : PrivacySettings where
  identity := some ⟨"regex", "", "builtin", 1, "", "calibrated-span"⟩
  policy := ⟨true, fun category => if category = .email then some 500 else none⟩
  policyDigest := ""
  sha256 := id

/-- An address that one pass scores above the threshold and another below it gives the same block. -/
theorem not_blockDecidesTags_maskingSettings :
    ¬ maskingSettings.BlockDecidesTags ⟨"regex", "", "builtin", 1, "", "calibrated-span"⟩ := by
  intro h
  have hsame := h none ⟨.ok, [⟨0, 5, .email, 900⟩]⟩ ⟨.ok, [⟨0, 5, .email, 100⟩]⟩ "" "" (by decide +kernel)
  revert hsame
  decide +kernel

theorem mem_applyReservedTag_of_ne (hne : tag ≠ reserved) (action : TagAction) :
    tag ∈ applyReservedTag tags reserved action ↔ tag ∈ tags := by
  cases action with
  | keep => rfl
  | pose =>
    rw [applyReservedTag]
    split
    · rfl
    · rw [mem_append, mem_singleton]
      exact or_iff_left hne
  | retire =>
    rw [applyReservedTag, mem_filter, decide_eq_true_eq]
    exact and_iff_left hne

theorem mem_applyReservedTag_self : reserved ∈ applyReservedTag tags reserved action ↔
      action = .pose ∨ action = .keep ∧ reserved ∈ tags := by
  cases action with
  | keep | retire => simp [applyReservedTag]
  | pose =>
    rw [applyReservedTag]
    split <;> simp_all

namespace PrivacySettings

variable {settings : PrivacySettings}

theorem mem_carryTags {prev : Note} (tags : List Tag) (hresv : isReserved tag = true)
    (hheld : (held && tag == classifiedTag) = false) (hmem : tag ∈ prev.frontmatter.tags) :
    tag ∈ carryTags (some prev) held tags := by
  -- a tag that is there stays, and one that is not is added in its turn
  have hfold : ∀ (old tags : List Tag), tag ∈ old ∨ tag ∈ tags →
      tag ∈ old.foldl (fun tags tag =>
        if !isReserved tag || (held && tag == classifiedTag) || tags.contains tag then tags
        else tags ++ [tag]) tags := by
    intro old
    induction old with
    | nil => simp
    | cons first old ih =>
      intro tags hin
      rw [foldl_cons]
      apply ih
      by_cases hold : tag ∈ old
      · exact .inl hold
      right
      by_cases htags : tag ∈ tags
      · split
        · exact htags
        · exact mem_append_left _ htags
      have hfirst : tag = first := by simpa [hold, htags] using hin
      rw [← hfirst, hresv, hheld]
      simp [htags]
  exact hfold prev.frontmatter.tags tags (.inl hmem)

/-! ## 3. How a marker is lost -/

/-- The entries beside the review are the same. -/
def differsOnlyInReview : Toml → Toml → Bool
  | .table incoming, .table recorded =>
    (incoming.all fun (key, value) => key == "review" || recorded.lookup key == some value) &&
      recorded.all fun (key, value) => key == "review" || incoming.lookup key == some value
  | _, _ => false

def cleanPass (settings : PrivacySettings) (outcome : PassOutcome) : Bool :=
  outcome.status = .ok && outcome.spans.length ≤ maxSpans && !markable outcome.spans settings.policy

theorem cleanPass_iff : settings.cleanPass outcome = true ↔
    recordedStatus outcome.status outcome.spans = .ok ∧ markable outcome.spans settings.policy = false := by
  rw [recordedStatus_eq_ok_iff, cleanPass, Bool.and_eq_true, Bool.and_eq_true, decide_eq_true_eq,
    decide_eq_true_eq, Bool.not_eq_true']

def rejects (settings : PrivacySettings) (outcome : PassOutcome) (block : Toml) : Bool :=
  Review.of block = .rejected && digestOf block = some (settings.spansDigest (outcome.spans.take maxSpans))

def statesRejection (settings : PrivacySettings) (frontmatter : Frontmatter) (prev : Note)
    (outcome : PassOutcome) (same : Toml → Toml → Bool) : Bool :=
  (frontmatter.extra blockKey).any fun incoming => (prev.frontmatter.extra blockKey).any fun recorded =>
    same incoming recorded && settings.rejects outcome incoming

/-- A marker of the previous version is lost through a verdict alone. -/
structure MarkersKept (settings : PrivacySettings) (scannedAt : String) (frontmatter : Frontmatter)
    (prev : Note) (outcome : Option PassOutcome) : Prop where
  classified : classifiedTag ∈ prev.frontmatter.tags →
    classifiedTag ∉ (settings.decidePrivacy scannedAt frontmatter (some prev) outcome).tags →
      outcome.any settings.cleanPass = true ∨ binds (some prev) = true ∨
        outcome.any (settings.statesRejection frontmatter prev · differsOnlyInReview) = true
  unscanned : unscannedTag ∈ prev.frontmatter.tags →
    unscannedTag ∉ (settings.decidePrivacy scannedAt frontmatter (some prev) outcome).tags →
      outcome.any (·.status = .ok) = true
  recorded : outcome.isSome → settings.identity.isSome →
    (unscannedTag ∈ (settings.decidePrivacy scannedAt frontmatter (some prev) outcome).tags ↔
      (((settings.decidePrivacy scannedAt frontmatter (some prev) outcome).extra blockKey).bind
        (·.get? "status")) ≠ some (.text "ok"))

/-- The write rejects the spans of a pass over a block that it composed: the entries beside the review are
as many as those of the recorded block, but not the same. -/
def composedRejection (settings : PrivacySettings) (frontmatter : Frontmatter) (prev : Note)
    (outcome : Option PassOutcome) : Bool :=
  prev.frontmatter.tags.contains classifiedTag && settings.identity.isSome && !binds (some prev) &&
    outcome.any fun outcome => !settings.cleanPass outcome &&
      settings.statesRejection frontmatter prev outcome movesOnlyTheReview &&
      !settings.statesRejection frontmatter prev outcome differsOnlyInReview

section Markers

variable {frontmatter : Frontmatter} {prev : Note} {existing : Option Note}
  {identity : DetectorIdentity}

theorem binds_iff : binds (some prev) = true ↔
    ∃ recorded, prev.frontmatter.extra blockKey = some recorded ∧ Review.of recorded = .rejected := by
  rw [binds, previousBlock, bind_some]
  cases prev.frontmatter.extra blockKey with
  | none => simp
  | some recorded => simp [bindsTheTag]

/-- The block whose review the pass resolves. -/
def judgedBlock (frontmatter : Frontmatter) (existing : Option Note) : Option Toml :=
  carriedBlock existing (carryExtra existing frontmatter.extra)

theorem judgedBlock_cases {block : Toml} (h : judgedBlock frontmatter (some prev) = some block) :
    prev.frontmatter.extra blockKey = some block ∨ ∃ recorded, frontmatter.extra blockKey = some block ∧
        prev.frontmatter.extra blockKey = some recorded ∧ movesOnlyTheReview block recorded = true := by
  rw [judgedBlock, carriedBlock] at h
  have hprev : previousBlock (some prev) = prev.frontmatter.extra blockKey := rfl
  have hextra : carryExtra (some prev) frontmatter.extra blockKey =
      (frontmatter.extra blockKey).or (prev.frontmatter.extra blockKey) := rfl
  rw [hprev, hextra] at h
  cases hinc : frontmatter.extra blockKey with
  | none =>
    rw [hinc, none_or] at h
    left
    split at h
    · rename_i recorded hrecd
      split at h
      · rw [hrecd]
        exact h
      · exact h
    · exact h
  | some incoming =>
    rw [hinc, some_or] at h
    dsimp only at h
    split at h
    · rename_i hmoves
      cases h
      obtain ⟨recorded, hrecd, hmoves⟩ := (Option.any_eq_true _ _).1 hmoves
      exact .inr ⟨recorded, rfl, hrecd, hmoves⟩
    · exact .inl h

theorem exists_of_carriedReview (h : settings.carriedReview outcome previous = .rejected) :
    ∃ block, previous = some block ∧ settings.rejects outcome block = true := by
  unfold carriedReview at h
  split at h
  · rename_i block
    split at h
    · rename_i hdig
      exact ⟨block, rfl, by rw [rejects, decide_eq_true h, decide_eq_true hdig]; rfl⟩
    · cases h
  · cases h

theorem carriedReview_judgedBlock
    (h : settings.carriedReview outcome (judgedBlock frontmatter (some prev)) = .rejected) :
    binds (some prev) = true ∨
      settings.statesRejection frontmatter prev outcome movesOnlyTheReview = true := by
  obtain ⟨block, hblock, hrej⟩ := exists_of_carriedReview h
  rcases judgedBlock_cases hblock with hrecd | ⟨recorded, hinc, hrecd, hmoves⟩
  · left
    rw [rejects, Bool.and_eq_true, decide_eq_true_eq] at hrej
    exact binds_iff.2 ⟨block, hrecd, hrej.1⟩
  right
  rw [statesRejection, hinc, hrecd, any_some, any_some, hmoves, hrej]
  rfl

theorem carriedReview_of_statesRejection
    (h : settings.statesRejection frontmatter prev outcome movesOnlyTheReview = true) :
    settings.carriedReview outcome (judgedBlock frontmatter (some prev)) = .rejected := by
  rw [statesRejection, Option.any_eq_true] at h
  obtain ⟨incoming, hinc, h⟩ := h
  rw [Option.any_eq_true] at h
  obtain ⟨recorded, hrecd, h⟩ := h
  rw [Bool.and_eq_true, rejects, Bool.and_eq_true, decide_eq_true_eq, decide_eq_true_eq] at h
  obtain ⟨hmoves, hrev, hdig⟩ := h
  have hblock : judgedBlock frontmatter (some prev) = some incoming := by
    simp [judgedBlock, carriedBlock, carryExtra, previousBlock, hinc, hrecd, hmoves]
  rw [hblock, carriedReview, if_pos hdig, hrev]

section Pass

variable (hidentity : settings.identity = some identity)

include hidentity

theorem tags_of_pass : (settings.decidePrivacy scannedAt frontmatter existing (some outcome)).tags =
    applyReservedTag (applyReservedTag (carryTags existing (binds existing) frontmatter.tags)
        unscannedTag (settings.verdict identity outcome scannedAt (judgedBlock frontmatter existing)).unscanned)
      classifiedTag (settings.verdict identity outcome scannedAt (judgedBlock frontmatter existing)).classified := by
  simp only [decidePrivacy, decideTagsAndExtra, hidentity]
  rfl

theorem block_of_pass :
    (settings.decidePrivacy scannedAt frontmatter existing (some outcome)).extra blockKey =
      some (settings.verdict identity outcome scannedAt (judgedBlock frontmatter existing)).block := by
  simp only [decidePrivacy, decideTagsAndExtra, hidentity]
  exact Function.update_self _ _ _

theorem unscanned_of_pass :
    unscannedTag ∈ (settings.decidePrivacy scannedAt frontmatter existing (some outcome)).tags ↔
      recordedStatus outcome.status outcome.spans ≠ .ok := by
  rw [tags_of_pass hidentity, mem_applyReservedTag_of_ne (by decide), mem_applyReservedTag_self,
    verdict_unscanned]
  split <;> simp_all

theorem status_of_pass :
    (((settings.decidePrivacy scannedAt frontmatter existing (some outcome)).extra blockKey).bind
        (·.get? "status")) ≠ some (.text "ok") ↔ recordedStatus outcome.status outcome.spans ≠ .ok := by
  have hstat : (settings.verdict identity outcome scannedAt (judgedBlock frontmatter existing)).block.get?
      "status" = some (.text (recordedStatus outcome.status outcome.spans).asStr) := rfl
  rw [block_of_pass hidentity, bind_some, hstat]
  simp only [ne_eq, Option.some.injEq, Toml.text, Toml.scalar.injEq, Scalar.string.injEq]
  exact not_congr (ScanStatus.asStr_injective.eq_iff (b := .ok))

theorem classified_of_pass (hcarry : classifiedTag ∈
      carryTags (some prev) (binds (some prev)) frontmatter.tags) :
    classifiedTag ∈ (settings.decidePrivacy scannedAt frontmatter (some prev) (some outcome)).tags ↔
      settings.carriedReview outcome (judgedBlock frontmatter (some prev)) ≠ .rejected ∧
        settings.cleanPass outcome = false := by
  have hunscanned : classifiedTag ∈ applyReservedTag
      (carryTags (some prev) (binds (some prev)) frontmatter.tags) unscannedTag
      (settings.verdict identity outcome scannedAt (judgedBlock frontmatter (some prev))).unscanned :=
    (mem_applyReservedTag_of_ne (by decide) _).2 hcarry
  rw [tags_of_pass hidentity, mem_applyReservedTag_self, verdict_classified, ← Bool.not_eq_true,
    cleanPass_iff]
  simp only [hunscanned, and_true]
  split_ifs <;> simp_all

end Pass

theorem tags_of_no_pass (hnone : outcome = none ∨ settings.identity = none) :
    (settings.decidePrivacy scannedAt frontmatter (some prev) outcome).tags =
      if binds (some prev) then
        applyReservedTag (carryTags (some prev) (binds (some prev)) frontmatter.tags) classifiedTag .retire
      else carryTags (some prev) (binds (some prev)) frontmatter.tags := by
  unfold decidePrivacy decideTagsAndExtra
  dsimp only
  split
  · rename_i hidentity
    rcases hnone with hnone | hnone
    · cases hnone
    · cases hidentity.symm.trans hnone
  · rfl

theorem classified_carried (hprev : classifiedTag ∈ prev.frontmatter.tags)
    (hbinds : binds (some prev) = false) :
    classifiedTag ∈ carryTags (some prev) (binds (some prev)) frontmatter.tags :=
  mem_carryTags _ rfl (by rw [hbinds]; rfl) hprev

theorem unscanned_carried (hprev : unscannedTag ∈ prev.frontmatter.tags) :
    unscannedTag ∈ carryTags (some prev) (binds (some prev)) frontmatter.tags :=
  mem_carryTags _ rfl (by rw [show (unscannedTag == classifiedTag) = false by decide, Bool.and_false]) hprev

theorem markersKept_of_no_pass (hnone : outcome = none ∨ settings.identity = none) :
    settings.MarkersKept scannedAt frontmatter prev outcome where
  classified := by
    intro hprev hlost
    right
    left
    by_contra hbinds
    rw [Bool.not_eq_true] at hbinds
    have hcarry : classifiedTag ∈ carryTags (some prev) (binds (some prev)) frontmatter.tags :=
      classified_carried hprev hbinds
    rw [tags_of_no_pass hnone, hbinds, if_neg Bool.false_ne_true, ← hbinds] at hlost
    exact hlost hcarry
  unscanned := by
    intro hprev hlost
    have hcarry : unscannedTag ∈ carryTags (some prev) (binds (some prev)) frontmatter.tags :=
      unscanned_carried hprev
    rw [tags_of_no_pass hnone] at hlost
    split at hlost
    · exact absurd ((mem_applyReservedTag_of_ne (by decide) _).2 hcarry) hlost
    · exact absurd hcarry hlost
  recorded := by
    intro hsome hidentity
    rcases hnone with hnone | hnone
    · rw [hnone] at hsome
      cases hsome
    · rw [hnone] at hidentity
      cases hidentity

theorem markersKept_of_pass (hidentity : settings.identity = some identity)
    (hcond : settings.composedRejection frontmatter prev (some outcome) = false) :
    settings.MarkersKept scannedAt frontmatter prev (some outcome) where
  classified := by
    intro hprev hlost
    rw [any_some, any_some]
    by_contra hnot
    simp only [not_or, Bool.not_eq_true] at hnot
    obtain ⟨hclean, hbinds, hdif⟩ := hnot
    rw [classified_of_pass hidentity (classified_carried hprev hbinds), not_and_or, not_not] at hlost
    -- the pass is not clean, so it resolved a rejection, which the write must have stated
    have hrejected := hlost.resolve_right (not_not.2 hclean)
    rcases carriedReview_judgedBlock hrejected with hdisk | hstates
    · rw [hbinds] at hdisk
      cases hdisk
    have hcontains : prev.frontmatter.tags.contains classifiedTag = true := contains_iff_mem.2 hprev
    rw [composedRejection, hcontains, hidentity, hbinds, any_some, hclean, hstates, hdif] at hcond
    cases hcond
  unscanned := by
    intro _ hlost
    rw [unscanned_of_pass hidentity, not_not, recordedStatus_eq_ok_iff] at hlost
    rw [any_some, decide_eq_true hlost.1]
  recorded := by
    intro _ _
    rw [unscanned_of_pass hidentity, status_of_pass hidentity]

theorem not_markersKept_of_composed (h : settings.composedRejection frontmatter prev outcome = true) :
    ¬ settings.MarkersKept scannedAt frontmatter prev outcome := by
  simp only [composedRejection, Bool.and_eq_true, Bool.not_eq_true', contains_iff_mem,
    Option.any_eq_true] at h
  obtain ⟨⟨⟨hprev, hidentity⟩, hbinds⟩, outcome, rfl, ⟨hclean, hstates⟩, hdif⟩ := h
  obtain ⟨identity, hidentity⟩ := isSome_iff_exists.1 hidentity
  have hlost : classifiedTag ∉
      (settings.decidePrivacy scannedAt frontmatter (some prev) (some outcome)).tags := by
    rw [classified_of_pass hidentity (classified_carried hprev hbinds)]
    exact fun hkept => hkept.1 (carriedReview_of_statesRejection hstates)
  intro hkept
  have hwhy := hkept.classified hprev hlost
  rw [any_some, any_some, hclean, hbinds, hdif] at hwhy
  simp at hwhy

end Markers

theorem markersKept_iff (scannedAt : String) (frontmatter : Frontmatter) (prev : Note)
    (outcome : Option PassOutcome) : settings.MarkersKept scannedAt frontmatter prev outcome ↔
      settings.composedRejection frontmatter prev outcome = false := by
  constructor
  · intro h
    by_contra hcomp
    exact not_markersKept_of_composed (eq_true_of_ne_false hcomp) h
  intro hcond
  cases outcome with
  | none => exact markersKept_of_no_pass (.inl rfl)
  | some outcome =>
    cases hidentity : settings.identity with
    | none => exact markersKept_of_no_pass (.inr hidentity)
    | some identity => exact markersKept_of_pass hidentity hcond

end PrivacySettings

def handMarked : Note :=
  let note := plainNote 1 none "a@b.c"
  { note with
    frontmatter :=
      { note.frontmatter with
        tags := [classifiedTag]
        extra := ExtraFields.empty.insert blockKey
          (.table [("spans_digest", .text "sha256:0:5:email\n"), ("v", .int 1)]) } }

def composedWrite : Frontmatter :=
  { handMarked.frontmatter with
    tags := []
    extra := ExtraFields.empty.insert blockKey
      (.table [("review", .text "rejected"), ("spans_digest", .text "sha256:0:5:email\n")]) }

/-- The pass sees the address again, and the marker is gone. -/
theorem not_markersKept_composedWrite :
    ¬ maskingSettings.MarkersKept "" composedWrite handMarked (some ⟨.ok, [⟨0, 5, .email, 900⟩]⟩) := by
  intro h
  have hwhy := h.classified (by decide +kernel) (by decide +kernel)
  revert hwhy
  decide +kernel

end Gradatum.Notes
