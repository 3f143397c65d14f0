import Gradatum.Notes.Masking
import Gradatum.Reasoning.Lines

/-!
# The privacy sweep

`rescan_privacy_in` runs the pass over a note again, and writes the note if its block has changed.  The block
is made of the first spans of the pass only, and holds no scores.
-/

open Reasoning

namespace Gradatum.Notes

open List Bool PiiSpan

/-! ## 1. What a digest says -/

def PiiSpan.fields (span : PiiSpan) : List Char :=
  Nat.toDigits 10 span.start ++ ':' :: (Nat.toDigits 10 span.end ++ ':' :: span.category.asStr.toList)

theorem PiiSpan.line_toList (span : PiiSpan) : span.line.toList = span.fields ++ ['\n'] := by
  simp [line, PiiSpan.fields]

theorem PiiSpan.newline_notMem_fields (span : PiiSpan) : '\n' ∉ span.fields := by
  have hcat : '\n' ∉ span.category.asStr.toList := by
    cases span.category <;> decide
  have hdigs : ∀ n, '\n' ∉ Nat.toDigits 10 n := not_mem_toDigits rfl
  simp [PiiSpan.fields, hcat, hdigs]

theorem PiiSpan.range_of_fields {a b : PiiSpan} (h : a.fields = b.fields) : a.range = b.range := by
  have hdigs : ∀ n, ':' ∉ Nat.toDigits 10 n := not_mem_toDigits rfl
  obtain ⟨hstart, hrest⟩ := append_separator_inj (hdigs _) (hdigs _) h
  obtain ⟨hend, -⟩ := append_separator_inj (hdigs _) (hdigs _) hrest
  rw [range, range, toDigits_injective hstart, toDigits_injective hend]

theorem Toml.get?_without (hne : other ≠ key) (value : Toml) :
    (value.without key).get? other = value.get? other := by
  cases value with
  | table entries =>
    rw [Toml.without, Toml.get?, Toml.get?]
    induction entries with
    | nil => rfl
    | cons entry entries ih =>
      rw [filter_cons]
      by_cases hentry : entry.1 = key
      · rw [if_neg (by simp [hentry]), ih, lookup_cons, beq_false_of_ne (hentry ▸ hne)]
      · rw [if_pos (by simp [hentry]), lookup_cons, lookup_cons, ih]
  | array | scalar => rfl

theorem digestOf_eq_of_sameBlock (h : sameBlockModuloScannedAt a b = true) : digestOf a = digestOf b := by
  have hget : ∀ t : Toml, (t.without "scanned_at").get? "spans_digest" = t.get? "spans_digest" :=
    Toml.get?_without (by decide)
  rw [digestOf, digestOf, ← hget a, ← hget b, of_decide_eq_true h]

namespace PrivacySettings

variable {settings : PrivacySettings} {identity : DetectorIdentity} {outcome : PassOutcome}

theorem range_mem_of_spansDigest (hsha : Function.Injective settings.sha256)
    (h : settings.spansDigest spans = settings.spansDigest spans') {span : PiiSpan} (hspan : span ∈ spans) :
    ∃ span' ∈ spans', span'.range = span.range := by
  have hlines : (spans.mergeSort le).map fields =
      (spans'.mergeSort le).map fields := by
    apply flatMap_line_inj newline_notMem_fields
    have htext := congrArg String.toList (hsha ((String.append_right_inj _).1 h))
    simpa [flatMap_map, line_toList] using htext
  have hmem : span.fields ∈ (spans'.mergeSort le).map fields := by
    rw [← hlines]
    exact mem_map_of_mem (mem_mergeSort.2 hspan)
  obtain ⟨span', hspan', hfields⟩ := mem_map.1 hmem
  exact ⟨span', mem_mergeSort.1 hspan', range_of_fields hfields⟩

theorem reviewOf_block (status : ScanStatus) (spans : List PiiSpan) (scannedAt : String) (review : Review) :
    Review.of (settings.block identity status spans scannedAt review).value = review := by
  cases review <;> rfl

def passBlock (settings : PrivacySettings) (identity : DetectorIdentity) (outcome : PassOutcome)
    (scannedAt : String) (before : Option Toml) : Toml :=
  (settings.block identity outcome.status outcome.spans scannedAt (settings.carriedReview outcome before)).value

theorem digestOf_passBlock (scannedAt : String) (before : Option Toml) :
    digestOf (settings.passBlock identity outcome scannedAt before) =
      some (settings.spansDigest (outcome.spans.take maxSpans)) := rfl

theorem passBlock_again (at₁ at₂ : String) (before : Option Toml) :
    sameBlockModuloScannedAt (settings.passBlock identity outcome at₁ before)
      (settings.passBlock identity outcome at₂ (some (settings.passBlock identity outcome at₁ before))) =
        true := by
  have hrev : settings.carriedReview outcome (some (settings.passBlock identity outcome at₁ before)) =
      settings.carriedReview outcome before := by
    rw [carriedReview, if_pos (digestOf_passBlock at₁ before), passBlock, reviewOf_block]
  rw [passBlock, passBlock, sameBlock_block_iff]
  exact ⟨rfl, hrev.symm, fun _ => rfl, rfl, rfl⟩

theorem block_of_rescan (hidentity : settings.identity = some identity) (scannedAt : String) (note : Note) :
    (settings.decidePrivacy scannedAt note.frontmatter (some note) (some outcome)).extra blockKey =
      some (settings.passBlock identity outcome scannedAt (note.frontmatter.extra blockKey)) := by
  have hblock : judgedBlock note.frontmatter (some note) = note.frontmatter.extra blockKey := by
    have hextra : carryExtra (some note) note.frontmatter.extra blockKey = note.frontmatter.extra blockKey :=
      Option.or_self
    have hprev : previousBlock (some note) = note.frontmatter.extra blockKey := rfl
    rw [judgedBlock, carriedBlock, hextra, hprev]
    cases note.frontmatter.extra blockKey with
    | none => rfl
    | some block => exact ite_self _
  rw [block_of_pass hidentity, hblock]
  rfl

end PrivacySettings

/-! ## 2. One call -/

def isExcluded (vault : VaultId) («section» : Section) : Bool :=
  vault.startsWith "code-" || «section» = .identity

inductive RescanOutcome where
  | rewritten
  | unchanged
  | skipped
  deriving DecidableEq

def sameBlocks : Option Toml → Option Toml → Bool
  | some before, some after => sameBlockModuloScannedAt before after
  | none, none => true
  | _, _ => false

namespace Vault

variable (v : Vault)

/-- `scan` is what the windows of a body, the detector and the exceptions make of it. -/
def runPrivacyPass (scan : String → PassOutcome) (vault : VaultId) («section» : Section) (body : String) :
    Option PassOutcome :=
  if isExcluded vault «section» || v.privacy.identity.isNone then none else some (scan body)

def rescanPrivacyIn (scan : String → PassOutcome) (input : WriteInput) (vault : VaultId) (id : NoteId)
    (s : VaultState) : Except VaultError RescanOutcome × VaultState :=
  match v.readNoteIn s vault id with
  | none => (.ok .skipped, s)
  | some note =>
    match v.runPrivacyPass scan (v.fillVaultId note.frontmatter).vaultId note.frontmatter.section note.body
      with
    | none => (.ok .skipped, s)
    | some outcome =>
      let preview := v.privacy.decidePrivacy input.scannedAt note.frontmatter (some note) (some outcome)
      if sameBlocks (note.frontmatter.extra blockKey) (preview.extra blockKey) then (.ok .unchanged, s)
      else
        match v.writeNoteJudged input note.frontmatter note.body id (some outcome) s with
        | (.error e, s) => (.error e, s)
        | (.ok _, s) => (.ok .rewritten, s)

variable {v} {scan : String → PassOutcome} {vault : VaultId} {id : NoteId} {s : VaultState} {note : Note}

/-- A note that the sweep reaches: a pass is run over it, its file names the vault, and the index has the
locus of the file. -/
structure Reached (v : Vault) (vault : VaultId) (id : NoteId) (s : VaultState) (note : Note) : Prop where
  read : v.readNoteIn s vault id = some note
  vaultId : (v.fillVaultId note.frontmatter).vaultId = vault
  included : isExcluded vault note.frontmatter.section = false
  locus : ∀ row, s.notes ⟨vault, id⟩ = some row → row.locus = note.frontmatter.locus.map (·.path)

theorem fillVaultId_again (frontmatter : Frontmatter)
    (h : filled.vaultId = (v.fillVaultId frontmatter).vaultId) :
    (v.fillVaultId filled).vaultId = (v.fillVaultId frontmatter).vaultId := by
  rw [fillVaultId_vaultId] at h
  rw [fillVaultId_vaultId, fillVaultId_vaultId, h]
  split_ifs <;> simp_all

theorem Reached.commit (h : v.Reached vault id s note) (input : WriteInput) (reuse : Option PassOutcome) :
    v.Reached vault id (v.commit input (v.judged input note.frontmatter note.body id reuse s) s)
      (v.judged input note.frontmatter note.body id reuse s).note := by
  obtain ⟨hread, hlocus⟩ := readNoteIn_commit_judged (v := v) input note.frontmatter note.body id reuse
    h.vaultId h.locus
  have hfm := judged_frontmatter (v := v) input note.frontmatter note.body id reuse s
  refine ⟨hread, (fillVaultId_again note.frontmatter ?_).trans h.vaultId, ?_, ?_⟩
  · rw [judged_vaultId]
  · rw [hfm]
    exact h.included
  · rw [hfm]
    exact hlocus

/-- A call on a note that the sweep reaches: the block is the one it had, or the note is written with the
block of the pass. -/
theorem rescan_cases (h : v.Reached vault id s note) (hidentity : v.privacy.identity = some identity)
    (hmasks : v.privacy.policy.masks = true) (hans : (scan note.body).status ≠ .detectorUnavailable)
    (input : WriteInput) :
    let after := v.privacy.passBlock identity (scan note.body) input.scannedAt
      (note.frontmatter.extra blockKey)
    let reply := v.rescanPrivacyIn scan input vault id s
    ((∃ before, note.frontmatter.extra blockKey = some before ∧ sameBlockModuloScannedAt before after = true) ∧
        reply = (.ok .unchanged, s)) ∨
      ((∀ before, note.frontmatter.extra blockKey = some before →
          sameBlockModuloScannedAt before after = false) ∧
        reply.1 = .ok .rewritten ∧ ∃ note', v.Reached vault id reply.2 note' ∧
          note'.body = redactedBody note.body (v.privacy.maskedOffsets note.body (scan note.body)) ∧
          note'.frontmatter.extra blockKey = some after) := by
  intro after reply
  have hpass : v.runPrivacyPass scan (v.fillVaultId note.frontmatter).vaultId note.frontmatter.section
      note.body = some (scan note.body) := by
    rw [runPrivacyPass, h.vaultId, h.included, hidentity]
    rfl
  have hwrite : v.writeNoteJudged input note.frontmatter note.body id (some (scan note.body)) s =
      (.ok (v.judged input note.frontmatter note.body id (some (scan note.body)) s).note,
        v.commit input (v.judged input note.frontmatter note.body id (some (scan note.body)) s) s) := by
    have hrefus := refuses_eq (v := v) hmasks input (some (scan note.body)) rfl
    rw [writeNoteJudged, hrefus, decide_eq_false hans, if_neg Bool.false_ne_true]
  have hreply : reply =
      if sameBlocks (note.frontmatter.extra blockKey) (some after) then (.ok .unchanged, s)
      else (.ok .rewritten,
        v.commit input (v.judged input note.frontmatter note.body id (some (scan note.body)) s) s) := by
    simp only [reply, rescanPrivacyIn, h.read, hpass, PrivacySettings.block_of_rescan hidentity, hwrite]
    rfl
  by_cases hsame : sameBlocks (note.frontmatter.extra blockKey) (some after) = true
  · left
    rw [if_pos hsame] at hreply
    refine ⟨?_, hreply⟩
    cases hbef : note.frontmatter.extra blockKey with
    | none =>
      rw [hbef] at hsame
      cases hsame
    | some before =>
      rw [hbef] at hsame
      exact ⟨before, rfl, hsame⟩
  · right
    rw [if_neg hsame] at hreply
    rw [hreply]
    refine ⟨fun before hbef => ?_, rfl, _, h.commit input (some (scan note.body)), ?_, ?_⟩
    · rw [hbef] at hsame
      exact eq_false_iff.2 hsame
    · exact PrivacySettings.maskedBody_eq_redactedBody hmasks note.body (scan note.body)
    · have hex : v.readNoteIn s (v.fillVaultId note.frontmatter).vaultId id = some note := by
        rw [h.vaultId]
        exact h.read
      have hextra :
          (v.judged input note.frontmatter note.body id (some (scan note.body)) s).note.frontmatter.extra
            blockKey = (v.privacy.decidePrivacy input.scannedAt note.frontmatter (some note)
            (some (scan note.body))).extra blockKey := by
        rw [judged_frontmatter, hex]
        rfl
      rw [hextra, PrivacySettings.block_of_rescan hidentity]

end Vault

/-! ## 3. Masking again and again -/

def PassOutcome.carried (outcome : PassOutcome) : List PiiSpan := outcome.spans.take maxSpans

structure Sweeps (policy : PrivacyPolicy) (scan : String → PassOutcome) : Prop where
  answers : ∀ body, (scan body).status ≠ .detectorUnavailable
  /-- If any span is marked, one of the carried spans is, and it can be written over. -/
  carries : ∀ body, markable (scan body).spans policy = true →
    ∃ span ∈ (scan body).carried, policy.marks span = true ∧ span.fits body = true
  /-- No carried span, marked or not, is about a filler. -/
  keeps : ∀ body, KeepsFillers Char.utf8Size maskFiller.toList
    (covered ((scan body).carried.map range)) 0 body.toList

namespace PrivacySettings

variable {settings : PrivacySettings} {scan : String → PassOutcome}

theorem exists_first_masked (hscan : Sweeps settings.policy scan)
    (hmark : markable (scan body).spans settings.policy = true) :
    ∃ pre c post, body.toList = pre ++ c :: post ∧
      settings.maskedOffsets body (scan body) (extent Char.utf8Size pre) = true ∧
      (∀ m, m < extent Char.utf8Size pre → settings.maskedOffsets body (scan body) m = false) ∧
      ∃ span ∈ (scan body).carried, span.start = extent Char.utf8Size pre ∧ span.start < span.end := by
  obtain ⟨span, hspan, hmarks, hfits⟩ := hscan.carries body hmark
  have hcover : settings.maskedOffsets body (scan body) span.start = true := by
    refine any_eq_true.2 ⟨span.range, ?_, ?_⟩
    · exact mem_map_of_mem (mem_filter.2 ⟨mem_filter.2 ⟨hspan, hmarks⟩, hfits⟩)
    simp only [fits, isWritable, and_eq_true, decide_eq_true_eq] at hfits
    rw [and_eq_true, decide_eq_true_eq, decide_eq_true_eq]
    exact ⟨Nat.le_refl _, hfits.1.1.1⟩
  obtain ⟨range, hrange, hlt, hfirst, hbef⟩ := exists_first_covered hcover
  obtain ⟨first, hmem, rfl⟩ := mem_map.1 hrange
  rw [mem_filter, mem_filter] at hmem
  obtain ⟨pre, c, post, hsplit, hpre⟩ := exists_start hmem.2
  refine ⟨pre, c, post, hsplit, ?_, ?_, first, hmem.1.1, hpre.symm, hlt⟩
  · rw [hpre]
    exact hfirst
  · rw [hpre]
    exact hbef

theorem covered_of_maskedOffsets (h : settings.maskedOffsets body outcome n = true) :
    covered (outcome.carried.map range) n = true := by
  obtain ⟨range, hrange, hin⟩ := any_eq_true.1 h
  obtain ⟨span, hmem, rfl⟩ := mem_map.1 hrange
  rw [mem_filter, mem_filter] at hmem
  exact any_eq_true.2 ⟨span.range, mem_map_of_mem hmem.1.1, hin⟩

theorem exposedChars_masked_lt (hscan : Sweeps settings.policy scan)
    (hmark : markable (scan body).spans settings.policy = true) :
    exposedChars (redactedBody body (settings.maskedOffsets body (scan body))) < exposedChars body := by
  obtain ⟨pre, c, post, hsplit, hhid, -, -⟩ := exists_first_masked hscan hmark
  exact exposedChars_redactedBody_lt hsplit hhid
    ((hscan.keeps body).mono fun _ => covered_of_maskedOffsets)

theorem spansDigest_masked_ne (hsha : Function.Injective settings.sha256)
    (hscan : Sweeps settings.policy scan) (hmark : markable (scan body).spans settings.policy = true) :
    settings.spansDigest (scan body).carried ≠ settings.spansDigest
      (scan (redactedBody body (settings.maskedOffsets body (scan body)))).carried := by
  intro hdig
  obtain ⟨pre, c, post, hsplit, hhid, hbef, span, hspan, hstart, hlt⟩ :=
    exists_first_masked hscan hmark
  obtain ⟨span', hspan', hrange⟩ := range_mem_of_spansDigest hsha hdig hspan
  have hfil : ∃ rest, (redactedBody body (settings.maskedOffsets body (scan body))).toList =
      pre ++ maskFiller.toList ++ rest := by
    rw [redactedBody, String.toList_ofList, hsplit]
    apply redact_of_first_hidden Char.utf8Size_pos
    · intro m _ hm
      exact hbef m (by omega)
    · rw [Nat.zero_add]
      exact hhid
  obtain ⟨rest, hrest⟩ := hfil
  have hkept := hscan.keeps _ pre rest hrest (extent Char.utf8Size pre) (by omega) (by
    rw [extent_append]
    have hlong : 0 < extent Char.utf8Size maskFiller.toList := by decide
    omega)
  have hcovers : covered ((scan (redactedBody body (settings.maskedOffsets body (scan body)))).carried.map
      range) (extent Char.utf8Size pre) = true := by
    refine any_eq_true.2 ⟨span'.range, mem_map_of_mem hspan', ?_⟩
    rw [hrange, ← hstart, and_eq_true, decide_eq_true_eq, decide_eq_true_eq]
    exact ⟨Nat.le_refl _, hlt⟩
  rw [hkept] at hcovers
  cases hcovers

theorem redactedBody_of_none_marked (hnone : ∀ span ∈ outcome.carried, settings.policy.marks span = false) :
    redactedBody body (settings.maskedOffsets body outcome) = body := by
  have hfilt : (outcome.spans.take maxSpans).filter settings.policy.marks = [] :=
    filter_eq_nil_iff.2 fun span hspan => ne_true_of_eq_false (hnone span hspan)
  rw [maskedOffsets, hfilt]
  exact redactedBody_of_not_hidden body

theorem none_marked_of_not_markable {outcome : PassOutcome}
    (hclean : markable outcome.spans settings.policy = false) :
    ∀ span ∈ outcome.carried, settings.policy.marks span = false := fun span hspan =>
  eq_false_iff.2 (any_eq_false.1 hclean span (mem_of_mem_take hspan))

end PrivacySettings

/-! ## 4. The sweep comes to an end -/

namespace Vault

variable (v : Vault) (scan : String → PassOutcome)

/-- The state after `n` calls, the `k`-th of which takes `inputs k`. -/
def sweptState (vault : VaultId) (id : NoteId) : Nat → (Nat → WriteInput) → VaultState → VaultState
  | 0, _, s => s
  | n + 1, inputs, s =>
    sweptState vault id n (fun k => inputs (k + 1)) (v.rescanPrivacyIn scan (inputs 0) vault id s).2

def sweepReply (vault : VaultId) (id : NoteId) (n : Nat) (inputs : Nat → WriteInput) (s : VaultState) :
    Except VaultError RescanOutcome :=
  (v.rescanPrivacyIn scan (inputs n) vault id (v.sweptState scan vault id n inputs s)).1

/-- The note is rewritten a number of times, and then it is left unchanged, with nothing in it that the
policy marks. -/
def Converges (vault : VaultId) (id : NoteId) (inputs : Nat → WriteInput) (s : VaultState) : Prop :=
  ∃ n note, (∀ k, k < n → v.sweepReply scan vault id k inputs s = .ok .rewritten) ∧
    v.sweepReply scan vault id n inputs s = .ok .unchanged ∧
    v.readNoteIn (v.sweptState scan vault id n inputs s) vault id = some note ∧
    markable (scan note.body).spans v.privacy.policy = false

variable {v scan} {vault : VaultId} {id : NoteId} {s : VaultState} {note : Note} {inputs : Nat → WriteInput}

theorem Converges.of_rewritten (hreply : (v.rescanPrivacyIn scan (inputs 0) vault id s).1 = .ok .rewritten)
    (h : v.Converges scan vault id (fun k => inputs (k + 1))
      (v.rescanPrivacyIn scan (inputs 0) vault id s).2) : v.Converges scan vault id inputs s := by
  obtain ⟨n, note, hbef, hunch, hread, hclean⟩ := h
  refine ⟨n + 1, note, fun k hk => ?_, hunch, hread, hclean⟩
  cases k with
  | zero => exact hreply
  | succ k => exact hbef k (by omega)

def BlockStands (v : Vault) (scan : String → PassOutcome) (note : Note) : Prop :=
  ∀ block, note.frontmatter.extra blockKey = some block →
    digestOf block = some (v.privacy.spansDigest (scan note.body).carried) →
    markable (scan note.body).spans v.privacy.policy = false

theorem unchanged_of_same_body (hreach : v.Reached vault id s note')
    (hidentity : v.privacy.identity = some identity) (hmasks : v.privacy.policy.masks = true)
    (hans : ∀ body, (scan body).status ≠ .detectorUnavailable) (hbody : note'.body = note.body)
    (hblock : note'.frontmatter.extra blockKey =
      some (v.privacy.passBlock identity (scan note.body) scannedAt before)) (input : WriteInput) :
    v.rescanPrivacyIn scan input vault id s = (.ok .unchanged, s) := by
  rcases rescan_cases hreach hidentity hmasks (hans note'.body) input with
    ⟨-, hreply⟩ | ⟨hdif, -⟩
  · exact hreply
  have hagain := hdif _ hblock
  rw [hblock, hbody, PrivacySettings.passBlock_again] at hagain
  cases hagain

/-- A sweep with a detector that reports nothing about fillers, and whose first spans have one that is marked
if there is any, masks the note until nothing is marked. -/
theorem converges_of_sweeps {identity : DetectorIdentity} (hidentity : v.privacy.identity = some identity)
    (hmasks : v.privacy.policy.masks = true) (hsha : Function.Injective v.privacy.sha256)
    (hscan : Sweeps v.privacy.policy scan) (hreached : v.Reached vault id s note)
    (hblock : v.BlockStands scan note) (inputs : Nat → WriteInput) : v.Converges scan vault id inputs s := by
  -- the exposed characters become fewer with every masking
  induction hexposed : exposedChars note.body using Nat.strong_induction_on generalizing s note inputs with
  | _ exposed ih =>
    have hcases := rescan_cases hreached hidentity hmasks (hscan.answers note.body) (inputs 0)
    by_cases hmark : markable (scan note.body).spans v.privacy.policy = true
    · rcases hcases with ⟨⟨before, hbef, hsame⟩, -⟩ | ⟨-, hreply, note', hreach', hbody, hblock'⟩
      · -- the block would be the one of this body
        have hclean := hblock before hbef (digestOf_eq_of_sameBlock hsame)
        rw [hmark] at hclean
        cases hclean
      · apply Converges.of_rewritten hreply
        refine ih (exposedChars note'.body) ?_ hreach' ?_ (fun k => inputs (k + 1)) rfl
        · rw [← hexposed, hbody]
          exact PrivacySettings.exposedChars_masked_lt hscan hmark
        intro block hnew hdig
        cases hblock'.symm.trans hnew
        rw [PrivacySettings.digestOf_passBlock, Option.some.injEq, hbody] at hdig
        exact absurd hdig (PrivacySettings.spansDigest_masked_ne hsha hscan hmark)
    · rw [not_eq_true] at hmark
      have hnone : ∀ span ∈ (scan note.body).carried, v.privacy.policy.marks span = false :=
        PrivacySettings.none_marked_of_not_markable hmark
      rcases hcases with ⟨-, hreply⟩ | ⟨-, hreply, note', hreach', hbody, hblock'⟩
      · exact ⟨0, note, fun k hk => absurd hk (Nat.not_lt_zero k), congrArg Prod.fst hreply,
          hreached.read, hmark⟩
      rw [PrivacySettings.redactedBody_of_none_marked hnone] at hbody
      apply Converges.of_rewritten hreply
      have hreply' := unchanged_of_same_body hreach' hidentity hmasks hscan.answers hbody hblock'
        (inputs 1)
      refine ⟨0, note', fun k hk => absurd hk (Nat.not_lt_zero k), congrArg Prod.fst hreply',
        hreach'.read, ?_⟩
      rw [hbody]
      exact hmark

theorem not_converges_of_none_carried (hidentity : v.privacy.identity = some identity)
    (hmasks : v.privacy.policy.masks = true)
    (hans : ∀ body, (scan body).status ≠ .detectorUnavailable) (hreach : v.Reached vault id s note)
    (hmark : markable (scan note.body).spans v.privacy.policy = true)
    (hnone : ∀ span ∈ (scan note.body).carried, v.privacy.policy.marks span = false)
    (inputs : Nat → WriteInput) : ¬ v.Converges scan vault id inputs s := by
  rintro ⟨n, last, hbef, hunch, hread, hclean⟩
  have hcontradiction : ∀ other, other.body = note.body → last = other → False := by
    rintro other hsame rfl
    rw [hsame, hmark] at hclean
    cases hclean
  rcases rescan_cases hreach hidentity hmasks (hans note.body) (inputs 0) with
    ⟨-, hreply⟩ | ⟨-, hreply, note', hreach', hbody, hblock'⟩
  · cases n with
    | zero => exact hcontradiction note rfl (Option.some.inj (hread.symm.trans hreach.read))
    | succ n => cases (congrArg Prod.fst hreply).symm.trans (hbef 0 (Nat.succ_pos n))
  rw [PrivacySettings.redactedBody_of_none_marked hnone] at hbody
  have hreply' := unchanged_of_same_body hreach' hidentity hmasks hans hbody hblock' (inputs 1)
  match n with
  | 0 => cases hreply.symm.trans hunch
  | 1 => exact hcontradiction note' hbody (Option.some.inj (hread.symm.trans hreach'.read))
  | n + 2 => cases (congrArg Prod.fst hreply').symm.trans (hbef 1 (by omega))

end Vault

def addressScan (body : String) : PassOutcome :=
  if body = "a@b.c" then ⟨.ok, [addressSpan]⟩ else ⟨.ok, []⟩

theorem sweeps_addressScan : Sweeps maskingSettings.policy addressScan where
  answers := by
    intro body
    unfold addressScan
    split <;> exact ScanStatus.noConfusion
  carries := by
    intro body hmark
    unfold addressScan at hmark ⊢
    split at hmark
    · rename_i hbody
      rw [if_pos hbody, hbody]
      exact ⟨addressSpan, by decide, by decide, by decide⟩
    · cases hmark
  keeps := by
    intro body
    unfold addressScan
    split
    · rename_i hbody
      rw [hbody]
      exact keepsFillers_of_notMem (by decide) _
    · intro _ _ _ _ _ _
      rfl

theorem reached_stateOf_plainNote (body : String) :
    maskingVault.Reached "main" 1 (stateOf (plainNote 1 none body)) (plainNote 1 none body) where
  read := rfl
  vaultId := rfl
  included := by
    show isExcluded "main" .debug = false
    decide +kernel
  locus := by
    rintro row ⟨⟩
    rfl

theorem converges_addressScan :
    maskingVault.Converges addressScan "main" 1 (fun k => .at k) (stateOf (plainNote 1 none "a@b.c")) :=
  Vault.converges_of_sweeps rfl rfl Function.injective_id sweeps_addressScan
    (reached_stateOf_plainNote "a@b.c") (fun _ hblock => by cases hblock) _

/-- A detector that reports the digits of one body before its address. -/
def crowdedScan (body : String) : PassOutcome := if body = crowdedBody then crowdedPass else ⟨.ok, []⟩

/-- The address stays, and the sweep says that there is nothing to do. -/
theorem not_converges_crowdedScan : ¬ maskingVault.Converges crowdedScan "main" 1 (fun k => .at k)
      (stateOf (plainNote 1 none crowdedBody)) := by
  have hscan : crowdedScan (plainNote 1 none crowdedBody).body = crowdedPass := if_pos rfl
  apply Vault.not_converges_of_none_carried rfl rfl _ (reached_stateOf_plainNote crowdedBody)
  · rw [hscan]
    decide +kernel
  · rw [hscan]
    decide +kernel
  · intro body
    unfold crowdedScan
    split <;> exact ScanStatus.noConfusion

end Gradatum.Notes
