import Gradatum.Notes.Verdict

/-!
# Writes under a masking policy

A pass that ends without an answer refuses the write; after any other pass the spans that the policy marks
are written over, as far as the block carries them.  What a masked version replaces is to be gone for good.
-/

open Reasoning

namespace Gradatum.Notes

open List Option Function

/-! ## 1. What is masked -/

def redactedBody (body : String) (hidden : Nat → Bool) : String :=
  String.ofList (redact Char.utf8Size maskFiller.toList hidden 0 false body.toList)

def PiiSpan.fits (body : String) (span : PiiSpan) : Bool :=
  isWritable Char.utf8Size body.toList (span.start, span.end)

def PiiSpan.range (span : PiiSpan) : Nat × Nat := (span.start, span.end)

theorem maskSpans_eq_redactedBody (body : String) (spans : List PiiSpan) :
    maskSpans body spans = redactedBody body (covered ((spans.filter (·.fits body)).map PiiSpan.range)) := by
  rw [maskSpans, overwrite_eq_redact Char.utf8Size_pos, List.filter_map]
  rfl

/-- The pieces of the body between the maximal runs that its spans cover. -/
def Segments (body : String) (spans : List PiiSpan) : List (List Char) → Prop :=
  Segmented Char.utf8Size (covered ((spans.filter (·.fits body)).map PiiSpan.range)) 0 body.toList

theorem maskSpans_of_segments (h : Segments body spans segments) :
    maskSpans body spans = String.ofList (maskFiller.toList.intercalate segments) := by
  rw [maskSpans_eq_redactedBody, redactedBody, redact_of_segmented Char.utf8Size_pos h]

/-- What is left of a body is the text outside the spans with one filler for each run; two bodies that leave
the same pieces are masked to the same text. -/
theorem maskSpans_hides (body : String) (spans : List PiiSpan) :
    ∃ segments, Segments body spans segments ∧
      maskSpans body spans = String.ofList (maskFiller.toList.intercalate segments) ∧
      ∀ body' spans', Segments body' spans' segments → maskSpans body' spans' = maskSpans body spans := by
  obtain ⟨segments, hsegs, -⟩ := segmented_overwrite Char.utf8Size_pos maskFiller.toList
    (spans.map PiiSpan.range) body.toList
  rw [List.filter_map] at hsegs
  have hmask : maskSpans body spans = _ := maskSpans_of_segments hsegs
  exact ⟨segments, hsegs, hmask, fun body' spans' h => (maskSpans_of_segments h).trans hmask.symm⟩

theorem redactedBody_of_not_hidden (body : String) : redactedBody body (covered []) = body := by
  have hnone : redact Char.utf8Size maskFiller.toList (covered []) 0 false (body.toList ++ []) =
      body.toList ++ redact Char.utf8Size maskFiller.toList (covered []) (0 + extent Char.utf8Size body.toList)
        false [] := redact_append_of_not_hidden Char.utf8Size_pos (fun _ _ _ => rfl) []
  rw [append_nil, redact, append_nil] at hnone
  rw [redactedBody, hnone, String.ofList_toList]

def exposedChars (body : String) : Nat := exposed maskFiller.toList 0 body.toList

theorem exposedChars_redactedBody {hidden : Nat → Bool}
    (hkeeps : KeepsFillers Char.utf8Size maskFiller.toList hidden 0 body.toList) :
    exposedChars (redactedBody body hidden) + hiddenItems Char.utf8Size hidden 0 body.toList =
      exposedChars body := by
  have hfil : maskFiller.toList = '[' :: "redacted]".toList := by decide
  rw [exposedChars, exposedChars, redactedBody, String.toList_ofList, hfil]
  rw [hfil] at hkeeps
  exact exposed_redact Char.utf8Size_pos (by decide) false hkeeps

theorem exposedChars_redactedBody_lt {hidden : Nat → Bool}
    (hsplit : body.toList = pre ++ c :: post) (hhid : hidden (extent Char.utf8Size pre) = true)
    (hkeeps : KeepsFillers Char.utf8Size maskFiller.toList hidden 0 body.toList) :
    exposedChars (redactedBody body hidden) < exposedChars body := by
  have hsum := exposedChars_redactedBody hkeeps
  have hsome : 0 < hiddenItems Char.utf8Size hidden 0 body.toList := by
    rw [hsplit]
    apply hiddenItems_pos
    rw [Nat.zero_add]
    exact hhid
  omega

theorem keepsFillers_of_notMem {body : String} (hbrac : '[' ∉ body.toList) (hidden : Nat → Bool) :
    KeepsFillers Char.utf8Size maskFiller.toList hidden 0 body.toList := by
  intro pre post hsplit
  have hmem : '[' ∈ maskFiller.toList := by decide
  exact absurd (by rw [hsplit]; simp [hmem]) hbrac

theorem PiiSpan.exists_start {span : PiiSpan} (h : span.fits body = true) :
    ∃ pre c post, body.toList = pre ++ c :: post ∧ extent Char.utf8Size pre = span.start := by
  simp only [PiiSpan.fits, isWritable, Bool.and_eq_true, decide_eq_true_eq] at h
  obtain ⟨⟨⟨hlt, hle⟩, hstart⟩, -⟩ := h
  obtain ⟨pre, post, hsplit, hpre⟩ := exists_of_isBoundary _ hstart
  cases post with
  | nil =>
    rw [hsplit, append_nil, hpre] at hle
    omega
  | cons c post => exact ⟨pre, c, post, hsplit, hpre⟩

namespace PrivacySettings

variable (settings : PrivacySettings) (body : String) (outcome : PassOutcome)

def maskedOffsets : Nat → Bool :=
  covered ((((outcome.spans.take maxSpans).filter settings.policy.marks).filter (·.fits body)).map
    PiiSpan.range)

/-- Every character of a marked span that fits is hidden. -/
def Covers (hidden : Nat → Bool) : Prop :=
  ∀ span ∈ outcome.spans, settings.policy.marks span = true → span.fits body = true →
    HidesItems Char.utf8Size (covered [span.range]) hidden 0 body.toList

def Replaces (stored : String) : Prop :=
  ∃ hidden : Nat → Bool, stored = redactedBody body hidden ∧ settings.Covers body outcome hidden

/-- The detector did not answer, or it judged the body and the marked spans among the first that a block
carries cover all of them. -/
def Carried : Prop :=
  outcome.status = .detectorUnavailable ∨
    outcome.status ≠ .inputTooLarge ∧ settings.Covers body outcome (settings.maskedOffsets body outcome)

variable {settings body outcome}

theorem maskedBody_eq_redactedBody (hmasks : settings.policy.masks = true) (body : String)
    (outcome : PassOutcome) :
    (settings.maskedBody body (some outcome)).1 = redactedBody body (settings.maskedOffsets body outcome) := by
  rw [maskedBody, if_pos hmasks]
  dsimp only
  split
  · rename_i hempty
    rw [maskedOffsets, List.isEmpty_iff.1 hempty]
    exact (redactedBody_of_not_hidden body).symm
  · exact maskSpans_eq_redactedBody body _

theorem Covers.hides_maskedOffsets {hidden : Nat → Bool} (h : settings.Covers body outcome hidden) :
    HidesItems Char.utf8Size (settings.maskedOffsets body outcome) hidden 0 body.toList := by
  intro pre c post hsplit hmasked
  rw [maskedOffsets, covered, List.any_map, List.any_eq_true] at hmasked
  obtain ⟨span, hspan, hin⟩ := hmasked
  rw [mem_filter, mem_filter] at hspan
  refine h span (mem_of_mem_take hspan.1.1) hspan.1.2 hspan.2 pre c post hsplit ?_
  rw [covered, any_cons, Bool.or_eq_true]
  exact .inl hin

/-- Where no filler is in the body, what is stored tells which characters were hidden. -/
theorem Covers.of_redactedBody_eq {hidden : Nat → Bool} (h : settings.Covers body outcome hidden)
    (hbrac : '[' ∉ body.toList)
    (heq : redactedBody body (settings.maskedOffsets body outcome) = redactedBody body hidden) :
    settings.Covers body outcome (settings.maskedOffsets body outcome) := by
  have hmasked := exposedChars_redactedBody (keepsFillers_of_notMem hbrac (settings.maskedOffsets body outcome))
  have hhidden := exposedChars_redactedBody (keepsFillers_of_notMem hbrac hidden)
  rw [heq] at hmasked
  have hback := h.hides_maskedOffsets.symm_of_eq (by omega)
  intro span hspan hmarks hfits pre c post hsplit hin
  exact hback pre c post hsplit (h span hspan hmarks hfits pre c post hsplit hin)

end PrivacySettings

/-! ## 2. Refusals -/

namespace Vault

variable {v : Vault} {outcome : PassOutcome}

def FailClosed (v : Vault) (input : WriteInput) (frontmatter : Frontmatter) (body : String) (id : NoteId)
    (reuse : Option PassOutcome) (outcome : PassOutcome) (s : VaultState) : Prop :=
  (∃ e, v.writeNoteJudged input frontmatter body id reuse s = (.error e, s)) ∨
    ∃ note s', v.writeNoteJudged input frontmatter body id reuse s = (.ok note, s') ∧
      s'.files (noteMdRelativePath note) = some note.file ∧
      outcome.status ≠ .detectorUnavailable ∧ outcome.status ≠ .inputTooLarge ∧
      v.privacy.Replaces body outcome note.body

theorem refuses_eq (hmasks : v.privacy.policy.masks = true) (input : WriteInput) (reuse : Option PassOutcome)
    (hout : reuse.or input.outcome = some outcome) :
    v.refuses input reuse = decide (outcome.status = .detectorUnavailable) := by
  rw [refuses, hmasks, hout, Bool.true_and, any_some]

theorem writeNoteJudged_of_outcome (hmasks : v.privacy.policy.masks = true) (input : WriteInput)
    (reuse : Option PassOutcome) (hout : reuse.or input.outcome = some outcome) (frontmatter : Frontmatter)
    (body : String) (id : NoteId) (s : VaultState) :
    v.writeNoteJudged input frontmatter body id reuse s =
      if outcome.status = .detectorUnavailable then (.error .detectorUnavailable, s)
      else (.ok (v.judged input frontmatter body id reuse s).note,
        v.commit input (v.judged input frontmatter body id reuse s) s) := by
  rw [writeNoteJudged, refuses_eq hmasks input reuse hout]
  simp only [decide_eq_true_eq]

/-- Under a policy that masks, a write is refused or stores the body without the marked spans if the pass
judged the body and no marked span is beyond those that a block carries, and only then. -/
theorem failClosed_iff_carried (hmasks : v.privacy.policy.masks = true) (input : WriteInput)
    (reuse : Option PassOutcome) (hout : reuse.or input.outcome = some outcome) (frontmatter : Frontmatter)
    (body : String) (id : NoteId) (s : VaultState) :
    (v.privacy.Carried body outcome → v.FailClosed input frontmatter body id reuse outcome s) ∧
      ('[' ∉ body.toList → v.FailClosed input frontmatter body id reuse outcome s →
        v.privacy.Carried body outcome) := by
  have hwrite := writeNoteJudged_of_outcome hmasks input reuse hout frontmatter body id s
  have hbody : (v.judged input frontmatter body id reuse s).note.body =
      redactedBody body (v.privacy.maskedOffsets body outcome) := by
    show (v.privacy.maskedBody body (reuse.or input.outcome)).1 = _
    rw [hout, PrivacySettings.maskedBody_eq_redactedBody hmasks]
  by_cases hdown : outcome.status = .detectorUnavailable
  · rw [if_pos hdown] at hwrite
    exact ⟨fun _ => .inl ⟨_, hwrite⟩, fun _ _ => .inl hdown⟩
  rw [if_neg hdown] at hwrite
  constructor
  · intro hcarried
    obtain ⟨hsize, hcovers⟩ := hcarried.resolve_left hdown
    exact .inr ⟨_, _, hwrite, update_self _ _ _, hdown, hsize, _, hbody, hcovers⟩
  · rintro hbrac (⟨e, hrefused⟩ | ⟨note, s', hstored, -, -, hsize, hidden, hnote, hcovers⟩)
    · cases hwrite.symm.trans hrefused
    · cases hwrite.symm.trans hstored
      exact .inr ⟨hsize, hcovers.of_redactedBody_eq hbrac (hbody.symm.trans hnote)⟩

end Vault

def maskingVault : Vault := { plainServer.vault with privacy := maskingSettings }

def WriteInput.withPass (outcome : PassOutcome) : WriteInput := { WriteInput.at 1 with outcome := some outcome }

def addressSpan : PiiSpan := ⟨0, 5, .email, 900⟩

/-- As many digits as a block carries spans, and an address. -/
def crowdedBody : String := String.ofList (List.replicate maxSpans '1' ++ "a@b.c".toList)

/-- A pass that takes every digit for a date before it comes to the address. -/
def crowdedPass : PassOutcome :=
  ⟨.ok, (List.range maxSpans).map (fun i => ⟨i, 1, .date, 900⟩) ++ [⟨maxSpans, 5, .email, 900⟩]⟩

theorem failClosed_address :
    maskingVault.FailClosed (.withPass ⟨.ok, [addressSpan]⟩) (plainNote 1 none "").frontmatter "a@b.c" 1 none
      ⟨.ok, [addressSpan]⟩ (stateOf (plainNote 2 none "")) := by
  refine (Vault.failClosed_iff_carried (v := maskingVault) rfl (.withPass ⟨.ok, [addressSpan]⟩) none rfl
    (plainNote 1 none "").frontmatter "a@b.c" 1 (stateOf (plainNote 2 none ""))).1 (.inr ⟨by decide, ?_⟩)
  intro span hspan _ _ pre c post _ hin
  have hoff : maskingSettings.maskedOffsets "a@b.c" ⟨.ok, [addressSpan]⟩ = covered [addressSpan.range] := by
    rw [PrivacySettings.maskedOffsets]
    rfl
  rw [mem_singleton.1 hspan] at hin
  rw [show maskingVault.privacy = maskingSettings from rfl, hoff]
  exact hin

/-- A body that no pass looked at is stored. -/
theorem not_failClosed_inputTooLarge :
    ¬ maskingVault.FailClosed (.withPass ⟨.inputTooLarge, []⟩) (plainNote 1 none "").frontmatter "a@b.c" 1
      none ⟨.inputTooLarge, []⟩ (stateOf (plainNote 2 none "")) := by
  rintro (⟨e, hrefus⟩ | ⟨note, s', -, -, -, hlarge, -⟩)
  · cases congrArg (fun reply => reply.1.isOk) hrefus
  · exact hlarge rfl

/-! ## 3. Clear copies -/

/-- In `vault` nothing is left of the note but the file at `path`: no file where a read looks for it, by
the row before the write or by the row after it, and no snapshot. -/
structure NoClearCopy (vault : VaultId) (id : NoteId) (path : NotePath) (s s' : VaultState) : Prop where
  files : ∀ row, s.notes ⟨vault, id⟩ = some row ∨ s'.notes ⟨vault, id⟩ = some row →
    ∀ other ∈ consultedPaths vault row id, other ≠ path → s'.files other = none
  history : s'.history vault id = []

/-- Where a read may look for the file of the note, beside the locus that `frontmatter` names. -/
def otherDirs (frontmatter : Frontmatter) (row : Option NoteRow) : List (Option String) :=
  [none, some frontmatter.section.asStr] ++ (row.map consultedDirs).getD []

namespace Vault

variable {v : Vault}

/-- Before a write of `frontmatter`: the note has no file but at the path that the write goes to, and a
history only if its previous version is found and names the vault it lies in. -/
def OnlyCopy (v : Vault) (frontmatter : Frontmatter) (id : NoteId) (s : VaultState) : Prop :=
  (∀ dir ∈ otherDirs frontmatter (s.notes ⟨frontmatter.vaultId, id⟩),
      dir ≠ frontmatter.locus.map (·.path) → s.files ⟨frontmatter.vaultId, dir, id⟩ = none) ∧
    (s.history frontmatter.vaultId id = [] ∨
      (v.readNoteIn s frontmatter.vaultId id).any (·.frontmatter.vaultId = frontmatter.vaultId) = true)

theorem history_commit_of_bodyMasked {judged : Judged} (input : WriteInput)
    (hmask : judged.bodyMasked = true)
    (hex : judged.existing = v.readNoteIn s judged.note.frontmatter.vaultId judged.note.id) :
    (v.commit input judged s).history judged.note.frontmatter.vaultId judged.note.id = [] ↔
      s.history judged.note.frontmatter.vaultId judged.note.id = [] ∨
        (v.readNoteIn s judged.note.frontmatter.vaultId judged.note.id).any
          (·.frontmatter.vaultId = judged.note.frontmatter.vaultId) = true := by
  show (v.recordHistory input judged s).history _ _ = [] ↔ _
  rw [recordHistory, ← hex, hmask]
  cases hprev : judged.existing with
  | none => simp
  | some prev =>
    have hid : prev.id = judged.note.id := readNoteIn_id (hex.symm.trans hprev)
    rw [any_some, decide_eq_true_eq]
    dsimp only
    rw [if_pos rfl, hid]
    by_cases hvault : prev.frontmatter.vaultId = judged.note.frontmatter.vaultId
    · simp [VaultState.setHistory, hvault]
    · simp [VaultState.setHistory, hvault, update_of_ne (Ne.symm hvault)]

theorem consultedDirs_commit {judged : Judged} (input : WriteInput)
    (hrow : (v.commit input judged s).notes ⟨judged.note.frontmatter.vaultId, judged.note.id⟩ = some row) :
    (∀ dir ∈ [none, some judged.note.frontmatter.section.asStr], dir ∈ consultedDirs row) ∧
      ∀ dir ∈ consultedDirs row, dir = judged.note.frontmatter.locus.map (·.path) ∨
        dir ∈ otherDirs judged.note.frontmatter
          (s.notes ⟨judged.note.frontmatter.vaultId, judged.note.id⟩) := by
  rw [commit_notes_self, Option.some.injEq] at hrow
  have hsec : row.section = judged.note.frontmatter.section := by
    rw [← hrow]
    split <;> rfl
  have hlocus : row.locus = judged.note.frontmatter.locus.map (·.path) ∨
      ∃ old, s.notes ⟨judged.note.frontmatter.vaultId, judged.note.id⟩ = some old ∧ row.locus = old.locus := by
    rw [← hrow]
    split
    · exact .inl rfl
    rename_i old hold
    by_cases hsame : old.contentHash = judged.note.contentHash
    · exact .inr ⟨old, hold, if_neg (not_not.2 hsame)⟩
    · exact .inl (if_pos hsame)
  constructor
  · intro dir hdir
    rw [consultedDirs, hsec]
    exact mem_append_right _ hdir
  intro dir hdir
  rw [consultedDirs, hsec, mem_append] at hdir
  rcases hdir with hdir | hdir
  · simp only [mem_toList, map_eq_some_iff, filter_eq_some_iff] at hdir
    obtain ⟨locus, ⟨hlocus', hne⟩, rfl⟩ := hdir
    rcases hlocus with hnew | ⟨old, hold, hkept⟩
    · exact .inl (hlocus'.symm.trans hnew)
    right
    rw [otherDirs, hold, map_some, getD_some, consultedDirs, ← hkept, hlocus']
    simp [Option.filter, hne]
  · exact .inr (mem_append_left _ hdir)

/-- A masking write leaves no clear copy of the note exactly if there was none but at its own path, and no
history but that of the version it replaces. -/
theorem noClearCopy_iff (input : WriteInput) (frontmatter : Frontmatter) (body : String) (id : NoteId)
    (reuse : Option PassOutcome) (s : VaultState) (hwritten : v.refuses input reuse = false)
    (hmasked : (v.judged input frontmatter body id reuse s).bodyMasked = true) :
    NoClearCopy (v.fillVaultId frontmatter).vaultId id
        (noteMdRelativePath (v.judged input frontmatter body id reuse s).note) s
        (v.writeNoteJudged input frontmatter body id reuse s).2 ↔
      v.OnlyCopy (v.fillVaultId frontmatter) id s := by
  let judged := v.judged input frontmatter body id reuse s
  have hstate : (v.writeNoteJudged input frontmatter body id reuse s).2 = v.commit input judged s := by
    rw [writeNoteJudged, hwritten, if_neg Bool.false_ne_true]
  have hfiles : ∀ dir, dir ≠ (v.fillVaultId frontmatter).locus.map (·.path) →
      (v.commit input judged s).files ⟨(v.fillVaultId frontmatter).vaultId, dir, id⟩ =
        s.files ⟨(v.fillVaultId frontmatter).vaultId, dir, id⟩ := by
    intro dir hne
    apply update_of_ne
    intro hpath
    exact hne (congrArg NotePath.dir hpath)
  rw [hstate]
  constructor
  · intro h
    refine ⟨fun dir hdir hne => ?_, (history_commit_of_bodyMasked input hmasked rfl).1 h.history⟩
    rw [← hfiles dir hne]
    have hother : (⟨(v.fillVaultId frontmatter).vaultId, dir, id⟩ : NotePath) ≠
        noteMdRelativePath judged.note :=
      fun hpath => hne (congrArg NotePath.dir hpath)
    rcases mem_append.1 hdir with hnew | hold
    · have hrow := commit_notes_self (v := v) input judged s
      exact h.files _ (.inr hrow) _ (List.mem_map_of_mem ((consultedDirs_commit input hrow).1 dir hnew)) hother
    cases hrow : s.notes ⟨(v.fillVaultId frontmatter).vaultId, id⟩ with
    | none =>
      rw [hrow] at hold
      cases hold
    | some row =>
      rw [hrow] at hold
      exact h.files row (.inl hrow) _ (List.mem_map_of_mem hold) hother
  · intro h
    refine ⟨fun row hrow other hmem hother => ?_, (history_commit_of_bodyMasked input hmasked rfl).2 h.2⟩
    obtain ⟨dir, hdir, rfl⟩ := List.mem_map.1 hmem
    have hne : dir ≠ (v.fillVaultId frontmatter).locus.map (·.path) := by
      rintro rfl
      exact hother rfl
    rw [hfiles dir hne]
    apply h.1 dir _ hne
    rcases hrow with hrow | hrow
    · rw [otherDirs, hrow]
      exact mem_append_right _ hdir
    · exact ((consultedDirs_commit input hrow).2 dir hdir).resolve_left hne

end Vault

/-- A note of which the file lies in the directory of its section, as older versions of the vault had it. -/
def legacyState : VaultState :=
  { stateOf (plainNote 1 none "a@b.c") with
    files := update (fun _ => none) ⟨"main", some "debug", 1⟩ (some (plainNote 1 none "a@b.c").file) }

theorem noClearCopy_maskedNote :
    NoClearCopy "main" 1 ⟨"main", none, 1⟩ (stateOf (plainNote 1 none "a@b.c"))
      (maskingVault.writeNoteJudged (.withPass ⟨.ok, [addressSpan]⟩) (plainNote 1 none "").frontmatter "a@b.c" 1
        none (stateOf (plainNote 1 none "a@b.c"))).2 := by
  apply (Vault.noClearCopy_iff (v := maskingVault) (.withPass ⟨.ok, [addressSpan]⟩)
    (plainNote 1 none "").frontmatter "a@b.c" 1 none (stateOf (plainNote 1 none "a@b.c")) rfl
    (by decide +kernel)).2
  refine ⟨fun dir _ hne => ?_, .inl rfl⟩
  have hother : (⟨"main", dir, 1⟩ : NotePath) ≠ noteMdRelativePath (plainNote 1 none "a@b.c") :=
    fun hpath => hne (congrArg NotePath.dir hpath)
  exact update_of_ne hother _ fun _ => none

/-- The masked version goes to the top of the vault, and the address stays in the old file. -/
theorem not_noClearCopy_legacyState : ¬ NoClearCopy "main" 1 ⟨"main", none, 1⟩ legacyState
      (maskingVault.writeNoteJudged (.withPass ⟨.ok, [addressSpan]⟩) (plainNote 1 none "").frontmatter "a@b.c" 1
        none legacyState).2 := by
  intro h
  have hgone := h.files (rowOfNote (fun _ => ⟨none, none⟩) (plainNote 1 none "a@b.c")) (.inl rfl)
    ⟨"main", some "debug", 1⟩ (by decide) (by decide)
  have hstays : ((maskingVault.writeNoteJudged (.withPass ⟨.ok, [addressSpan]⟩)
      (plainNote 1 none "").frontmatter "a@b.c" 1 none legacyState).2.files
        ⟨"main", some "debug", 1⟩).map (·.body) = some "a@b.c" := by
    decide +kernel
  rw [hgone] at hstays
  cases hstays

end Gradatum.Notes
