import Gradatum.Notes.Mutation
import Gradatum.Notes.Rescan

/-!
# Calls that change no status

Downgrading and patching a note update the row alone, and a write takes the columns of the status from the
frontmatter again.  Moving a note puts them back afterwards; adding tags and scanning again do not.
-/

namespace Gradatum.Notes

open Option

/-! ## 1. The columns of the status -/

def NoteRow.statusFields (row : NoteRow) : RowStatus × Option String × Option Int × Option NoteId :=
  (row.status, row.statusReason, row.statusChanged, row.replacedBy)

/-- The columns as a write sets them; it does not know of a replacement. -/
def Frontmatter.statusFields (frontmatter : Frontmatter) (replacedBy : Option NoteId) :
    RowStatus × Option String × Option Int × Option NoteId :=
  (frontmatter.status, frontmatter.statusReason, frontmatter.statusChanged.map Instant.millis, replacedBy)

def NoteRow.Agrees (row : NoteRow) (frontmatter : Frontmatter) : Prop :=
  row.status = frontmatter.status ∧ row.statusReason = frontmatter.statusReason ∧
    row.statusChanged = frontmatter.statusChanged.map Instant.millis

def StatusKept (s s' : VaultState) : Prop :=
  ∀ key row, s.notes key = some row → (s'.notes key).map NoteRow.statusFields = some row.statusFields

theorem StatusKept.of_notes_eq (h : s'.notes = s.notes) : StatusKept s s' := by
  intro key row hrow
  rw [h, hrow]
  rfl

namespace Vault

variable {v : Vault}

theorem statusFields_commit (input : WriteInput) (judged : Judged)
    (hrow : s.notes ⟨judged.note.frontmatter.vaultId, judged.note.id⟩ = some row) :
    ((v.commit input judged s).notes ⟨judged.note.frontmatter.vaultId, judged.note.id⟩).map
        NoteRow.statusFields = some (judged.note.frontmatter.statusFields row.replacedBy) := by
  rw [commit_notes_self, hrow]
  rfl

theorem statusKept_commit_iff (input : WriteInput) (frontmatter : Frontmatter) (body : String) (id : NoteId)
    (reuse : Option PassOutcome) (s : VaultState) :
    StatusKept s (v.commit input (v.judged input frontmatter body id reuse s) s) ↔
      ∀ row, s.notes ⟨(v.fillVaultId frontmatter).vaultId, id⟩ = some row → row.Agrees frontmatter := by
  have hfm := judged_frontmatter (v := v) input frontmatter body id reuse s
  have hself : ∀ row, s.notes ⟨(v.fillVaultId frontmatter).vaultId, id⟩ = some row →
      ((v.commit input (v.judged input frontmatter body id reuse s) s).notes
          ⟨(v.fillVaultId frontmatter).vaultId, id⟩).map NoteRow.statusFields =
        some (frontmatter.statusFields row.replacedBy) := by
    intro row hrow
    have hstat := statusFields_commit (v := v) input (v.judged input frontmatter body id reuse s) hrow
    rw [hfm] at hstat
    exact hstat
  constructor
  · intro h row hrow
    have hkept := (hself row hrow).symm.trans (h _ row hrow)
    simp only [NoteRow.statusFields, Frontmatter.statusFields, Option.some.injEq, Prod.mk.injEq] at hkept
    exact ⟨hkept.1.symm, hkept.2.1.symm, hkept.2.2.1.symm⟩
  · intro h key row hrow
    by_cases hkey : key = ⟨(v.fillVaultId frontmatter).vaultId, id⟩
    · rw [hkey] at hrow ⊢
      obtain ⟨hstat, hreas, hchgd⟩ := h row hrow
      rw [hself row hrow, NoteRow.statusFields, Frontmatter.statusFields, hstat, hreas, hchgd]
    have hother : (v.commit input (v.judged input frontmatter body id reuse s) s).notes key = s.notes key :=
      Function.update_of_ne hkey _ _
    rw [hother, hrow]
    rfl

end Vault

theorem statusKept_restore_iff {s s' : VaultState} (hrow : s.notes key = some row)
    (hexis : (s'.notes key).isSome) : StatusKept s (s'.updateRow key row.restoreStatusFields) ↔
      ∀ other row', other ≠ key → s.notes other = some row' →
        (s'.notes other).map NoteRow.statusFields = some row'.statusFields := by
  constructor
  · intro h other row' hne hrow'
    rw [← s'.updateRow_of_ne row.restoreStatusFields hne]
    exact h other row' hrow'
  intro h other row' hrow'
  by_cases hne : other = key
  · obtain ⟨new, hnew⟩ := isSome_iff_exists.1 hexis
    cases (hne ▸ hrow').symm.trans hrow
    rw [hne, VaultState.updateRow_self, hnew]
    rfl
  · rw [s'.updateRow_of_ne row.restoreStatusFields hne]
    exact h other row' hne hrow'

/-! ## 2. The calls -/

inductive PlainCall where
  | moveLocus (newLocus : LocusId)
  | addTags (checked : VaultId) (tags : List Tag)
  | rescan (scan : String → PassOutcome) (vault : VaultId)

namespace PlainCall

variable (v : Vault) (input : WriteInput) (id : NoteId) (call : PlainCall)

def apply (s : VaultState) : VaultState :=
  match call with
  | .moveLocus newLocus => (v.moveLocus input newLocus id s).2
  | .addTags checked tags => (v.addTags checked input tags id s).2
  | .rescan scan vault => (v.rescanPrivacyIn scan input vault id s).2

def vault : VaultId :=
  match call with
  | .moveLocus _ => v.vaultId
  | .addTags _ _ => v.vaultId
  | .rescan _ vault => vault

/-- The frontmatter and the outcome of a pass that the call hands to the write, if it has anything to
change. -/
def toWrite (note : Note) : Option (Frontmatter × Option PassOutcome) :=
  match call with
  | .moveLocus newLocus =>
    if note.frontmatter.locus = some newLocus then none
    else some ({ note.frontmatter with locus := some newLocus }, none)
  | .addTags checked tags =>
    if checked ≠ v.vaultId ∨ (tags.find? (!isTag ·)).isSome ∨
        unionTags note.frontmatter.tags tags = note.frontmatter.tags ∨
        maxNoteTags < (unionTags note.frontmatter.tags tags).length then none
    else some ({ note.frontmatter with tags := unionTags note.frontmatter.tags tags }, none)
  | .rescan scan _ =>
    (v.runPrivacyPass scan (v.fillVaultId note.frontmatter).vaultId note.frontmatter.section
        note.body).bind fun outcome =>
      if sameBlocks (note.frontmatter.extra blockKey)
          ((v.privacy.decidePrivacy input.scannedAt note.frontmatter (some note) (some outcome)).extra
            blockKey) then none
      else some (note.frontmatter, some outcome)

/-- The call puts the status of the row back that it has written. -/
def restores (note : Note) : Bool :=
  match call with
  | .moveLocus _ => (v.fillVaultId note.frontmatter).vaultId = v.vaultId
  | _ => false

theorem frontmatter_of_toWrite (h : call.toWrite v input note = some (frontmatter, reuse)) :
    frontmatter.status = note.frontmatter.status ∧
      frontmatter.statusReason = note.frontmatter.statusReason ∧
      frontmatter.statusChanged = note.frontmatter.statusChanged ∧
      frontmatter.vaultId = note.frontmatter.vaultId := by
  cases call with
  | moveLocus | addTags =>
    rw [toWrite] at h
    split at h
    · cases h
    · cases h
      exact ⟨rfl, rfl, rfl, rfl⟩
  | rescan scan vault =>
    obtain ⟨outcome, -, hout⟩ := bind_eq_some_iff.1 h
    split at hout
    · cases hout
    · cases hout
      exact ⟨rfl, rfl, rfl, rfl⟩

variable {v input id call} {s : VaultState} {note : Note} {frontmatter : Frontmatter}
  {reuse : Option PassOutcome}

theorem apply_of_not_read (hread : v.readNoteIn s (call.vault v) id = none) : call.apply v input id s = s := by
  cases call with
  | moveLocus newLocus =>
    have hnote : v.readNote s id = none := hread
    rw [apply, Vault.moveLocus, hnote]
  | addTags checked tags =>
    rcases addTags_cases (v := v) checked input tags id s with hsame | ⟨note, hnote, -⟩
    · exact hsame
    · cases hread.symm.trans hnote
  | rescan scan vault =>
    have hnote : v.readNoteIn s vault id = none := hread
    rw [apply, Vault.rescanPrivacyIn, hnote]

theorem apply_eq_write (hmove : ∀ newLocus, call ≠ .moveLocus newLocus)
    (hread : v.readNoteIn s (call.vault v) id = some note) :
    call.apply v input id s = (call.toWrite v input note).elim s fun write =>
      (v.writeNoteJudged input write.1 note.body id write.2 s).2 := by
  cases call with
  | moveLocus newLocus => exact absurd rfl (hmove newLocus)
  | addTags checked tags =>
    have hnote : v.readNote s id = some note := hread
    rw [apply, toWrite, Vault.addTags, Vault.ensureWitnessOwnsVault, hnote]
    by_cases hchk : checked ≠ v.vaultId
    · rw [if_pos hchk, if_pos (.inl hchk)]
      rfl
    rw [if_neg hchk]
    dsimp only
    split
    · rename_i hbad
      rw [if_pos (.inr (.inl (isSome_of_eq_some hbad)))]
      rfl
    rename_i hgood
    split
    · rename_i hunion
      rw [if_pos (.inr (.inr (.inl hunion)))]
      rfl
    rename_i hunion
    split
    · rename_i hmany
      rw [if_pos (.inr (.inr (.inr hmany)))]
      rfl
    rename_i hmany
    rw [if_neg (by simp [not_not.1 hchk, hgood, hunion, hmany]), elim_some,
      ← Vault.writeNoteWithId, ← ofWrite_snd]
    split
    · rename_i hreply
      rw [hreply]
    · rename_i hreply
      rw [hreply]
  | rescan scan vault =>
    have hnote : v.readNoteIn s vault id = some note := hread
    rw [apply, toWrite, Vault.rescanPrivacyIn, hnote]
    dsimp only
    cases v.runPrivacyPass scan (v.fillVaultId note.frontmatter).vaultId note.frontmatter.section
        note.body with
    | none => rfl
    | some outcome =>
      dsimp only
      rw [bind_some]
      split
      · rfl
      rw [elim_some]
      split
      · rename_i hreply
        rw [hreply]
      · rename_i hreply
        rw [hreply]

theorem apply_of_not_written (hread : v.readNoteIn s (call.vault v) id = some note)
    (hnone : ∀ frontmatter reuse, call.toWrite v input note = some (frontmatter, reuse) →
      v.refuses input reuse = true) : call.apply v input id s = s := by
  by_cases hmove : ∃ newLocus, call = .moveLocus newLocus
  · obtain ⟨newLocus, rfl⟩ := hmove
    have hnote : v.readNote s id = some note := hread
    rw [apply, Vault.moveLocus, hnote]
    dsimp only
    split
    · rfl
    rename_i hlocus
    have hrefus := hnone _ none (if_neg hlocus)
    rw [Vault.writeNoteWithId, Vault.writeNoteJudged, if_pos hrefus]
  · rw [apply_eq_write (not_exists.1 hmove) hread]
    cases hwrite : call.toWrite v input note with
    | none => rfl
    | some write =>
      have hrefus := hnone write.1 write.2 hwrite
      rw [elim_some, Vault.writeNoteJudged, if_pos hrefus]

theorem apply_of_written (hmove : ∀ newLocus, call ≠ .moveLocus newLocus)
    (hread : v.readNoteIn s (call.vault v) id = some note)
    (hwrite : call.toWrite v input note = some (frontmatter, reuse))
    (hrefus : v.refuses input reuse = false) : call.apply v input id s =
      v.commit input (v.judged input frontmatter note.body id reuse s) s := by
  rw [apply_eq_write hmove hread, hwrite, elim_some, Vault.writeNoteJudged, hrefus,
    if_neg Bool.false_ne_true]

theorem notes_moveLocus_of_written (hread : v.readNote s id = some note)
    (hrow : s.notes ⟨v.vaultId, id⟩ = some row) (hlocus : note.frontmatter.locus ≠ some newLocus)
    (hrefus : v.refuses input none = false) : (v.moveLocus input newLocus id s).2.notes =
      ((v.commit input (v.judged input { note.frontmatter with locus := some newLocus } note.body id none s)
        s).updateRow ⟨v.vaultId, id⟩ row.restoreStatusFields).notes := by
  rw [Vault.moveLocus, hread]
  dsimp only
  rw [if_neg hlocus, Vault.writeNoteWithId, Vault.writeNoteJudged, hrefus, if_neg Bool.false_ne_true, hrow]
  exact notes_deleteOld _ _

def KeepsStatus (v : Vault) (input : WriteInput) (id : NoteId) (call : PlainCall) (s : VaultState) : Prop :=
  ∀ note, v.readNoteIn s (call.vault v) id = some note →
    ∀ frontmatter reuse, call.toWrite v input note = some (frontmatter, reuse) →
      v.refuses input reuse = false → call.restores v note = true ∨
        ∀ row, s.notes ⟨(v.fillVaultId note.frontmatter).vaultId, id⟩ = some row → row.Agrees note.frontmatter

theorem agrees_iff_of_toWrite (hwrite : call.toWrite v input note = some (frontmatter, reuse)) :
    (∀ row, s.notes ⟨(v.fillVaultId frontmatter).vaultId, id⟩ = some row → row.Agrees frontmatter) ↔
      ∀ row, s.notes ⟨(v.fillVaultId note.frontmatter).vaultId, id⟩ = some row →
        row.Agrees note.frontmatter := by
  obtain ⟨hstat, hreas, hchgd, hvault⟩ := frontmatter_of_toWrite v input call hwrite
  simp only [NoteRow.Agrees, Vault.fillVaultId_vaultId, hstat, hreas, hchgd, hvault]

theorem statusKept_moveLocus_iff (hread : v.readNote s id = some note)
    (hwrite : (PlainCall.moveLocus newLocus).toWrite v input note = some (frontmatter, reuse))
    (hrefus : v.refuses input reuse = false) : StatusKept s (v.moveLocus input newLocus id s).2 ↔
      (v.fillVaultId note.frontmatter).vaultId = v.vaultId ∨
        ∀ row, s.notes ⟨(v.fillVaultId note.frontmatter).vaultId, id⟩ = some row →
          row.Agrees note.frontmatter := by
  rw [← agrees_iff_of_toWrite hwrite]
  have hvault : (v.fillVaultId frontmatter).vaultId = (v.fillVaultId note.frontmatter).vaultId := by
    simp only [Vault.fillVaultId_vaultId, (frontmatter_of_toWrite v input _ hwrite).2.2.2]
  rw [← hvault, ← Vault.statusKept_commit_iff input frontmatter note.body id reuse s]
  rw [toWrite] at hwrite
  split at hwrite
  · cases hwrite
  rename_i hlocus
  cases hwrite
  obtain ⟨row, hrow⟩ := Vault.exists_row_of_readNoteIn hread
  obtain ⟨row', hrow'⟩ := Vault.exists_row_commit (v := v) hrow input
    (v.judged input { note.frontmatter with locus := some newLocus } note.body id none s)
  have hnotes := notes_moveLocus_of_written hread hrow hlocus hrefus
  unfold StatusKept
  rw [hnotes]
  refine (statusKept_restore_iff hrow (by rw [hrow']; rfl)).trans ?_
  -- a row of another vault and id is not written
  have hother : ∀ key : NoteKey,
      key ≠ ⟨(v.fillVaultId { note.frontmatter with locus := some newLocus }).vaultId, id⟩ →
      (v.commit input (v.judged input { note.frontmatter with locus := some newLocus } note.body id none s)
        s).notes key = s.notes key := fun key hne => Function.update_of_ne hne _ _
  constructor
  · intro h
    by_cases hserv : (v.fillVaultId { note.frontmatter with locus := some newLocus }).vaultId = v.vaultId
    · exact .inl hserv
    right
    intro key row₁ hrow₁
    by_cases hkey : key = ⟨v.vaultId, id⟩
    · rw [hother key (by rw [hkey]; exact fun heq => hserv (congrArg NoteKey.vault heq).symm), hrow₁]
      rfl
    · exact h key row₁ hkey hrow₁
  · rintro (hserv | h) key row₁ hne hrow₁
    · rw [hother key (by rw [hserv]; exact hne), hrow₁]
      rfl
    · exact h key row₁ hrow₁

/-- A call that changes no status keeps that of every row exactly if it writes nothing, puts the status back,
or writes a note of which the row says what the file says. -/
theorem statusKept_iff (v : Vault) (input : WriteInput) (id : NoteId) (call : PlainCall) (s : VaultState) :
    StatusKept s (call.apply v input id s) ↔ call.KeepsStatus v input id s := by
  cases hread : v.readNoteIn s (call.vault v) id with
  | none =>
    rw [apply_of_not_read hread]
    exact iff_of_true (.of_notes_eq rfl) fun note hnote => by cases hread.symm.trans hnote
  | some note =>
    by_cases hwrit : ∀ frontmatter reuse, call.toWrite v input note = some (frontmatter, reuse) →
        v.refuses input reuse = true
    · rw [apply_of_not_written hread hwrit]
      refine iff_of_true (.of_notes_eq rfl) fun note' hnote frontmatter reuse hwrite hrefus => ?_
      cases hread.symm.trans hnote
      rw [hwrit frontmatter reuse hwrite] at hrefus
      cases hrefus
    · push Not at hwrit
      obtain ⟨frontmatter, reuse, hwrite, hrefus⟩ := hwrit
      rw [ne_eq, Bool.not_eq_true] at hrefus
      have hkeeps : call.KeepsStatus v input id s ↔ call.restores v note = true ∨
          ∀ row, s.notes ⟨(v.fillVaultId note.frontmatter).vaultId, id⟩ = some row →
            row.Agrees note.frontmatter := by
        constructor
        · exact fun h => h note hread frontmatter reuse hwrite hrefus
        intro h note' hnote _ _ _ _
        cases hread.symm.trans hnote
        exact h
      rw [hkeeps]
      by_cases hmove : ∃ newLocus, call = .moveLocus newLocus
      · obtain ⟨newLocus, rfl⟩ := hmove
        rw [restores, decide_eq_true_eq]
        exact statusKept_moveLocus_iff hread hwrite hrefus
      have hrestores : call.restores v note = false := by
        cases call with
        | moveLocus newLocus => exact absurd ⟨newLocus, rfl⟩ hmove
        | addTags | rescan => rfl
      rw [hrestores, apply_of_written (fun newLocus hcall => hmove ⟨newLocus, hcall⟩) hread hwrite hrefus,
        Vault.statusKept_commit_iff, agrees_iff_of_toWrite hwrite]
      exact (or_iff_right Bool.false_ne_true).symm

end PlainCall

def downgradedState : VaultState :=
  ((stateOf (plainNote 1 none "")).downgradeNote "main" 1 1 "old" none).2

theorem not_statusKept_addTags : ¬ StatusKept downgradedState
      ((PlainCall.addTags "main" ["new"]).apply plainServer.vault (.at 2) 1 downgradedState) := by
  intro h
  obtain ⟨row, hrow⟩ : ∃ row, downgradedState.notes ⟨"main", 1⟩ = some row := ⟨_, rfl⟩
  have hkept := h ⟨"main", 1⟩ row hrow
  have hlive : (((PlainCall.addTags "main" ["new"]).apply plainServer.vault (.at 2) 1 downgradedState).notes
      ⟨"main", 1⟩).map (·.status) = some (.of .live) := by
    decide +kernel
  have hdown : (downgradedState.notes ⟨"main", 1⟩).map (·.status) = some .downgraded := by decide +kernel
  rw [hrow] at hdown
  have hstat := congrArg (Option.map Prod.fst) hkept
  rw [Option.map_map] at hstat
  cases (hlive.symm.trans hstat).trans hdown

end Gradatum.Notes
