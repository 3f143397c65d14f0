import Gradatum.Notes.Store

/-!
# Forgetting a note

`handle_forget` of the worker sends a persist/forget request with an empty body for each of its notes.  The
handler sets the three forgotten fields of the frontmatter, writes the note with the body of the request,
and marks the row.  `vault_unforgot` clears the mark of the row.
-/

namespace Gradatum.Notes

open Vault VaultState

/-! ## 1. Marks in the index -/

def NoteRow.markForgotten (now : Instant) (forgottenBy : Option String) (row : NoteRow) : NoteRow :=
  { row with forgotten := true, forgottenAt := some now.millis, forgottenBy := forgottenBy }

def NoteRow.reassertForgotten (row : NoteRow) : NoteRow := { row with forgotten := true }

def NoteRow.unmarkForgotten (row : NoteRow) : NoteRow :=
  { row with forgotten := false, forgottenAt := none, forgottenBy := none }

variable (s : VaultState)

/-- Each mark is one UPDATE, and an error if there was no row to update. -/
def VaultState.setMark (vault : VaultId) (id : NoteId) (f : NoteRow → NoteRow) :
    Except VaultError Unit × VaultState :=
  match s.notes ⟨vault, id⟩ with
  | none => (.error (.noteNotFound id), s)
  | some _ => (.ok (), s.updateRow ⟨vault, id⟩ f)

def VaultState.markForgotten (now : Instant) (vault : VaultId) (id : NoteId)
    (forgottenBy : Option String) : Except VaultError Unit × VaultState :=
  s.setMark vault id (NoteRow.markForgotten now forgottenBy)

def VaultState.reassertForgotten (vault : VaultId) (id : NoteId) : Except VaultError Unit × VaultState :=
  s.setMark vault id NoteRow.reassertForgotten

def VaultState.unmarkForgotten (vault : VaultId) (id : NoteId) : Except VaultError Unit × VaultState :=
  s.setMark vault id NoteRow.unmarkForgotten

/-! ## 2. The handlers -/

structure PersistForgetRequest where
  noteId : NoteId
  tenantId : VaultId
  body : String
  «section» : String
  forgottenBy : Option String

structure ForgetInput where
  forgottenAt : Instant
  write : WriteInput
  markedAt : Instant

def forgottenFrontmatter (input : ForgetInput) (sec : Section) (forgottenBy : Option String)
    (frontmatter : Frontmatter) : Frontmatter :=
  { frontmatter with
    «section» := sec
    forgotten := some true
    forgottenAt := some input.forgottenAt
    forgottenBy := forgottenBy }

namespace Server

variable (srv : Server)

def handlePersistForget (input : ForgetInput) (req : PersistForgetRequest) (s : VaultState) :
    Except PersistError Unit × VaultState :=
  match Section.fromCanonicalStr req.section with
  | none => (.error (.invalidSection req.section), s)
  | some sec =>
    match srv.vault.readNoteIn s (srv.readerVault req.tenantId) req.noteId with
    | none => (.error (.noteNotFound req.noteId), s)
    | some existing =>
      let frontmatter := forgottenFrontmatter input sec req.forgottenBy existing.frontmatter
      match srv.vault.writeNoteWithIdInternal frontmatter.vaultId input.write frontmatter
          req.body req.noteId s with
      | (.error e, s) => (.error (.writeFailed e), s)
      | (.ok _, s) =>
        -- a mark that fails is logged and does not fail the request
        (.ok (), (s.markForgotten input.markedAt req.tenantId req.noteId req.forgottenBy).2)

/-- The turn of one note in the loop of `handle_forget`: whether the note is counted as forgotten. -/
def handleForgetNote (input : ForgetInput) (vault : VaultId) (forgottenBy : Option String)
    (id : NoteId) (s : VaultState) : Bool × VaultState :=
  match srv.vault.readNoteIn s (srv.readerVault vault) id with
  | none => (false, s)
  | some dto =>
    if dto.frontmatter.forgotten.getD false then (true, (s.reassertForgotten vault id).2)
    else
      let req : PersistForgetRequest :=
        { noteId := id
          tenantId := vault
          -- `String::new()`, for the server to read the body itself, which it does not
          body := ""
          «section» := dto.frontmatter.section.asStr
          forgottenBy := forgottenBy }
      match srv.handlePersistForget input req s with
      | (.ok _, s) => (true, s)
      | (.error _, s) => (false, s)

end Server

def vaultUnforgot (vault : VaultId) (id : NoteId) (s : VaultState) :
    Except VaultError Unit × VaultState :=
  s.unmarkForgotten vault id

def Frontmatter.SameButForgotten (before after : Frontmatter) : Prop :=
  after = { before with
    updated := after.updated
    forgotten := after.forgotten
    forgottenAt := after.forgottenAt
    forgottenBy := after.forgottenBy }

def NoteRow.SameButStamps (before after : NoteRow) : Prop :=
  after = { before with updated := after.updated, contentHash := after.contentHash }

/-- Forgetting a note, from `s` to `s'`, destroyed nothing. -/
structure ForgetPreserves (v : Vault) (vault : VaultId) (id : NoteId) (s s' : VaultState) : Prop where
  /-- The file has its body, and its frontmatter but for the forgotten fields. -/
  file : ∀ note, v.readNoteIn s vault id = some note →
    ∃ note', v.readNoteIn s' vault id = some note' ∧ note'.body = note.body ∧
      note.frontmatter.SameButForgotten note'.frontmatter
  /-- The row has its body and its status. -/
  row : ∀ row, s.notes ⟨vault, id⟩ = some row →
    ∃ row', s'.notes ⟨vault, id⟩ = some row' ∧ row'.bodyText = row.bodyText ∧
      row'.status = row.status
  /-- `vault_unforgot` gives the row back. -/
  unforgot : ∀ row, s.notes ⟨vault, id⟩ = some row →
    ∃ row', (vaultUnforgot vault id s').2.notes ⟨vault, id⟩ = some row' ∧ row.SameButStamps row'

/-! ## 3. When it keeps it -/

def NoteRow.Unmarked (row : NoteRow) : Prop :=
  row.forgotten = false ∧ row.forgottenAt = none ∧ row.forgottenBy = none

/-- In every column that a write of a note overwrites, the stamps apart, `row` has what `written` has. -/
def NoteRow.Mirrors (row written : NoteRow) : Prop :=
  row = { written with
    created := row.created
    updated := row.updated
    contentHash := row.contentHash
    replacedBy := row.replacedBy
    title := row.title
    trust := row.trust
    forgotten := row.forgotten
    forgottenAt := row.forgottenAt
    forgottenBy := row.forgottenBy
    orphaned := row.orphaned }

def PrivacySettled (v : Vault) (input : WriteInput) (note : Note) : Prop :=
  v.privacy.decideTagsAndExtra input.scannedAt note.frontmatter.tags note.frontmatter.extra
    (some note) input.outcome = (note.frontmatter.tags, note.frontmatter.extra)

/-- The index agrees with the file, which has no body to lose. -/
structure Bare (v : Vault) (vault : VaultId) (input : WriteInput) (note : Note) (row : NoteRow) :
    Prop where
  vaultId : note.frontmatter.vaultId = vault
  body : note.body = ""
  privacy : PrivacySettled v input note
  mirrors : row.Mirrors (rowOfNote v.rolesOfBody note)

/-- The row carries no mark yet, and the file is not written (the note is already forgotten in it, or
its frontmatter sends the write to another vault) or has nothing that the write would change. -/
def ForgetSafe (v : Vault) (vault : VaultId) (input : ForgetInput) (id : NoteId) (s : VaultState) :
    Prop :=
  ∀ note row, v.readNoteIn s vault id = some note → s.notes ⟨vault, id⟩ = some row →
    row.Unmarked ∧
      (note.frontmatter.forgotten = some true ∨ (v.fillVaultId note.frontmatter).vaultId ≠ vault ∨
        Bare v vault input.write note row)

/-! ## 4. The rows of a forget -/

/-- Unmarking a row that was overwritten and marked gives the old row back just if the old row was
unmarked and had the columns of the version written. -/
theorem sameButStamps_unmark_iff {row written : NoteRow} (hfresh : row.contentHash ≠ written.contentHash) :
    row.SameButStamps (((row.onConflict written).markForgotten now by').unmarkForgotten) ↔
      row.Unmarked ∧ row.Mirrors written := by
  unfold NoteRow.SameButStamps NoteRow.Unmarked NoteRow.Mirrors NoteRow.onConflict
    NoteRow.markForgotten NoteRow.unmarkForgotten
  rw [if_pos hfresh]
  cases row
  cases written
  simp only [NoteRow.mk.injEq]
  constructor
  · intro h
    simp_all
  · intro h
    simp_all

/-- An update that `vault_unforgot` undoes. -/
def MarksOnly (f : NoteRow → NoteRow) : Prop :=
  ∀ row, (f row).unmarkForgotten = row.unmarkForgotten

theorem marksOnly_markForgotten (now : Instant) (forgottenBy : Option String) :
    MarksOnly (NoteRow.markForgotten now forgottenBy) := fun _ => rfl

theorem marksOnly_reassertForgotten : MarksOnly NoteRow.reassertForgotten := fun _ => rfl

theorem MarksOnly.address (hf : MarksOnly f) (row : NoteRow) : (f row).address = row.address :=
  show (f row).unmarkForgotten.address = row.unmarkForgotten.address by rw [hf row]

theorem sameButStamps_unmarkForgotten_iff (row : NoteRow) :
    row.SameButStamps row.unmarkForgotten ↔ row.Unmarked := by
  unfold NoteRow.SameButStamps NoteRow.Unmarked NoteRow.unmarkForgotten
  cases row
  simp only [NoteRow.mk.injEq, true_and, and_true]
  constructor
  · intro h
    exact ⟨h.1.symm, h.2.1.symm, h.2.2.symm⟩
  · intro h
    exact ⟨h.1.symm, h.2.1.symm, h.2.2.symm⟩

theorem setMark_of_row {s : VaultState} {id : NoteId}
    (hrow : s.notes ⟨vault, id⟩ = some row) (f : NoteRow → NoteRow) :
    s.setMark vault id f = (.ok (), s.updateRow ⟨vault, id⟩ f) := by
  simp [setMark, hrow]

theorem vaultUnforgot_notes (vault : VaultId) (id : NoteId) (s : VaultState) :
    (vaultUnforgot vault id s).2.notes ⟨vault, id⟩ =
      (s.notes ⟨vault, id⟩).map NoteRow.unmarkForgotten := by
  unfold vaultUnforgot unmarkForgotten
  cases hrow : s.notes ⟨vault, id⟩ with
  | none => simp [setMark, hrow]
  | some row => rw [setMark_of_row hrow, updateRow_self, hrow]

theorem sameNote_setMark {id id' : NoteId} (vault vault' : VaultId) (s : VaultState) (hne : id ≠ id')
    (f : NoteRow → NoteRow) : SameNote vault' id' s (s.setMark vault id f).2 := by
  unfold setMark
  split
  · exact .refl vault' id' s
  refine ⟨s.updateRow_of_ne f ?_, fun _ => rfl⟩
  intro hkey
  cases hkey
  exact hne rfl

theorem sameNote_handlePersistForget {srv : Server} (vault' : VaultId)
    (s : VaultState) (input : ForgetInput) (req : PersistForgetRequest) (hne : req.noteId ≠ id') :
    SameNote vault' id' s (srv.handlePersistForget input req s).2 := by
  unfold Server.handlePersistForget
  cases Section.fromCanonicalStr req.section with
  | none => exact .refl vault' id' s
  | some sec =>
    cases srv.vault.readNoteIn s (srv.readerVault req.tenantId) req.noteId with
    | none => exact .refl vault' id' s
    | some existing =>
      dsimp only
      generalize forgottenFrontmatter input sec req.forgottenBy existing.frontmatter = written
      have hwrite : SameNote vault' id' s (srv.vault.writeNoteWithIdInternal written.vaultId
          input.write written req.body req.noteId s).2 :=
        sameNote_writeNoteWithIdInternal vault' s hne
      cases hreply : srv.vault.writeNoteWithIdInternal written.vaultId input.write written
          req.body req.noteId s with
      | mk reply s₁ =>
        rw [hreply] at hwrite
        cases reply with
        | error e => exact hwrite
        | ok note => exact hwrite.trans (sameNote_setMark req.tenantId vault' s₁ hne _)

/-! ## 5. Forgetting without and with a write -/

section Preserves

variable {v : Vault} {id : NoteId} {s s₁ : VaultState} {note : Note}

theorem forgetPreserves_iff (hnote : v.readNoteIn s vault id = some note)
    (hrow : s.notes ⟨vault, id⟩ = some row) (hnote' : v.readNoteIn s' vault id = some note')
    (hrow' : s'.notes ⟨vault, id⟩ = some row') : ForgetPreserves v vault id s s' ↔
      (note'.body = note.body ∧ note.frontmatter.SameButForgotten note'.frontmatter) ∧
        (row'.bodyText = row.bodyText ∧ row'.status = row.status) ∧
          row.SameButStamps row'.unmarkForgotten := by
  have hunf := vaultUnforgot_notes vault id s'
  rw [hrow', Option.map_some] at hunf
  constructor
  · intro h
    obtain ⟨n, hn, hfile⟩ := h.file note hnote
    obtain ⟨r, hr, hcols⟩ := h.row row hrow
    obtain ⟨r', hr', hsame⟩ := h.unforgot row hrow
    cases hnote'.symm.trans hn
    cases hrow'.symm.trans hr
    cases hunf.symm.trans hr'
    exact ⟨hfile, hcols, hsame⟩
  · intro h
    constructor
    · intro n hn
      cases hnote.symm.trans hn
      exact ⟨note', hnote', h.1⟩
    · intro r hr
      cases hrow.symm.trans hr
      exact ⟨row', hrow', h.2.1⟩
    · intro r hr
      cases hrow.symm.trans hr
      exact ⟨row'.unmarkForgotten, hunf, h.2.2⟩

theorem forgetPreserves_of_marksOnly (hnote : v.readNoteIn s vault id = some note)
    (hrow : s.notes ⟨vault, id⟩ = some row) (hsame : SameNote vault id s s₁) (hf : MarksOnly f) :
    ForgetPreserves v vault id s (s₁.updateRow ⟨vault, id⟩ f) ↔ row.Unmarked := by
  have hnote' : v.readNoteIn (s₁.updateRow ⟨vault, id⟩ f) vault id = some note := by
    rw [readNoteIn_updateRow hf.address, readNoteIn_of_sameNote hsame, hnote]
  have hrow' : (s₁.updateRow ⟨vault, id⟩ f).notes ⟨vault, id⟩ = some (f row) := by
    rw [updateRow_self, hsame.row, hrow, Option.map_some]
  have hbody : (f row).bodyText = row.bodyText :=
    show (f row).unmarkForgotten.bodyText = row.unmarkForgotten.bodyText by rw [hf row]
  have hstat : (f row).status = row.status :=
    show (f row).unmarkForgotten.status = row.unmarkForgotten.status by rw [hf row]
  rw [forgetPreserves_iff hnote hrow hnote' hrow', hf row, sameButStamps_unmarkForgotten_iff]
  constructor
  · intro h
    exact h.2.2
  · intro h
    exact ⟨⟨rfl, rfl⟩, ⟨hbody, hstat⟩, h⟩

theorem mirrors_rowOfNote_congr (rolesOfBody : String → ProjectMapRoles) (hbody : note'.body = note.body)
    (hsame : note.frontmatter.SameButForgotten note'.frontmatter) (row : NoteRow) :
    row.Mirrors (rowOfNote rolesOfBody note') ↔ row.Mirrors (rowOfNote rolesOfBody note) := by
  unfold Frontmatter.SameButForgotten at hsame
  unfold NoteRow.Mirrors rowOfNote
  rw [hbody, hsame]

/-- The write of the request that the worker sends for `note`. -/
def Vault.forgetWrite (v : Vault) (input : ForgetInput) (forgottenBy : Option String) (note : Note)
    (id : NoteId) (s : VaultState) : Judged :=
  v.judged input.write
    (forgottenFrontmatter input note.frontmatter.section forgottenBy note.frontmatter) "" id none s

theorem forgetWrite_vaultId (input : ForgetInput) (forgottenBy : Option String) (note : Note)
    (id : NoteId) (s : VaultState) :
    (v.forgetWrite input forgottenBy note id s).note.frontmatter.vaultId =
      (v.fillVaultId note.frontmatter).vaultId := by
  unfold Vault.forgetWrite
  rw [judged_vaultId, v.fillVaultId_vaultId, v.fillVaultId_vaultId]
  rfl

/-- The frontmatter a forget stores differs from the old one in the forgotten fields alone if the vault
id was there and the privacy decision changes nothing. -/
theorem sameButForgotten_forgetWrite_iff (input : ForgetInput) (forgottenBy : Option String)
    (hnote : v.readNoteIn s vault id = some note)
    (hvault : (v.fillVaultId note.frontmatter).vaultId = vault) : note.frontmatter.SameButForgotten
        (v.forgetWrite input forgottenBy note id s).note.frontmatter ↔
      note.frontmatter.vaultId = vault ∧ PrivacySettled v input.write note := by
  have hfill : (v.fillVaultId (forgottenFrontmatter input note.frontmatter.section forgottenBy
      note.frontmatter)).vaultId = vault := by
    rw [← hvault, v.fillVaultId_vaultId, v.fillVaultId_vaultId]
    rfl
  unfold Frontmatter.SameButForgotten PrivacySettled Vault.forgetWrite
  rw [judged_frontmatter, hfill, hnote]
  cases hfm : note.frontmatter
  simp only [forgottenFrontmatter, Option.none_or, Frontmatter.mk.injEq, Prod.ext_iff, true_and,
    and_true]
  constructor
  · intro h
    exact ⟨h.1.symm, h.2⟩
  · intro h
    exact ⟨h.1.symm, h.2⟩

theorem forgetPreserves_of_written (hmasks : v.privacy.policy.masks = false)
    (hnote : v.readNoteIn s vault id = some note) (hrow : s.notes ⟨vault, id⟩ = some row)
    (hvault : (v.fillVaultId note.frontmatter).vaultId = vault)
    (hfresh : Vault.FreshHash (v.forgetWrite input forgottenBy note id s).note s) :
    ForgetPreserves v vault id s
        ((v.commit input.write (v.forgetWrite input forgottenBy note id s) s).updateRow
          ⟨vault, id⟩ (NoteRow.markForgotten input.markedAt forgottenBy)) ↔
      row.Unmarked ∧ Bare v vault input.write note row := by
  have hfile := sameButForgotten_forgetWrite_iff input forgottenBy hnote hvault
  have hwrit := forgetWrite_vaultId (v := v) input forgottenBy note id s
  have hbody : (v.forgetWrite input forgottenBy note id s).note.body = "" :=
    judged_body_of_masks_false hmasks _ _ _ _ _ _
  have hid : (v.forgetWrite input forgottenBy note id s).note.id = id := rfl
  have hhash : (v.forgetWrite input forgottenBy note id s).note.contentHash =
      v.contentHash (v.forgetWrite input forgottenBy note id s).note.frontmatter
        (v.forgetWrite input forgottenBy note id s).note.body := rfl
  -- from here on only these facts about the write are used
  generalize v.forgetWrite input forgottenBy note id s = written at *
  rw [hvault] at hwrit
  have hold : s.notes ⟨written.note.frontmatter.vaultId, written.note.id⟩ = some row := by
    rw [hwrit, hid, hrow]
  have hne : row.contentHash ≠ (rowOfNote v.rolesOfBody written.note).contentHash :=
    hfresh row hold
  have hmark := marksOnly_markForgotten input.markedAt forgottenBy
  have hread := readNoteIn_commit_updateRow input.write hmark.address hhash hfresh
  have hrow' := notes_commit_updateRow (v := v) input.write
    (NoteRow.markForgotten input.markedAt forgottenBy) hold
  rw [hwrit, hid] at hread hrow'
  rw [forgetPreserves_iff hnote hrow hread hrow', sameButStamps_unmark_iff hne, hfile, hbody]
  constructor
  · intro h
    obtain ⟨⟨hempty, hvaultId, hsettled⟩, -, hunm, hmir⟩ := h
    have hsame := hfile.2 ⟨hvaultId, hsettled⟩
    rw [mirrors_rowOfNote_congr v.rolesOfBody (hbody.trans hempty) hsame] at hmir
    exact ⟨hunm, hvaultId, hempty.symm, hsettled, hmir⟩
  · intro ⟨hunm, hbare⟩
    have hsame := hfile.2 ⟨hbare.vaultId, hbare.privacy⟩
    have hmir : row.Mirrors (rowOfNote v.rolesOfBody written.note) := by
      rw [mirrors_rowOfNote_congr v.rolesOfBody (hbody.trans hbare.body.symm) hsame]
      exact hbare.mirrors
    have hcols : row.bodyText = written.note.body ∧ row.status = written.note.frontmatter.status :=
      ⟨congrArg NoteRow.bodyText hmir, congrArg NoteRow.status hmir⟩
    exact ⟨⟨hbare.body.symm, hbare.vaultId, hbare.privacy⟩,
      ⟨hcols.1.symm, hcols.2.symm⟩, hunm, hmir⟩

end Preserves

/-! ## 6. The turn of a note -/

variable {srv : Server} {tenant : Tenant srv} {id : NoteId} {s : VaultState} {input : ForgetInput}
  {forgottenBy : Option String}

theorem handlePersistForget_eq (input : ForgetInput) (forgottenBy : Option String)
    (hmasks : srv.vault.privacy.policy.masks = false)
    (hnote : srv.vault.readNoteIn s tenant.id id = some note)
    (hrow : s.notes ⟨tenant.id, id⟩ = some row) :
    srv.handlePersistForget input
        { noteId := id
          tenantId := tenant.id
          body := ""
          «section» := note.frontmatter.section.asStr
          forgottenBy := forgottenBy } s =
      (.ok (), (srv.vault.commit input.write (srv.vault.forgetWrite input forgottenBy note id s)
        s).updateRow ⟨tenant.id, id⟩ (NoteRow.markForgotten input.markedAt forgottenBy)) := by
  obtain ⟨row', hrow'⟩ := exists_row_commit (v := srv.vault) hrow input.write
    (srv.vault.forgetWrite input forgottenBy note id s)
  unfold Server.handlePersistForget
  simp only [Section.fromCanonicalStr_asStr, Server.readerVault_tenant, hnote]
  rw [writeNoteWithIdInternal_self hmasks]
  show (Except.ok (), (setMark (srv.vault.commit input.write
    (srv.vault.forgetWrite input forgottenBy note id s) s) tenant.id id _).2) = _
  rw [setMark_of_row hrow']

theorem handleForgetNote_cases (hmasks : srv.vault.privacy.policy.masks = false)
    (hcntd : (srv.handleForgetNote input tenant.id forgottenBy id s).1 = true) :
    ∃ note row, srv.vault.readNoteIn s tenant.id id = some note ∧ s.notes ⟨tenant.id, id⟩ = some row ∧
      ((note.frontmatter.forgotten = some true ∧
          (srv.handleForgetNote input tenant.id forgottenBy id s).2 =
            s.updateRow ⟨tenant.id, id⟩ NoteRow.reassertForgotten) ∨
        (note.frontmatter.forgotten ≠ some true ∧
          (srv.handleForgetNote input tenant.id forgottenBy id s).2 =
            (srv.vault.commit input.write (srv.vault.forgetWrite input forgottenBy note id s)
              s).updateRow ⟨tenant.id, id⟩ (NoteRow.markForgotten input.markedAt forgottenBy))) := by
  unfold Server.handleForgetNote at hcntd ⊢
  rw [Server.readerVault_tenant] at hcntd ⊢
  cases hnote : srv.vault.readNoteIn s tenant.id id with
  | none =>
    rw [hnote] at hcntd
    cases hcntd
  | some note =>
    obtain ⟨row, hrow⟩ := exists_row_of_readNoteIn hnote
    refine ⟨note, row, rfl, hrow, ?_⟩
    have hgetD : note.frontmatter.forgotten.getD false = true ↔
        note.frontmatter.forgotten = some true := by
      cases note.frontmatter.forgotten <;> simp
    simp only [hgetD]
    by_cases hforg : note.frontmatter.forgotten = some true
    · left
      refine ⟨hforg, ?_⟩
      rw [if_pos hforg]
      show (setMark s tenant.id id _).2 = _
      rw [setMark_of_row hrow]
    · right
      refine ⟨hforg, ?_⟩
      rw [if_neg hforg, handlePersistForget_eq input forgottenBy hmasks hnote hrow]

theorem sameNote_handleForgetNote (vault' : VaultId) (s : VaultState)
    (hne : id ≠ id') : SameNote vault' id' s (srv.handleForgetNote input vault forgottenBy id s).2 := by
  unfold Server.handleForgetNote
  cases srv.vault.readNoteIn s (srv.readerVault vault) id with
  | none => exact .refl vault' id' s
  | some dto =>
    dsimp only
    split
    · exact sameNote_setMark vault vault' s hne _
    generalize hreq : PersistForgetRequest.mk id vault "" dto.frontmatter.section.asStr
      forgottenBy = req
    have hid : req.noteId ≠ id' := by
      rw [← hreq]
      exact hne
    have hpers : SameNote vault' id' s (srv.handlePersistForget input req s).2 :=
      sameNote_handlePersistForget vault' s input req hid
    cases hreply : srv.handlePersistForget input req s with
    | mk reply s₁ =>
      rw [hreply] at hpers
      cases reply with
      | error | ok => exact hpers

/-- The version that the turn would write has a hash the index does not hold yet: its `forgotten_at`
and `updated` are clock readings of the turn. -/
def ForgetsFresh (v : Vault) (vault : VaultId) (input : ForgetInput) (forgottenBy : Option String)
    (id : NoteId) (s : VaultState) : Prop :=
  ∀ note, v.readNoteIn s vault id = some note →
    Vault.FreshHash (v.forgetWrite input forgottenBy note id s).note s

/-- A counted note lost nothing in its turn just if its row carried no mark and its file was not
rewritten or was bare. -/
theorem forgetPreserves_handleForgetNote_iff (hmasks : srv.vault.privacy.policy.masks = false)
    (hcntd : (srv.handleForgetNote input tenant.id forgottenBy id s).1 = true)
    (hfresh : ForgetsFresh srv.vault tenant.id input forgottenBy id s) :
    ForgetPreserves srv.vault tenant.id id s (srv.handleForgetNote input tenant.id forgottenBy id s).2 ↔
      ForgetSafe srv.vault tenant.id input id s := by
  obtain ⟨note, row, hnote, hrow, hturn⟩ := handleForgetNote_cases hmasks hcntd
  -- the condition at the note and the row there are
  have hsafe : ForgetSafe srv.vault tenant.id input id s ↔
      row.Unmarked ∧ (note.frontmatter.forgotten = some true ∨
        (srv.vault.fillVaultId note.frontmatter).vaultId ≠ tenant.id ∨
          Bare srv.vault tenant.id input.write note row) := by
    constructor
    · intro h
      exact h note row hnote hrow
    intro h n r hn hr
    cases hnote.symm.trans hn
    cases hrow.symm.trans hr
    exact h
  rw [hsafe]
  rcases hturn with ⟨hforg, hstate⟩ | ⟨hforg, hstate⟩
  · rw [hstate, forgetPreserves_of_marksOnly hnote hrow ⟨rfl, fun _ => rfl⟩
      marksOnly_reassertForgotten]
    simp [hforg]
  rw [hstate]
  -- the write goes to the vault the frontmatter names, the mark to the tenant's
  by_cases hvault : (srv.vault.fillVaultId note.frontmatter).vaultId = tenant.id
  · rw [forgetPreserves_of_written hmasks hnote hrow hvault (hfresh note hnote)]
    simp [hforg, hvault]
  have hother : SameNote tenant.id id s (srv.vault.commit input.write
      (srv.vault.forgetWrite input forgottenBy note id s) s) := by
    apply sameNote_commit
    left
    rw [forgetWrite_vaultId]
    exact hvault
  rw [forgetPreserves_of_marksOnly hnote hrow hother (marksOnly_markForgotten _ _)]
  simp [hvault]

end Gradatum.Notes
