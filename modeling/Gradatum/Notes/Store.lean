import Gradatum.Notes.Privacy

/-!
# Reading and writing notes

The storage holds the files and the earlier versions of each note, the index holds the rows.  A read looks
for the file under the locus of the row, then at the top of the vault, then under the section; a write
decides the path from the frontmatter alone.  The storage is taken to be faithful.
-/

namespace Gradatum.Notes

open Option Function

/-! ## 1. State -/

structure HistoryConfig where
  maxVersions : Nat
  ttlDays : Option Nat

/-- A vault instance: what it is configured with, and the functions of other crates that it calls. -/
structure Vault where
  vaultId : VaultId
  /-- `ContentHash::compute`. -/
  contentHash : Frontmatter → String → ContentHash
  /-- `sha256_for_history`. -/
  historyHash : Frontmatter → String → ContentHash
  /-- `roles_of_body`. -/
  rolesOfBody : String → ProjectMapRoles
  privacy : PrivacySettings
  history : HistoryConfig

structure VaultState where
  files : NotePath → Option MdFile
  /-- The snapshots under `<vault>/.history/<id>/`, by the millisecond they are named after. -/
  history : VaultId → NoteId → List (Int × MdFile)
  notes : NoteKey → Option NoteRow

structure SameNote (vault : VaultId) (id : NoteId) (s s' : VaultState) : Prop where
  row : s'.notes ⟨vault, id⟩ = s.notes ⟨vault, id⟩
  files : ∀ dir, s'.files ⟨vault, dir, id⟩ = s.files ⟨vault, dir, id⟩

theorem SameNote.refl (vault : VaultId) (id : NoteId) (s : VaultState) : SameNote vault id s s :=
  ⟨rfl, fun _ => rfl⟩

theorem SameNote.symm {id : NoteId} (h : SameNote vault id s s') : SameNote vault id s' s :=
  ⟨h.row.symm, fun dir => (h.files dir).symm⟩

theorem SameNote.trans {id : NoteId}
    (h₁ : SameNote vault id s₁ s₂) (h₂ : SameNote vault id s₂ s₃) : SameNote vault id s₁ s₃ :=
  ⟨h₂.row.trans h₁.row, fun dir => (h₂.files dir).trans (h₁.files dir)⟩

/-! ## 2. Reading -/

/-- The directories `read_note_from_record` looks for the file in, in its order. -/
def consultedDirs (record : NoteRow) : List (Option String) :=
  ((record.locus.filter (· ≠ "")).map some).toList ++ [none, some record.section.asStr]

def consultedPaths (vaultId : VaultId) (record : NoteRow) (id : NoteId) : List NotePath :=
  (consultedDirs record).map fun dir => ⟨vaultId, dir, id⟩

namespace Vault

variable (v : Vault)

/-- The note of the first path at which there is a file; `none` is `NoteNotFound`. -/
def readNoteFromRecord (s : VaultState) (vaultId : VaultId) (record : NoteRow) (id : NoteId) :
    Option Note :=
  ((consultedPaths vaultId record id).findSome? s.files).map fun file =>
    ⟨id, file.frontmatter, file.body, v.contentHash file.frontmatter file.body⟩

def readNoteIn (s : VaultState) (vaultId : VaultId) (id : NoteId) : Option Note :=
  (s.notes ⟨vaultId, id⟩).bind fun record => v.readNoteFromRecord s vaultId record id

def readNote (s : VaultState) (id : NoteId) : Option Note := v.readNoteIn s v.vaultId id

end Vault

/-! ## 3. History -/

def historyVersions (s : VaultState) (vaultId : VaultId) (id : NoteId) : List Int :=
  ((s.history vaultId id).map Prod.fst).mergeSort (· ≤ ·)

def VaultState.setHistory (s : VaultState) (vaultId : VaultId) (id : NoteId)
    (snapshots : List (Int × MdFile)) : VaultState :=
  { s with
    history := update s.history vaultId
      (update (s.history vaultId) id snapshots) }

@[simp] theorem VaultState.setHistory_self (s : VaultState) (vault : VaultId) (id : NoteId)
    (snapshots : List (Int × MdFile)) : (s.setHistory vault id snapshots).history vault id = snapshots := by
  simp [VaultState.setHistory]

def VaultState.deleteSnapshots (s : VaultState) (vaultId : VaultId) (id : NoteId)
    (stamps : List Int) : VaultState :=
  s.setHistory vaultId id ((s.history vaultId id).filter fun (ts, _) => !stamps.contains ts)

def dayMillis : Nat := 24 * 3600 * 1000

namespace Vault

variable (v : Vault)

/-- The versions to keep are counted in the vault the instance serves, whichever vault `tenant` the
snapshots to delete are in. -/
def applyHistoryTrim (id : NoteId) (tenant : VaultId) (cfg : HistoryConfig) (nowMs : Nat)
    (s : VaultState) : VaultState :=
  let versions := historyVersions s v.vaultId id
  let expired := match cfg.ttlDays with
    | none => []
    | some days => versions.filter fun ts => ts.toNat < nowMs - days * dayMillis
  let s := s.deleteSnapshots tenant id expired
  let versions := versions.filter fun ts => !expired.contains ts
  let effectiveMax := max cfg.maxVersions 1
  s.deleteSnapshots tenant id (versions.take (versions.length - effectiveMax))

/-- The copy-on-write step: the file at the path of the previous version goes to the history under the
time of that version. -/
def snapshot (id : NoteId) (prev : Note) (nowMs : Nat) (s : VaultState) : VaultState :=
  match s.files (noteMdRelativePath prev) with
  -- the path of the previous frontmatter need not be where the previous version was read
  | none => s
  | some file =>
    let tenant := prev.frontmatter.vaultId
    let ts := (prev.frontmatter.updated.getD prev.frontmatter.created).millis
    let kept := (s.history tenant prev.id).filter fun (stamp, _) => stamp ≠ ts
    v.applyHistoryTrim id tenant v.history nowMs (s.setHistory tenant prev.id ((ts, file) :: kept))

end Vault

/-! ## 4. Writing -/

inductive VaultError where
  | noteNotFound (id : NoteId)
  /-- The refusal of a write whose pass did not complete under a masking policy. -/
  | detectorUnavailable
  /-- The frontmatter names another vault than the one the caller was checked for. -/
  | aclMismatch (vaultId checked : VaultId)
  deriving DecidableEq

/-- What a write takes from outside: its clock readings, and how the detection pass over its vault,
section and body ends (`none` where no pass is due). -/
structure WriteInput where
  outcome : Option PassOutcome
  scannedAt : String
  updated : Instant
  trimmedAt : Instant

/-- A write before anything is stored: the note, the version it replaces, and whether masking changed
the body. -/
structure Judged where
  note : Note
  existing : Option Note
  bodyMasked : Bool

namespace Vault

variable (v : Vault) (input : WriteInput) (frontmatter : Frontmatter)

def fillVaultId : Frontmatter :=
  if frontmatter.vaultId = "" then { frontmatter with vaultId := v.vaultId } else frontmatter

theorem fillVaultId_vaultId : (v.fillVaultId frontmatter).vaultId =
      if frontmatter.vaultId = "" then v.vaultId else frontmatter.vaultId := by
  unfold fillVaultId
  split <;> rfl

def judgedFrontmatter (existing : Option Note) (outcome : Option PassOutcome) : Frontmatter :=
  { v.privacy.decidePrivacy input.scannedAt frontmatter existing outcome with
    updated := some input.updated }

def judged (body : String) (id : NoteId) (reuse : Option PassOutcome) (s : VaultState) : Judged :=
  let frontmatter := v.fillVaultId frontmatter
  let outcome := reuse.or input.outcome
  -- the previous version is looked up before the tags and the extra table are decided
  let existing := v.readNoteIn s frontmatter.vaultId id
  let frontmatter := v.judgedFrontmatter input frontmatter existing outcome
  let masked := v.privacy.maskedBody body outcome
  { note := ⟨id, frontmatter, masked.1, v.contentHash frontmatter masked.1⟩
    existing := existing
    bodyMasked := masked.2 }

def refuses (reuse : Option PassOutcome) : Bool :=
  v.privacy.policy.masks &&
    (reuse.or input.outcome).any fun outcome => outcome.status = .detectorUnavailable

def recordHistory (judged : Judged) (s : VaultState) : VaultState :=
  match judged.existing with
  | none => s
  | some prev =>
    if judged.bodyMasked then s.setHistory prev.frontmatter.vaultId prev.id []
    else if v.historyHash prev.frontmatter prev.body ≠
        v.historyHash judged.note.frontmatter judged.note.body then
      v.snapshot judged.note.id prev input.trimmedAt.millis.toNat s
    else s

def upsertNote (note : Note) (notes : NoteKey → Option NoteRow) : NoteKey → Option NoteRow :=
  let key : NoteKey := ⟨note.frontmatter.vaultId, note.id⟩
  let excluded := rowOfNote v.rolesOfBody note
  update notes key <| some <|
    match notes key with
    | none => excluded
    | some old => old.onConflict excluded

def commit (judged : Judged) (s : VaultState) : VaultState :=
  { v.recordHistory input judged s with
    -- a file at another path that this version replaces stays where it is
    files := update s.files (noteMdRelativePath judged.note) (some judged.note.file)
    notes := v.upsertNote judged.note s.notes }

def writeNoteJudged (body : String) (id : NoteId)
    (reuse : Option PassOutcome) (s : VaultState) : Except VaultError Note × VaultState :=
  if v.refuses input reuse then (.error .detectorUnavailable, s)
  else
    let judged := v.judged input frontmatter body id reuse s
    (.ok judged.note, v.commit input judged s)

def writeNoteWithId (body : String) (id : NoteId)
    (s : VaultState) : Except VaultError Note × VaultState :=
  v.writeNoteJudged input frontmatter body id none s

def writeNoteWithIdInternal (checked : VaultId) (input : WriteInput) (frontmatter : Frontmatter)
    (body : String) (id : NoteId) (s : VaultState) : Except VaultError Note × VaultState :=
  if frontmatter.vaultId ≠ "" ∧ frontmatter.vaultId ≠ checked then
    (.error (.aclMismatch frontmatter.vaultId checked), s)
  else v.writeNoteWithId input frontmatter body id s

end Vault

/-! ## 5. Columns that reads do not look at -/

/-- An UPDATE of one row; it affects nothing where there is no row. -/
def VaultState.updateRow (s : VaultState) (key : NoteKey) (f : NoteRow → NoteRow) : VaultState :=
  { s with notes := update s.notes key ((s.notes key).map f) }

@[simp] theorem VaultState.updateRow_self (s : VaultState) (key : NoteKey) (f : NoteRow → NoteRow) :
    (s.updateRow key f).notes key = (s.notes key).map f := by
  simp [VaultState.updateRow]

theorem VaultState.updateRow_of_ne (s : VaultState) (f : NoteRow → NoteRow) (hne : key' ≠ key) :
    (s.updateRow key f).notes key' = s.notes key' := by
  simp [VaultState.updateRow, hne]

theorem sameNote_updateRow {id : NoteId} (vault : VaultId) (s : VaultState)
    (f : NoteRow → NoteRow) (hne : key.id ≠ id) : SameNote vault id s (s.updateRow key f) where
  row := s.updateRow_of_ne f fun hkey => hne (congrArg NoteKey.id hkey).symm
  files _ := rfl

/-- Where a read looks for the file. -/
def NoteRow.address (row : NoteRow) : Option String × Section := (row.locus, row.section)

namespace Vault

variable {v : Vault} {id : NoteId} {s s' : VaultState} {note : Note} {judged : Judged}

theorem readNoteIn_congr
    (hrow : (s'.notes ⟨vault, id⟩).map NoteRow.address = (s.notes ⟨vault, id⟩).map NoteRow.address)
    (hfiles : ∀ dir, s'.files ⟨vault, dir, id⟩ = s.files ⟨vault, dir, id⟩) :
    v.readNoteIn s' vault id = v.readNoteIn s vault id := by
  have hpaths : ∀ row row' : NoteRow, row'.address = row.address →
      v.readNoteFromRecord s' vault row' id = v.readNoteFromRecord s vault row id := by
    intro row row' haddr
    have hlocus : row'.locus = row.locus := congrArg Prod.fst haddr
    have hsec : row'.section = row.section := congrArg Prod.snd haddr
    have hdirs : consultedDirs row' = consultedDirs row := by
      unfold consultedDirs
      rw [hlocus, hsec]
    have hlook : (s'.files ∘ fun dir => ⟨vault, dir, id⟩) =
        (s.files ∘ fun dir => ⟨vault, dir, id⟩) := funext hfiles
    unfold readNoteFromRecord consultedPaths
    rw [List.findSome?_map, List.findSome?_map, hdirs, hlook]
  unfold readNoteIn
  cases hs : s.notes ⟨vault, id⟩ with
  | none =>
    rw [hs, map_none, map_eq_none_iff] at hrow
    rw [hrow]
    rfl
  | some row =>
    rw [hs, map_some, map_eq_some_iff] at hrow
    obtain ⟨row', hrow', haddr⟩ := hrow
    rw [hrow']
    exact hpaths row row' haddr

theorem exists_row_of_readNoteIn
    (h : v.readNoteIn s vault id = some note) : ∃ row, s.notes ⟨vault, id⟩ = some row := by
  obtain ⟨row, hrow, -⟩ := bind_eq_some_iff.1 h
  exact ⟨row, hrow⟩

theorem readNoteIn_id (h : v.readNoteIn s vault id = some note) : note.id = id := by
  obtain ⟨row, -, hread⟩ := bind_eq_some_iff.1 h
  obtain ⟨file, -, rfl⟩ := map_eq_some_iff.1 hread
  rfl

theorem readNoteIn_of_sameNote
    (h : SameNote vault id s s') : v.readNoteIn s' vault id = v.readNoteIn s vault id :=
  readNoteIn_congr (by rw [h.row]) h.files

theorem readNoteIn_updateRow (hf : ∀ row, (f row).address = row.address) (s : VaultState) (key : NoteKey)
    (vault : VaultId) (id : NoteId) :
    v.readNoteIn (s.updateRow key f) vault id = v.readNoteIn s vault id := by
  apply readNoteIn_congr
  · by_cases hkey : (⟨vault, id⟩ : NoteKey) = key
    · rw [hkey, VaultState.updateRow_self, Option.map_map]
      congr
      funext row
      exact hf row
    · rw [s.updateRow_of_ne f hkey]
  · intro dir
    rfl

/-! ## 6. What a write does -/

section

variable (input : WriteInput) (frontmatter : Frontmatter) (body : String) (id : NoteId)
  (reuse : Option PassOutcome) (s : VaultState)

@[simp] theorem judged_id
    :
    (v.judged input frontmatter body id reuse s).note.id = id := rfl

@[simp] theorem judged_vaultId
    :
    (v.judged input frontmatter body id reuse s).note.frontmatter.vaultId =
      (v.fillVaultId frontmatter).vaultId := rfl

/-- Of the frontmatter it is given, a write changes the vault id if it is empty, the time stamp, and what
the privacy decision is about. -/
theorem judged_frontmatter
    :
    (v.judged input frontmatter body id reuse s).note.frontmatter =
      let decided := v.privacy.decideTagsAndExtra input.scannedAt frontmatter.tags frontmatter.extra
        (v.readNoteIn s (v.fillVaultId frontmatter).vaultId id) (reuse.or input.outcome)
      { frontmatter with
        vaultId := (v.fillVaultId frontmatter).vaultId
        tags := decided.1
        extra := decided.2
        updated := some input.updated } := by
  unfold judged judgedFrontmatter PrivacySettings.decidePrivacy fillVaultId
  split <;> rfl

end

theorem judged_body_of_masks_false (hmasks : v.privacy.policy.masks = false) (input : WriteInput)
    (frontmatter : Frontmatter) (body : String) (id : NoteId) (reuse : Option PassOutcome)
    (s : VaultState) : (v.judged input frontmatter body id reuse s).note.body = body := by
  show (v.privacy.maskedBody body (reuse.or input.outcome)).1 = body
  rw [PrivacySettings.maskedBody_of_masks_false hmasks]

theorem writeNoteJudged_cases (input : WriteInput) (frontmatter : Frontmatter) (body : String)
    (id : NoteId) (reuse : Option PassOutcome) (s : VaultState) :
    (∃ e, v.writeNoteJudged input frontmatter body id reuse s = (.error e, s)) ∨
      v.writeNoteJudged input frontmatter body id reuse s =
        (.ok (v.judged input frontmatter body id reuse s).note,
          v.commit input (v.judged input frontmatter body id reuse s) s) := by
  unfold writeNoteJudged
  split
  · exact .inl ⟨_, rfl⟩
  · exact .inr rfl

theorem writeNoteWithIdInternal_cases (checked : VaultId) (input : WriteInput)
    (frontmatter : Frontmatter) (body : String) (id : NoteId) (s : VaultState) :
    (∃ e, v.writeNoteWithIdInternal checked input frontmatter body id s = (.error e, s)) ∨
      v.writeNoteWithIdInternal checked input frontmatter body id s =
        (.ok (v.judged input frontmatter body id none s).note,
          v.commit input (v.judged input frontmatter body id none s) s) := by
  unfold writeNoteWithIdInternal
  split
  · exact .inl ⟨_, rfl⟩
  · exact writeNoteJudged_cases input frontmatter body id none s

theorem writeNoteWithIdInternal_self (hmasks : v.privacy.policy.masks = false)
    (input : WriteInput) (frontmatter : Frontmatter) (body : String) (id : NoteId) (s : VaultState) :
    v.writeNoteWithIdInternal frontmatter.vaultId input frontmatter body id s =
      (.ok (v.judged input frontmatter body id none s).note,
        v.commit input (v.judged input frontmatter body id none s) s) := by
  simp [writeNoteWithIdInternal, writeNoteWithId, writeNoteJudged, refuses, hmasks]

def FreshHash (note : Note) (s : VaultState) : Prop :=
  ∀ row, s.notes ⟨note.frontmatter.vaultId, note.id⟩ = some row → row.contentHash ≠ note.contentHash

theorem commit_notes_self (input : WriteInput) (judged : Judged) (s : VaultState) :
    (v.commit input judged s).notes ⟨judged.note.frontmatter.vaultId, judged.note.id⟩ =
      some (match s.notes ⟨judged.note.frontmatter.vaultId, judged.note.id⟩ with
        | none => rowOfNote v.rolesOfBody judged.note
        | some old => old.onConflict (rowOfNote v.rolesOfBody judged.note)) := by
  simp [commit, upsertNote]

theorem exists_row_commit (hrow : s.notes key = some row) (input : WriteInput) (judged : Judged) :
    ∃ row', (v.commit input judged s).notes key = some row' := by
  by_cases hkey : key = ⟨judged.note.frontmatter.vaultId, judged.note.id⟩
  · rw [hkey, commit_notes_self]
    exact ⟨_, rfl⟩
  · refine ⟨row, ?_⟩
    rw [← hrow]
    exact update_of_ne hkey _ _

theorem sameNote_commit
    (s : VaultState) (hother : judged.note.frontmatter.vaultId ≠ vault ∨ judged.note.id ≠ id) :
    SameNote vault id s (v.commit input judged s) where
  row := by
    apply update_of_ne
    intro hkey
    cases hkey
    simp at hother
  files := by
    intro dir
    apply update_of_ne
    intro hpath
    cases hpath
    simp at hother

theorem sameNote_writeNoteWithIdInternal (vault : VaultId) (s : VaultState) (hne : id ≠ id') :
    SameNote vault id' s (v.writeNoteWithIdInternal checked input frontmatter body id s).2 := by
  rcases writeNoteWithIdInternal_cases (v := v) checked input frontmatter body id s with
    ⟨e, hreply⟩ | hreply
  · rw [hreply]
    exact .refl vault id' s
  · rw [hreply]
    exact sameNote_commit s (.inr hne)

theorem findSome?_consultedPaths {vaultId : VaultId} {locus : Option LocusId}
    (hlocus : record.locus = locus.map (·.path))
    (hfile : files ⟨vaultId, locus.map (·.path), id⟩ = some file) :
    (consultedPaths vaultId record id).findSome? files = some file := by
  unfold consultedPaths consultedDirs
  cases locus with
  | none =>
    have hnone : record.locus = none := hlocus
    simp only [map_none] at hfile
    simp [hnone, hfile]
  | some l =>
    have hsome : record.locus = some l.path := hlocus
    simp only [map_some] at hfile
    simp [hsome, Option.filter, l.nonempty, hfile]

theorem locus_commit (input : WriteInput) (judged : Judged)
    (hnew : judged.note.frontmatter.locus.map (·.path) = locus)
    (hold : ∀ row, s.notes ⟨judged.note.frontmatter.vaultId, judged.note.id⟩ = some row → row.locus = locus)
    (row : NoteRow) (hrow : (v.commit input judged s).notes
      ⟨judged.note.frontmatter.vaultId, judged.note.id⟩ = some row) : row.locus = locus := by
  rw [commit_notes_self, Option.some.injEq] at hrow
  rw [← hrow]
  cases hexis : s.notes ⟨judged.note.frontmatter.vaultId, judged.note.id⟩ with
  | none => exact hnew
  | some old =>
    dsimp only [NoteRow.onConflict]
    split
    · exact hnew
    · exact hold old hexis

theorem readNoteIn_commit_of_locus (input : WriteInput) (judged : Judged)
    (hhash : judged.note.contentHash = v.contentHash judged.note.frontmatter judged.note.body)
    (hlocus : ∀ row, (v.commit input judged s).notes ⟨judged.note.frontmatter.vaultId, judged.note.id⟩ =
      some row → row.locus = judged.note.frontmatter.locus.map (·.path)) :
    v.readNoteIn (v.commit input judged s) judged.note.frontmatter.vaultId judged.note.id =
      some judged.note := by
  have hrow := commit_notes_self (v := v) input judged s
  have hfile : (v.commit input judged s).files (noteMdRelativePath judged.note) =
      some judged.note.file := by
    simp [commit]
  rw [readNoteIn, hrow, bind_some, readNoteFromRecord,
    findSome?_consultedPaths (hlocus _ hrow) hfile, map_some, Note.file, ← hhash]

theorem readNoteIn_commit_judged (input : WriteInput) (frontmatter : Frontmatter) (body : String)
    (id : NoteId) (reuse : Option PassOutcome) (hvault : (v.fillVaultId frontmatter).vaultId = vault)
    (hold : ∀ row, s.notes ⟨vault, id⟩ = some row → row.locus = frontmatter.locus.map (·.path)) :
    let judged := v.judged input frontmatter body id reuse s
    v.readNoteIn (v.commit input judged s) vault id = some judged.note ∧
      ∀ row, (v.commit input judged s).notes ⟨vault, id⟩ = some row →
        row.locus = frontmatter.locus.map (·.path) := by
  intro judged
  have hlocus : judged.note.frontmatter.locus = frontmatter.locus := by
    show (v.judged input frontmatter body id reuse s).note.frontmatter.locus = _
    rw [judged_frontmatter]
  have hrows := locus_commit (v := v) (s := s) input judged (by rw [hlocus])
    (by rw [judged_vaultId, judged_id, hvault]; exact hold)
  have hread := readNoteIn_commit_of_locus (v := v) (s := s) input judged rfl (by rw [hlocus]; exact hrows)
  rw [judged_vaultId, judged_id, hvault] at hrows hread
  exact ⟨hread, hrows⟩

theorem readNoteIn_commit (input : WriteInput)
    (hhash : judged.note.contentHash = v.contentHash judged.note.frontmatter judged.note.body)
    (hfresh : FreshHash judged.note s) :
    v.readNoteIn (v.commit input judged s) judged.note.frontmatter.vaultId judged.note.id =
      some judged.note := by
  apply readNoteIn_commit_of_locus input judged hhash
  intro row hrow
  rw [commit_notes_self, Option.some.injEq] at hrow
  rw [← hrow]
  cases hold : s.notes ⟨judged.note.frontmatter.vaultId, judged.note.id⟩ with
  | none => rfl
  | some old => exact NoteRow.onConflict_locus (hfresh old hold)

theorem findSome?_update (paths : List NotePath) (files : NotePath → Option MdFile) (path : NotePath)
    (file : MdFile) : paths.findSome? (update files path (some file)) = some file ∨
      paths.findSome? (update files path (some file)) = paths.findSome? files := by
  induction paths with
  | nil => exact .inr rfl
  | cons first paths ih =>
    by_cases hfirst : first = path
    · left
      rw [List.findSome?_cons, hfirst, update_self]
    · rw [List.findSome?_cons, List.findSome?_cons, update_of_ne hfirst]
      cases files first with
      | none => exact ih
      | some found => exact .inr rfl

/-- A write in the section of the row: a read finds the version, or what it found before, since a row that
has the hash of the version already keeps its locus. -/
theorem readNoteIn_commit_cases (input : WriteInput)
    (hhash : judged.note.contentHash = v.contentHash judged.note.frontmatter judged.note.body)
    (hold : s.notes ⟨judged.note.frontmatter.vaultId, judged.note.id⟩ = some old)
    (hsec : old.section = judged.note.frontmatter.section) :
    v.readNoteIn (v.commit input judged s) judged.note.frontmatter.vaultId judged.note.id =
        some judged.note ∨
      v.readNoteIn (v.commit input judged s) judged.note.frontmatter.vaultId judged.note.id =
        v.readNoteIn s judged.note.frontmatter.vaultId judged.note.id := by
  by_cases hsame : old.contentHash = judged.note.contentHash
  · let new := old.onConflict (rowOfNote v.rolesOfBody judged.note)
    have hlocus : new.locus = old.locus := if_neg (not_not.2 hsame)
    have hdirs : consultedDirs new = consultedDirs old := by
      unfold consultedDirs
      rw [hlocus, hsec]
      rfl
    have hread : v.readNoteIn (v.commit input judged s) judged.note.frontmatter.vaultId judged.note.id =
        v.readNoteFromRecord (v.commit input judged s) judged.note.frontmatter.vaultId new
          judged.note.id := by
      rw [readNoteIn, commit_notes_self, hold]
      rfl
    rw [hread, readNoteIn, hold, bind_some, readNoteFromRecord, readNoteFromRecord, consultedPaths,
      consultedPaths, hdirs]
    have hfiles : (v.commit input judged s).files =
        update s.files (noteMdRelativePath judged.note) (some judged.note.file) := rfl
    rw [hfiles]
    rcases findSome?_update ((consultedDirs old).map fun dir =>
        (⟨judged.note.frontmatter.vaultId, dir, judged.note.id⟩ : NotePath)) s.files
        (noteMdRelativePath judged.note) judged.note.file with hnew | holds
    · left
      rw [hnew, map_some, Note.file, ← hhash]
    · right
      rw [holds]
  · left
    apply readNoteIn_commit input hhash
    intro row hrow
    cases hold.symm.trans hrow
    exact hsame

/-! A write that an update of the row follows, as both handlers have it. -/

theorem readNoteIn_commit_updateRow (input : WriteInput) (hf : ∀ row, (f row).address = row.address)
    (hhash : judged.note.contentHash = v.contentHash judged.note.frontmatter judged.note.body)
    (hfresh : FreshHash judged.note s) : v.readNoteIn ((v.commit input judged s).updateRow
        ⟨judged.note.frontmatter.vaultId, judged.note.id⟩ f)
      judged.note.frontmatter.vaultId judged.note.id = some judged.note := by
  rw [readNoteIn_updateRow hf, readNoteIn_commit input hhash hfresh]

theorem notes_commit_updateRow (input : WriteInput) (f : NoteRow → NoteRow)
    (hold : s.notes ⟨judged.note.frontmatter.vaultId, judged.note.id⟩ = some old) :
    ((v.commit input judged s).updateRow ⟨judged.note.frontmatter.vaultId, judged.note.id⟩ f).notes
        ⟨judged.note.frontmatter.vaultId, judged.note.id⟩ =
      some (f (old.onConflict (rowOfNote v.rolesOfBody judged.note))) := by
  rw [VaultState.updateRow_self, commit_notes_self, hold, map_some]

end Vault

/-! ## 7. The server -/

/-- The server writes through one vault instance; with multi-tenancy it reads through the instance of
the tenant. -/
structure Server where
  vault : Vault
  multiTenant : Bool
  /-- The vaults of the `tenants` table; none has an empty name. -/
  registered : VaultId → Bool
  registered_empty : registered "" = false

def Server.readerVault (srv : Server) (tenant : VaultId) : VaultId :=
  if srv.multiTenant then tenant else srv.vault.vaultId

structure Tenant (srv : Server) where
  id : VaultId
  served : srv.multiTenant = false → id = srv.vault.vaultId

@[simp] theorem Server.readerVault_tenant (tenant : Tenant srv) :
    srv.readerVault tenant.id = tenant.id := by
  unfold Server.readerVault
  split
  · rfl
  · rename_i hsing
    rw [Bool.not_eq_true] at hsing
    exact (tenant.served hsing).symm

inductive PersistError where
  | invalidSection (name : String)
  | invalidStatus (name : String)
  | crossVault (target principal : VaultId)
  | codeVault (vault : VaultId)
  | unregistered (vault : VaultId)
  | noteNotFound (id : NoteId)
  | conflict (current : ContentHash)
  | writeFailed (e : VaultError)
  deriving DecidableEq

/-! ## 8. A vault for concrete runs -/

/-- A server of the vault `main` without a detector.  Versions are told apart by their time stamp. -/
def plainServer : Server where
  vault :=
    { vaultId := "main"
      contentHash := fun frontmatter _ => (frontmatter.updated.getD 0).toNat
      historyHash := fun frontmatter _ => (frontmatter.updated.getD 0).toNat
      rolesOfBody := fun _ => ⟨none, none⟩
      privacy :=
        { identity := none
          policy := ⟨false, fun _ => none⟩
          policyDigest := ""
          sha256 := id }
      history := ⟨50, none⟩ }
  multiTenant := false
  registered := fun vault => vault == "main"
  registered_empty := by decide

def plainTenant : Tenant plainServer := ⟨"main", fun _ => rfl⟩

def plainNote (id : NoteId) (locus : Option LocusId) (body : String) : Note where
  id := id
  frontmatter :=
    { schemaVersion := 1
      vaultId := "main"
      locus := locus
      «section» := .debug
      status := .live
      statusReason := none
      statusChanged := none
      tags := []
      author := none
      created := 0
      updated := none
      extra := .empty
      provenance := none
      forgotten := none
      forgottenAt := none
      forgottenBy := none }
  body := body
  contentHash := 0

def stateOf (note : Note) : VaultState where
  files := update (fun _ => none) (noteMdRelativePath note) (some note.file)
  history := fun _ _ => []
  notes := update (fun _ => none) ⟨note.frontmatter.vaultId, note.id⟩
    (some (rowOfNote (fun _ => ⟨none, none⟩) note))

theorem stateOf_notes_of_ne (hne : key ≠ ⟨note.frontmatter.vaultId, note.id⟩) :
    (stateOf note).notes key = none := by
  simp only [stateOf]
  rw [update_of_ne hne]

/-- A write at time `now` for which no pass is due. -/
def WriteInput.at (now : Instant) : WriteInput := ⟨none, "", now, now⟩

end Gradatum.Notes
