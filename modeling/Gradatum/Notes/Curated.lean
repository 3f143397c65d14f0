import Gradatum.Notes.Store

/-!
# Updating a note in place

A curated update names the hash of the version it replaces.  The handler builds a new frontmatter from the
request; what the request does not carry is to stay as it was.
-/

namespace Gradatum.Notes

open Function

/-! ## 1. The handler -/

inductive WriteResult where
  | written (newSha256 : ContentHash)
  | conflict (currentSha256 : ContentHash)

namespace Vault

variable (v : Vault)

def writeIfMatch (input : WriteInput) (frontmatter : Frontmatter) (body : String) (id : NoteId)
    (expected : Option ContentHash) (s : VaultState) : Except VaultError WriteResult × VaultState :=
  let write :=
    match v.writeNoteJudged input frontmatter body id none s with
    | (.error e, s) => (.error e, s)
    | (.ok note, s) => (.ok (.written note.contentHash), s)
  match expected, v.readNote s id with
  -- a hash that is expected of a note that is not there does not stop the write
  | some expected, some existing =>
    if existing.contentHash ≠ expected then (.ok (.conflict existing.contentHash), s) else write
  | _, _ => write

def writeIfMatchInternal (checked : VaultId) (input : WriteInput) (frontmatter : Frontmatter)
    (body : String) (id : NoteId) (expected : ContentHash) (s : VaultState) :
    Except VaultError WriteResult × VaultState :=
  if frontmatter.vaultId ≠ "" ∧ frontmatter.vaultId ≠ checked then
    (.error (.aclMismatch frontmatter.vaultId checked), s)
  else v.writeIfMatch input frontmatter body id (some expected) s

end Vault

/-- A request whose author and tags are parsed; the links and the temporal entry are left out. -/
structure PersistCuratedRequest where
  noteId : NoteId
  tenantId : VaultId
  title : String
  body : String
  «section» : String
  tags : List Tag
  author : Option AuthorRef
  status : String
  trust : Option Rat
  expectedSha256 : Option ContentHash
  provenance : Option String
  targetVault : Option VaultId

def parseStatus : String → Option NoteStatus
  | "draft" => some .draft
  | "live" => some .live
  | "pending-review" => some .pendingReview
  | "archived" => some .deprecated
  | _ => none

def resolveWriteNamespace (principal : VaultId) (target : Option VaultId) :
    Except PersistError VaultId :=
  match target with
  | some t => if t ≠ principal then .error (.crossVault t principal) else .ok principal
  | none => .ok principal

theorem resolveWriteNamespace_ok (h : resolveWriteNamespace principal target = .ok writeVault) :
    writeVault = principal := by
  unfold resolveWriteNamespace at h
  split at h
  · split at h
    · cases h
    · cases h
      rfl
  · cases h
    rfl

def Server.requireRegisteredDataVault (srv : Server) (vault : VaultId) : Except PersistError Unit :=
  if vault.startsWith "code-" then .error (.codeVault vault)
  else if srv.registered vault then .ok ()
  else .error (.unregistered vault)

theorem requireRegisteredDataVault_ok {srv : Server} (h : srv.requireRegisteredDataVault vault = .ok ()) :
    vault ≠ "" := by
  unfold Server.requireRegisteredDataVault at h
  split at h
  · cases h
  split at h
  · rename_i hreg
    intro hempty
    rw [hempty, srv.registered_empty] at hreg
    cases hreg
  · cases h

/-- The reading of the clock in the handler, and what its write takes from outside. -/
structure CuratedInput where
  created : Instant
  write : WriteInput

def curatedFrontmatter (input : CuratedInput) (writeVault : VaultId) (sec : Section)
    (status : NoteStatus) (req : PersistCuratedRequest) : Frontmatter where
  schemaVersion := 1
  vaultId := writeVault
  -- the previous version is not read: the handler does not know whether there is one
  locus := none
  «section» := sec
  status := status
  statusReason := none
  statusChanged := none
  tags := req.tags
  author := req.author
  created := input.created
  updated := none
  extra := .empty
  provenance := req.provenance
  forgotten := none
  forgottenAt := none
  forgottenBy := none

/-- The columns that `persist_curated_index_atomic` sets. -/
def NoteRow.setCurated (title : String) (trust : Option Rat) (row : NoteRow) : NoteRow :=
  { row with title := some title, trust := trust.or row.trust }

def VaultState.persistCuratedIndexAtomic (s : VaultState) (vault : VaultId) (id : NoteId)
    (title : String) (trust : Option Rat) : VaultState :=
  s.updateRow ⟨vault, id⟩ (NoteRow.setCurated title trust)

namespace Server

variable (srv : Server)

def curatedWrite (writeVault : VaultId) (input : CuratedInput) (frontmatter : Frontmatter)
    (req : PersistCuratedRequest) (s : VaultState) : Except PersistError Unit × VaultState :=
  match req.expectedSha256 with
  | some expected =>
    match srv.vault.writeIfMatchInternal writeVault input.write frontmatter req.body req.noteId
        expected s with
    | (.ok (.written _), s) => (.ok (), s)
    | (.ok (.conflict current), s) => (.error (.conflict current), s)
    | (.error e, s) => (.error (.writeFailed e), s)
  | none =>
    match srv.vault.writeNoteWithIdInternal writeVault input.write frontmatter req.body req.noteId
        s with
    | (.ok _, s) => (.ok (), s)
    | (.error e, s) => (.error (.writeFailed e), s)

def handlePersistCurated (input : CuratedInput) (req : PersistCuratedRequest) (s : VaultState) :
    Except PersistError Unit × VaultState :=
  match Section.fromCanonicalStr req.section, parseStatus req.status with
  | none, _ => (.error (.invalidSection req.section), s)
  | some _, none => (.error (.invalidStatus req.status), s)
  | some sec, some status =>
    match resolveWriteNamespace req.tenantId req.targetVault with
    | .error e => (.error e, s)
    | .ok writeVault =>
      match srv.requireRegisteredDataVault writeVault with
      | .error e => (.error e, s)
      | .ok () =>
        let frontmatter := curatedFrontmatter input writeVault sec status req
        match srv.curatedWrite writeVault input frontmatter req s with
        | (.error e, s) => (.error e, s)
        | (.ok (), s) =>
          (.ok (), s.persistCuratedIndexAtomic req.tenantId req.noteId req.title req.trust)

end Server

/-! ## 2. What an update is to keep -/

def SameButBlock (before after : ExtraFields) : Prop :=
  ∀ key, key ≠ blockKey → after key = before key

/-- The frontmatter has changed at most in what the request carries, in the privacy decision and in its
time stamp. -/
structure Frontmatter.Keeps (before after : Frontmatter) : Prop where
  schemaVersion : after.schemaVersion = before.schemaVersion
  vaultId : after.vaultId = before.vaultId
  locus : after.locus = before.locus
  statusReason : after.statusReason = before.statusReason
  statusChanged : after.statusChanged = before.statusChanged
  created : after.created = before.created
  forgotten : after.forgotten = before.forgotten
  forgottenAt : after.forgottenAt = before.forgottenAt
  forgottenBy : after.forgottenBy = before.forgottenBy
  extra : SameButBlock before.extra after.extra

/-- So has the row, whose derived columns follow the section and the body. -/
structure NoteRow.Keeps (before after : NoteRow) : Prop where
  locus : after.locus = before.locus
  schemaVersion : after.schemaVersion = before.schemaVersion
  created : after.created = before.created
  statusChanged : after.statusChanged = before.statusChanged
  statusReason : after.statusReason = before.statusReason
  version : after.version = before.version
  integritySignature : after.integritySignature = before.integritySignature
  replacedBy : after.replacedBy = before.replacedBy
  forgotten : after.forgotten = before.forgotten
  forgottenAt : after.forgottenAt = before.forgottenAt
  forgottenBy : after.forgottenBy = before.forgottenBy
  orphaned : after.orphaned = before.orphaned
  extra : SameButBlock before.extraJson after.extraJson

/-- The update from `s` to `s'` kept what it did not carry. -/
structure UpdateKeeps (v : Vault) (vault : VaultId) (id : NoteId) (s s' : VaultState) : Prop where
  file : ∀ note, v.readNoteIn s vault id = some note →
    ∃ note', v.readNoteIn s' vault id = some note' ∧ note.frontmatter.Keeps note'.frontmatter
  row : ∀ row, s.notes ⟨vault, id⟩ = some row →
    ∃ row', s'.notes ⟨vault, id⟩ = some row' ∧ row.Keeps row'
  /-- Of the paths a read consults, one has a file. -/
  oneFile : ∀ row', s'.notes ⟨vault, id⟩ = some row' →
    ∃! path, path ∈ consultedPaths vault row' id ∧ (s'.files path).isSome

/-! ## 3. When it keeps it -/

/-- The fields that the handler sets by itself have the values it sets. -/
structure Frontmatter.LikeNew (vault : VaultId) (created : Instant) (frontmatter : Frontmatter) :
    Prop where
  schemaVersion : frontmatter.schemaVersion = 1
  vaultId : frontmatter.vaultId = vault
  locus : frontmatter.locus = none
  statusReason : frontmatter.statusReason = none
  statusChanged : frontmatter.statusChanged = none
  created : frontmatter.created = created
  forgotten : frontmatter.forgotten = none
  forgottenAt : frontmatter.forgottenAt = none
  forgottenBy : frontmatter.forgottenBy = none

structure NoteRow.LikeNew (row : NoteRow) : Prop where
  locus : row.locus = none
  schemaVersion : row.schemaVersion = 1
  statusChanged : row.statusChanged = none
  statusReason : row.statusReason = none
  version : row.version = 1
  integritySignature : row.integritySignature = none

/-- The note is as the handler would have made it at this very instant, in the file as well as in the
index, the two agree on the extra table, and no file lies under the section the request names. -/
structure LikeNew (vault : VaultId) (input : CuratedInput) (req : PersistCuratedRequest) (note : Note)
    (row : NoteRow) (s : VaultState) : Prop where
  frontmatter : note.frontmatter.LikeNew vault input.created
  columns : row.LikeNew
  extra : SameButBlock row.extraJson note.frontmatter.extra
  noFile : s.files ⟨vault, some req.section, req.noteId⟩ = none

def UpdateSafe (v : Vault) (vault : VaultId) (input : CuratedInput) (req : PersistCuratedRequest)
    (s : VaultState) : Prop :=
  ∀ note row, v.readNoteIn s vault req.noteId = some note →
    s.notes ⟨vault, req.noteId⟩ = some row → LikeNew vault input req note row s

/-! ## 4. The three layers -/

section Layers

variable {v : Vault} {vault : VaultId} {s : VaultState} {input : CuratedInput}
  {req : PersistCuratedRequest} {sec : Section} {status : NoteStatus}

def Vault.curatedJudged (v : Vault) (vault : VaultId) (input : CuratedInput) (sec : Section)
    (status : NoteStatus) (req : PersistCuratedRequest) (s : VaultState) : Judged :=
  v.judged input.write (curatedFrontmatter input vault sec status req) req.body req.noteId none s

theorem fillVaultId_curatedFrontmatter (hvault : vault ≠ "") :
    (v.fillVaultId (curatedFrontmatter input vault sec status req)).vaultId = vault := by
  rw [v.fillVaultId_vaultId]
  exact if_neg hvault

section

variable (input : CuratedInput) (sec : Section) (status : NoteStatus)

theorem curatedJudged_frontmatter
    (hvault : vault ≠ "") (hnote : v.readNoteIn s vault req.noteId = some note) :
    ∃ tags extra, (v.curatedJudged vault input sec status req s).note.frontmatter =
        { curatedFrontmatter input vault sec status req with
          tags := tags
          updated := some input.write.updated
          extra := extra } ∧
      SameButBlock note.frontmatter.extra extra := by
  let decided := v.privacy.decideTagsAndExtra input.write.scannedAt req.tags .empty (some note)
    input.write.outcome
  refine ⟨decided.1, decided.2, ?_, ?_⟩
  · unfold Vault.curatedJudged
    rw [Vault.judged_frontmatter, fillVaultId_curatedFrontmatter hvault, hnote]
    rfl
  · intro key hkey
    exact PrivacySettings.decideTagsAndExtra_of_ne hkey _ _ _ _ _

theorem keeps_curatedJudged_iff
    (hvault : vault ≠ "") (hnote : v.readNoteIn s vault req.noteId = some note) :
    note.frontmatter.Keeps (v.curatedJudged vault input sec status req s).note.frontmatter ↔
      note.frontmatter.LikeNew vault input.created := by
  obtain ⟨tags, extra, hstor, hextra⟩ := curatedJudged_frontmatter input sec status hvault hnote
  rw [hstor]
  constructor
  · intro h
    exact ⟨h.schemaVersion.symm, h.vaultId.symm, h.locus.symm, h.statusReason.symm,
      h.statusChanged.symm, h.created.symm, h.forgotten.symm, h.forgottenAt.symm,
      h.forgottenBy.symm⟩
  · intro h
    exact ⟨h.schemaVersion.symm, h.vaultId.symm, h.locus.symm, h.statusReason.symm,
      h.statusChanged.symm, h.created.symm, h.forgotten.symm, h.forgottenAt.symm,
      h.forgottenBy.symm, hextra⟩

theorem keeps_row_iff (row : NoteRow)
    (hvault : vault ≠ "") (hnote : v.readNoteIn s vault req.noteId = some note)
    (hfresh : row.contentHash ≠ (v.curatedJudged vault input sec status req s).note.contentHash) :
    row.Keeps ((row.onConflict (rowOfNote v.rolesOfBody
        (v.curatedJudged vault input sec status req s).note)).setCurated req.title req.trust) ↔
      row.LikeNew ∧ SameButBlock row.extraJson note.frontmatter.extra := by
  obtain ⟨tags, extra, hstor, hextra⟩ := curatedJudged_frontmatter input sec status hvault hnote
  generalize v.curatedJudged vault input sec status req s = written at *
  -- the columns that come from the fields the handler sets by itself
  have hlocus : (row.onConflict (rowOfNote v.rolesOfBody written.note)).locus = none := by
    rw [NoteRow.onConflict_locus hfresh]
    show written.note.frontmatter.locus.map (·.path) = none
    rw [hstor]
    rfl
  have hschema : written.note.frontmatter.schemaVersion = 1 := by rw [hstor]; rfl
  have hchgd : written.note.frontmatter.statusChanged.map Instant.millis = none := by
    rw [hstor]
    rfl
  have hreas : written.note.frontmatter.statusReason = none := by rw [hstor]; rfl
  have hjson : written.note.frontmatter.extra = extra := by rw [hstor]
  constructor
  · intro h
    refine ⟨⟨?_, ?_, ?_, ?_, h.version.symm, h.integritySignature.symm⟩, ?_⟩
    · exact h.locus.symm.trans hlocus
    · exact h.schemaVersion.symm.trans hschema
    · exact h.statusChanged.symm.trans hchgd
    · exact h.statusReason.symm.trans hreas
    · intro key hkey
      have hkept : written.note.frontmatter.extra key = row.extraJson key := h.extra key hkey
      rw [hjson, hextra key hkey] at hkept
      exact hkept
  · intro ⟨hnew, hsame⟩
    refine ⟨?_, ?_, rfl, ?_, ?_, hnew.version.symm, hnew.integritySignature.symm, rfl, rfl, rfl, rfl,
      rfl, ?_⟩
    · exact hlocus.trans hnew.locus.symm
    · exact hschema.trans hnew.schemaVersion.symm
    · exact hchgd.trans hnew.statusChanged.symm
    · exact hreas.trans hnew.statusReason.symm
    · intro key hkey
      show written.note.frontmatter.extra key = row.extraJson key
      rw [hjson, hextra key hkey, hsame key hkey]

end

theorem oneFile_iff {files : NotePath → Option MdFile} {id : NoteId}
    (hlocus : row'.locus = none) : (∃! path, path ∈ consultedPaths vault row' id ∧
        (update files ⟨vault, none, id⟩ (some file) path).isSome) ↔
      files ⟨vault, some row'.section.asStr, id⟩ = none := by
  have hmem : ∀ path, path ∈ consultedPaths vault row' id ↔
      path = ⟨vault, none, id⟩ ∨ path = ⟨vault, some row'.section.asStr, id⟩ := by
    intro path
    simp [consultedPaths, consultedDirs, hlocus]
  have htop : (update files ⟨vault, none, id⟩ (some file) ⟨vault, none, id⟩).isSome := by
    simp
  have hother : update files ⟨vault, none, id⟩ (some file)
      ⟨vault, some row'.section.asStr, id⟩ = files ⟨vault, some row'.section.asStr, id⟩ := by
    simp
  constructor
  · intro h
    obtain ⟨path, -, huniq⟩ := h
    have htoppath := huniq ⟨vault, none, id⟩ ⟨(hmem _).2 (.inl rfl), htop⟩
    rw [← Option.not_isSome_iff_eq_none]
    intro hsome
    rw [← hother] at hsome
    have hsec := huniq ⟨vault, some row'.section.asStr, id⟩ ⟨(hmem _).2 (.inr rfl), hsome⟩
    cases htoppath.trans hsec.symm
  · intro hnone
    refine ⟨⟨vault, none, id⟩, ⟨(hmem _).2 (.inl rfl), htop⟩, ?_⟩
    intro path hpath
    rcases (hmem path).1 hpath.1 with rfl | rfl
    · rfl
    · rw [hother, hnone] at hpath
      cases hpath.2

end Layers

/-! ## 5. The update -/

theorem writeIfMatchInternal_cases (v : Vault) (checked : VaultId) (input : WriteInput)
    (frontmatter : Frontmatter) (body : String) (id : NoteId) (expected : ContentHash)
    (s : VaultState) :
    (∃ e, v.writeIfMatchInternal checked input frontmatter body id expected s = (.error e, s)) ∨
      (∃ current, v.writeIfMatchInternal checked input frontmatter body id expected s =
        (.ok (.conflict current), s)) ∨
      v.writeIfMatchInternal checked input frontmatter body id expected s =
        (.ok (.written (v.judged input frontmatter body id none s).note.contentHash),
          v.commit input (v.judged input frontmatter body id none s) s) := by
  have hwrite := Vault.writeNoteJudged_cases (v := v) input frontmatter body id none s
  unfold Vault.writeIfMatchInternal
  split
  · exact .inl ⟨_, rfl⟩
  unfold Vault.writeIfMatch
  cases v.readNote s id with
  | none =>
    rcases hwrite with ⟨e, hreply⟩ | hreply
    · exact .inl ⟨e, by rw [hreply]⟩
    · exact .inr (.inr (by rw [hreply]))
  | some existing =>
    dsimp only
    split
    · exact .inr (.inl ⟨_, rfl⟩)
    rcases hwrite with ⟨e, hreply⟩ | hreply
    · exact .inl ⟨e, by rw [hreply]⟩
    · exact .inr (.inr (by rw [hreply]))

theorem curatedWrite_cases (srv : Server) (writeVault : VaultId) (input : CuratedInput)
    (frontmatter : Frontmatter) (req : PersistCuratedRequest) (s : VaultState) :
    (∃ e, srv.curatedWrite writeVault input frontmatter req s = (.error e, s)) ∨
      srv.curatedWrite writeVault input frontmatter req s = (.ok (), srv.vault.commit input.write
          (srv.vault.judged input.write frontmatter req.body req.noteId none s) s) := by
  unfold Server.curatedWrite
  cases req.expectedSha256 with
  | none =>
    dsimp only
    rcases Vault.writeNoteWithIdInternal_cases (v := srv.vault) writeVault input.write frontmatter
      req.body req.noteId s with ⟨e, hreply⟩ | hreply
    · exact .inl ⟨_, by rw [hreply]⟩
    · exact .inr (by rw [hreply])
  | some expected =>
    dsimp only
    rcases writeIfMatchInternal_cases srv.vault writeVault input.write frontmatter req.body
      req.noteId expected s with ⟨e, hreply⟩ | ⟨current, hreply⟩ | hreply
    · exact .inl ⟨_, by rw [hreply]⟩
    · exact .inl ⟨_, by rw [hreply]⟩
    · exact .inr (by rw [hreply])

/-- A request is refused and stores nothing, or it was for the tenant's own vault, and its version is
stored and then given its title. -/
theorem handlePersistCurated_cases (srv : Server) (input : CuratedInput)
    (req : PersistCuratedRequest) (s : VaultState) :
    (∃ e, srv.handlePersistCurated input req s = (.error e, s)) ∨
      ∃ sec status, Section.fromCanonicalStr req.section = some sec ∧
        parseStatus req.status = some status ∧ req.tenantId ≠ "" ∧
        srv.handlePersistCurated input req s = (.ok (), (srv.vault.commit input.write
            (srv.vault.curatedJudged req.tenantId input sec status req s) s).updateRow
              ⟨req.tenantId, req.noteId⟩ (NoteRow.setCurated req.title req.trust)) := by
  unfold Server.handlePersistCurated
  cases hsec : Section.fromCanonicalStr req.section with
  | none => exact .inl ⟨_, rfl⟩
  | some sec =>
    cases hstat : parseStatus req.status with
    | none => exact .inl ⟨_, rfl⟩
    | some status =>
      dsimp only
      cases hvault : resolveWriteNamespace req.tenantId req.targetVault with
      | error e => exact .inl ⟨e, rfl⟩
      | ok writeVault =>
        have hown := resolveWriteNamespace_ok hvault
        subst hown
        dsimp only
        cases hreg : srv.requireRegisteredDataVault req.tenantId with
        | error e => exact .inl ⟨e, rfl⟩
        | ok _ =>
          dsimp only
          rcases curatedWrite_cases srv req.tenantId input
            (curatedFrontmatter input req.tenantId sec status req) req s with
            ⟨e, hreply⟩ | hreply
          · exact .inl ⟨e, by rw [hreply]⟩
          refine .inr ⟨sec, status, rfl, rfl, requireRegisteredDataVault_ok hreg, ?_⟩
          rw [hreply]
          rfl

theorem handlePersistCurated_ok {srv : Server} (h : (srv.handlePersistCurated input req s).1 = .ok ()) :
    ∃ sec status, Section.fromCanonicalStr req.section = some sec ∧
      parseStatus req.status = some status ∧ req.tenantId ≠ "" ∧
      (srv.handlePersistCurated input req s).2 = (srv.vault.commit input.write
          (srv.vault.curatedJudged req.tenantId input sec status req s) s).updateRow
            ⟨req.tenantId, req.noteId⟩ (NoteRow.setCurated req.title req.trust) := by
  rcases handlePersistCurated_cases srv input req s with
    ⟨e, hreply⟩ | ⟨sec, status, hsec, hstat, hvault, hreply⟩
  · rw [hreply] at h
    cases h
  · exact ⟨sec, status, hsec, hstat, hvault, by rw [hreply]⟩

/-- The version that the update stores has a hash the index does not hold yet: its `updated` is a clock
reading of the update. -/
def UpdatesFresh (v : Vault) (input : CuratedInput) (req : PersistCuratedRequest) (s : VaultState) :
    Prop :=
  ∀ sec status, Section.fromCanonicalStr req.section = some sec →
    parseStatus req.status = some status →
      Vault.FreshHash (v.curatedJudged req.tenantId input sec status req s).note s

theorem updateKeeps_iff {id : NoteId} (hnote : v.readNoteIn s vault id = some note)
    (hrow : s.notes ⟨vault, id⟩ = some row) (hnote' : v.readNoteIn s' vault id = some note')
    (hrow' : s'.notes ⟨vault, id⟩ = some row') : UpdateKeeps v vault id s s' ↔
      note.frontmatter.Keeps note'.frontmatter ∧ row.Keeps row' ∧
        ∃! path, path ∈ consultedPaths vault row' id ∧ (s'.files path).isSome := by
  constructor
  · intro h
    obtain ⟨n, hn, hfile⟩ := h.file note hnote
    obtain ⟨r, hr, hcols⟩ := h.row row hrow
    cases hnote'.symm.trans hn
    cases hrow'.symm.trans hr
    exact ⟨hfile, hcols, h.oneFile row' hrow'⟩
  · intro h
    constructor
    · intro n hn
      cases hnote.symm.trans hn
      exact ⟨note', hnote', h.1⟩
    · intro r hr
      cases hrow.symm.trans hr
      exact ⟨row', hrow', h.2.1⟩
    · intro r hr
      cases hrow'.symm.trans hr
      exact h.2.2

theorem updateKeeps_commit_iff (hvault : vault ≠ "") (hnote : v.readNoteIn s vault req.noteId = some note)
    (hrow : s.notes ⟨vault, req.noteId⟩ = some row)
    (hfresh : Vault.FreshHash (v.curatedJudged vault input sec status req s).note s) :
    UpdateKeeps v vault req.noteId s
        ((v.commit input.write (v.curatedJudged vault input sec status req s) s).updateRow
          ⟨vault, req.noteId⟩ (NoteRow.setCurated req.title req.trust)) ↔
      note.frontmatter.LikeNew vault input.created ∧
        (row.LikeNew ∧ SameButBlock row.extraJson note.frontmatter.extra) ∧
          s.files ⟨vault, some sec.asStr, req.noteId⟩ = none := by
  have hkeeps := keeps_curatedJudged_iff input sec status hvault hnote
  have hkeepsRow := keeps_row_iff input sec status row hvault hnote
  obtain ⟨tags, extra, hstor, -⟩ := curatedJudged_frontmatter input sec status hvault hnote
  have hhash : (v.curatedJudged vault input sec status req s).note.contentHash =
      v.contentHash (v.curatedJudged vault input sec status req s).note.frontmatter
        (v.curatedJudged vault input sec status req s).note.body := rfl
  have hid : (v.curatedJudged vault input sec status req s).note.id = req.noteId := rfl
  -- from here on only these facts about the write are used
  generalize v.curatedJudged vault input sec status req s = written at *
  have hvaultId : written.note.frontmatter.vaultId = vault := by rw [hstor]; rfl
  have hpath : noteMdRelativePath written.note = ⟨vault, none, req.noteId⟩ := by
    unfold noteMdRelativePath
    rw [hid, hstor]
    rfl
  have hold : s.notes ⟨written.note.frontmatter.vaultId, written.note.id⟩ = some row := by
    rw [hvaultId, hid, hrow]
  have hne : row.contentHash ≠ written.note.contentHash := hfresh row hold
  -- the note and the row after the update
  have hread := Vault.readNoteIn_commit_updateRow (f := NoteRow.setCurated req.title req.trust)
    input.write (fun _ => rfl) hhash hfresh
  have hrow' := Vault.notes_commit_updateRow (v := v) input.write
    (NoteRow.setCurated req.title req.trust) hold
  rw [hvaultId, hid] at hread hrow'
  have hlocus : ((row.onConflict (rowOfNote v.rolesOfBody written.note)).setCurated req.title
      req.trust).locus = none := by
    show (row.onConflict (rowOfNote v.rolesOfBody written.note)).locus = none
    rw [NoteRow.onConflict_locus hne]
    show written.note.frontmatter.locus.map (·.path) = none
    rw [hstor]
    rfl
  have hsec : ((row.onConflict (rowOfNote v.rolesOfBody written.note)).setCurated req.title
      req.trust).section = sec := by
    show written.note.frontmatter.section = sec
    rw [hstor]
    rfl
  have hfiles : ((v.commit input.write written s).updateRow ⟨vault, req.noteId⟩
      (NoteRow.setCurated req.title req.trust)).files =
      update s.files ⟨vault, none, req.noteId⟩ (some written.note.file) := by
    rw [← hpath]
    rfl
  rw [updateKeeps_iff hnote hrow hread hrow', hfiles, oneFile_iff hlocus, hsec, hkeeps,
    hkeepsRow hne]

/-- An accepted update of a note keeps what it does not carry just if the note was as the handler would
have made it at this instant, with no file under the section of the request. -/
theorem updateKeeps_iff_updateSafe (srv : Server) (input : CuratedInput)
    (req : PersistCuratedRequest) (s : VaultState) (note : Note)
    (hnote : srv.vault.readNoteIn s req.tenantId req.noteId = some note)
    (haccepted : (srv.handlePersistCurated input req s).1 = .ok ())
    (hfresh : UpdatesFresh srv.vault input req s) :
    UpdateKeeps srv.vault req.tenantId req.noteId s (srv.handlePersistCurated input req s).2 ↔
      UpdateSafe srv.vault req.tenantId input req s := by
  obtain ⟨sec, status, hsec, hstat, hvault, hstate⟩ := handlePersistCurated_ok haccepted
  obtain ⟨row, hrow⟩ := Vault.exists_row_of_readNoteIn hnote
  rw [hstate, updateKeeps_commit_iff hvault hnote hrow (hfresh sec status hsec hstat),
    Section.asStr_of_fromCanonicalStr hsec]
  constructor
  · intro h n r hn hr
    cases hnote.symm.trans hn
    cases hrow.symm.trans hr
    exact ⟨h.1, h.2.1.1, h.2.1.2, h.2.2⟩
  · intro h
    have hnew := h note row hnote hrow
    exact ⟨hnew.frontmatter, ⟨hnew.columns, hnew.extra⟩, hnew.noFile⟩

/-- An update of note `1`, whose version has the hash `0`. -/
def plainUpdate : PersistCuratedRequest where
  noteId := 1
  tenantId := "main"
  title := "Title"
  body := "new text"
  «section» := "debug"
  tags := []
  author := none
  status := "live"
  trust := none
  expectedSha256 := some 0
  provenance := none
  targetVault := none

/-- A note that is updated at the instant of its creation keeps what the update does not carry. -/
theorem updateKeeps_newNote : UpdateKeeps plainServer.vault "main" 1 (stateOf (plainNote 1 none "text"))
      (plainServer.handlePersistCurated ⟨0, .at 1⟩ plainUpdate
        (stateOf (plainNote 1 none "text"))).2 := by
  apply (updateKeeps_iff_updateSafe plainServer ⟨0, .at 1⟩ plainUpdate _ (plainNote 1 none "text")
    rfl rfl ?_).2
  · intro note row hnote hrow
    cases hnote
    cases hrow
    refine ⟨⟨rfl, rfl, rfl, rfl, rfl, rfl, rfl, rfl, rfl⟩, ⟨rfl, rfl, rfl, rfl, rfl, rfl⟩, ?_, rfl⟩
    intro key _
    rfl
  · intro sec status hsec hstat row hrow
    cases hsec
    cases hstat
    cases hrow
    decide

def projects : LocusId := ⟨"projects", by decide⟩

/-- A note under a locus loses its locus and its creation time. -/
theorem not_updateKeeps_filedNote : plainUpdate.expectedSha256 = (plainServer.vault.readNoteIn
        (stateOf (plainNote 1 (some projects) "text")) "main" 1).map (·.contentHash) ∧
      (plainServer.handlePersistCurated ⟨1, .at 1⟩ plainUpdate
        (stateOf (plainNote 1 (some projects) "text"))).1 = .ok () ∧
      ¬ UpdateKeeps plainServer.vault "main" 1 (stateOf (plainNote 1 (some projects) "text"))
        (plainServer.handlePersistCurated ⟨1, .at 1⟩ plainUpdate
          (stateOf (plainNote 1 (some projects) "text"))).2 := by
  refine ⟨rfl, rfl, fun h => ?_⟩
  obtain ⟨note', hnote', hkeeps⟩ := h.file _ rfl
  cases hnote'
  have hlocus := hkeeps.locus
  cases hlocus

end Gradatum.Notes
