import Gradatum.Notes.Curated

/-!
# Changing a note in place

Calls that change a status, move a note and bring an earlier version back.  Those of the vault rewrite the
file; those of the index change columns of the row and leave the file as it is.
-/

namespace Gradatum.Notes

open Option Function Vault

/-! ## 1. The calls of the vault -/

def NoteStatus.canTransitionTo : NoteStatus → NoteStatus → Bool
  | .draft, .pendingReview => true
  | .draft, .garbage => true
  | .pendingReview, .live => true
  | .pendingReview, .garbage => true
  | .pendingReview, .staging => true
  | .staging, .live => true
  | .staging, .garbage => true
  | .live, .deprecated => true
  | .live, .garbage => true
  | .deprecated, .live => true
  | .garbage, .live => true
  | _, _ => false

inductive MutationError where
  | noteNotFound (id : NoteId)
  | invalidStatusTransition (current target : NoteStatus)
  /-- A note cannot be replaced by itself. -/
  | selfReference
  | noSnapshot (id : NoteId) (stamp : Int)
  | writeFailed (e : VaultError)
  deriving DecidableEq

def ofWrite : Except VaultError Note × VaultState → Except MutationError Unit × VaultState
  | (.ok _, s) => (.ok (), s)
  | (.error e, s) => (.error (.writeFailed e), s)

namespace Vault

variable (v : Vault)

/-- The calls below act on the vault the instance serves: a witness for another one finds no note. -/
def ensureWitnessOwnsVault (checked : VaultId) (id : NoteId) : Except MutationError Unit :=
  if checked ≠ v.vaultId then .error (.noteNotFound id) else .ok ()

def updateStatus (changed : Instant) (input : WriteInput) (target : NoteStatus)
    (reason : Option String) (id : NoteId) (s : VaultState) :
    Except MutationError Unit × VaultState :=
  match v.readNote s id with
  | none => (.error (.noteNotFound id), s)
  | some note =>
    if note.frontmatter.status = target then (.ok (), s)
    else if !note.frontmatter.status.canTransitionTo target then
      (.error (.invalidStatusTransition note.frontmatter.status target), s)
    else
      let frontmatter :=
        { note.frontmatter with
          status := target
          statusReason := reason
          statusChanged := some changed }
      ofWrite (v.writeNoteWithId input frontmatter note.body id s)

def updateNoteStatus (checked : VaultId) (changed : Instant) (input : WriteInput)
    (target : NoteStatus) (reason : Option String) (id : NoteId) (s : VaultState) :
    Except MutationError Unit × VaultState :=
  match v.ensureWitnessOwnsVault checked id with
  | .error e => (.error e, s)
  | .ok () => v.updateStatus changed input target reason id s

end Vault

def NoteRow.restoreStatusFields (snapshot row : NoteRow) : NoteRow :=
  { row with
    status := snapshot.status
    statusReason := snapshot.statusReason
    statusChanged := snapshot.statusChanged
    replacedBy := snapshot.replacedBy }

def VaultState.deleteFile (s : VaultState) (path : NotePath) : VaultState :=
  { s with files := update s.files path none }

namespace Vault

variable (v : Vault)

def oldPathCandidates (note : Note) (id : NoteId) : List NotePath :=
  ((note.frontmatter.locus.map fun l => some l.path).toList ++
    [none, some note.frontmatter.section.asStr]).map fun dir => ⟨v.vaultId, dir, id⟩

def moveLocus (input : WriteInput) (newLocus : LocusId) (id : NoteId) (s : VaultState) :
    Except MutationError Unit × VaultState :=
  match v.readNote s id with
  | none => (.error (.noteNotFound id), s)
  | some note =>
    if note.frontmatter.locus = some newLocus then (.ok (), s)
    else
      let snapshot := s.notes ⟨v.vaultId, id⟩
      let frontmatter := { note.frontmatter with locus := some newLocus }
      match v.writeNoteWithId input frontmatter note.body id s with
      | (.error e, s) => (.error (.writeFailed e), s)
      | (.ok written, s) =>
        -- the status of the frontmatter may be older than the one of the row
        let s := match snapshot with
          | some row => s.updateRow ⟨v.vaultId, id⟩ row.restoreStatusFields
          | none => s
        let old := (v.oldPathCandidates note id).find? fun path =>
          path ≠ noteMdRelativePath written && (s.files path).isSome
        (.ok (), match old with
          | some path => s.deleteFile path
          | none => s)

/-- The snapshot of the vault the instance serves. -/
def historyGet (s : VaultState) (id : NoteId) (stamp : Int) : Option Note :=
  ((s.history v.vaultId id).lookup stamp).map fun file =>
    ⟨id, file.frontmatter, file.body, v.contentHash file.frontmatter file.body⟩

def historyRestore (checked : VaultId) (input : WriteInput) (id : NoteId) (stamp : Int)
    (s : VaultState) : Except MutationError Unit × VaultState :=
  match v.ensureWitnessOwnsVault checked id with
  | .error e => (.error e, s)
  | .ok () =>
    match v.historyGet s id stamp with
    | none => (.error (.noSnapshot id stamp), s)
    | some snapshot => ofWrite (v.writeNoteWithId input snapshot.frontmatter snapshot.body id s)

end Vault

/-- The tags with the new ones at their end; one that is there in another case is not added. -/
def unionTags (tags new : List Tag) : List Tag :=
  let lower (tag : Tag) := tag.toList.map Char.toLower
  new.foldl (fun tags tag => if tags.any (lower · = lower tag) then tags else tags ++ [tag]) tags

def maxNoteTags : Nat := 200

inductive AddTagsError where
  | mutation (e : MutationError)
  | invalidTag (tag : Tag)
  | tooMany (found : Nat)
  deriving DecidableEq

/-- Like the other calls of the vault, this one stores the status of the file. -/
def Vault.addTags (v : Vault) (checked : VaultId) (input : WriteInput) (tags : List Tag) (id : NoteId)
    (s : VaultState) : Except AddTagsError Unit × VaultState :=
  match v.ensureWitnessOwnsVault checked id with
  | .error e => (.error (.mutation e), s)
  | .ok () =>
    match v.readNote s id with
    | none => (.error (.mutation (.noteNotFound id)), s)
    | some note =>
      match tags.find? (!isTag ·) with
      | some tag => (.error (.invalidTag tag), s)
      | none =>
        let union := unionTags note.frontmatter.tags tags
        if union = note.frontmatter.tags then (.ok (), s)
        else if maxNoteTags < union.length then (.error (.tooMany union.length), s)
        else
          match ofWrite (v.writeNoteWithId input { note.frontmatter with tags := union } note.body id s) with
          | (.error e, s) => (.error (.mutation e), s)
          | (.ok (), s) => (.ok (), s)

/-! ## 2. The calls of the index -/

namespace VaultState

variable (s : VaultState)

/-- An UPDATE that fails where it finds no row. -/
def updateExisting (key : NoteKey) (f : NoteRow → NoteRow) : Except MutationError Unit × VaultState :=
  if (s.notes key).isSome then (.ok (), s.updateRow key f) else (.error (.noteNotFound key.id), s)

def downgradeNote (vault : VaultId) (now : Int) (id : NoteId) (reason : String)
    (replacedBy : Option NoteId) : Except MutationError Unit × VaultState :=
  if replacedBy = some id then (.error .selfReference, s)
  else
    match replacedBy.filter fun other => (s.notes ⟨vault, other⟩).isNone with
    | some missing => (.error (.noteNotFound missing), s)
    | none => s.updateExisting ⟨vault, id⟩ fun row =>
      { row with
        status := .downgraded
        statusReason := some reason
        statusChanged := some now
        replacedBy := replacedBy
        updated := some now }

/-- What is not given stays. -/
def patchNoteStatus (vault : VaultId) (now : Int) (id : NoteId) (status : Option RowStatus)
    (reason : Option String) (replacedBy : Option NoteId) :
    Except MutationError Unit × VaultState :=
  s.updateExisting ⟨vault, id⟩ fun row =>
    { row with
      status := status.getD row.status
      statusReason := reason.or row.statusReason
      replacedBy := replacedBy.or row.replacedBy
      statusChanged := if status.isSome then some now else row.statusChanged
      updated := some now }

theorem updateExisting_snd (key : NoteKey) (f : NoteRow → NoteRow) :
    (s.updateExisting key f).2 = s.updateRow key f := by
  unfold updateExisting
  split
  · rfl
  rename_i hnone
  rw [Bool.not_eq_true, isSome_eq_false_iff, isNone_iff_eq_none] at hnone
  have hsame : update s.notes key ((s.notes key).map f) = s.notes := by
    rw [hnone, map_none, ← hnone, update_eq_self]
  rw [updateRow, hsame]

end VaultState

/-- A call that changes a status, restores a version or writes a note, with all it takes from
outside. -/
inductive ClientCall where
  | write (checked : VaultId) (input : WriteInput) (frontmatter : Frontmatter) (body : String)
      (id : NoteId)
  | persistCurated (input : CuratedInput) (req : PersistCuratedRequest)
  | updateNoteStatus (checked : VaultId) (changed : Instant) (input : WriteInput)
      (target : NoteStatus) (reason : Option String) (id : NoteId)
  | historyRestore (checked : VaultId) (input : WriteInput) (id : NoteId) (stamp : Int)
  | moveLocus (input : WriteInput) (newLocus : LocusId) (id : NoteId)
  | downgradeNote (vault : VaultId) (now : Int) (id : NoteId) (reason : String)
      (replacedBy : Option NoteId)
  | patchNoteStatus (vault : VaultId) (now : Int) (id : NoteId) (status : Option RowStatus)
      (reason : Option String) (replacedBy : Option NoteId)

def ClientCall.apply (srv : Server) (s : VaultState) : ClientCall → VaultState
  | .write checked input frontmatter body id =>
    (srv.vault.writeNoteWithIdInternal checked input frontmatter body id s).2
  | .persistCurated input req => (srv.handlePersistCurated input req s).2
  | .updateNoteStatus checked changed input target reason id =>
    (srv.vault.updateNoteStatus checked changed input target reason id s).2
  | .historyRestore checked input id stamp => (srv.vault.historyRestore checked input id stamp s).2
  | .moveLocus input newLocus id => (srv.vault.moveLocus input newLocus id s).2
  | .downgradeNote vault now id reason replacedBy =>
    (s.downgradeNote vault now id reason replacedBy).2
  | .patchNoteStatus vault now id status reason replacedBy =>
    (s.patchNoteStatus vault now id status reason replacedBy).2

/-! ## 3. What a call of the vault writes -/

section Cases

variable {v : Vault}

theorem Vault.ensureWitnessOwnsVault_eq_ok {id : NoteId}
    (h : v.ensureWitnessOwnsVault checked id = .ok ()) : checked = v.vaultId := by
  by_contra hne
  rw [Vault.ensureWitnessOwnsVault, if_pos hne] at h
  cases h

theorem Vault.writeNoteWithId_state (input : WriteInput) (frontmatter : Frontmatter)
    (body : String) (id : NoteId) (s : VaultState) :
    (v.writeNoteWithId input frontmatter body id s).2 = s ∨
      (v.writeNoteWithId input frontmatter body id s).2 =
        v.commit input (v.judged input frontmatter body id none s) s := by
  rw [Vault.writeNoteWithId]
  rcases writeNoteJudged_cases (v := v) input frontmatter body id none s with ⟨e, hreply⟩ | hreply
  · exact .inl (congrArg Prod.snd hreply)
  · exact .inr (congrArg Prod.snd hreply)

theorem ofWrite_snd (reply : Except VaultError Note × VaultState) : (ofWrite reply).2 = reply.2 := by
  obtain ⟨_ | _, _⟩ := reply <;> rfl

theorem updateNoteStatus_cases (checked : VaultId) (changed : Instant) (input : WriteInput)
    (target : NoteStatus) (reason : Option String) (id : NoteId) (s : VaultState) :
    (v.updateNoteStatus checked changed input target reason id s).2 = s ∨
      ∃ note, v.readNote s id = some note ∧ checked = v.vaultId ∧
        (v.updateNoteStatus checked changed input target reason id s).2 = v.commit input (v.judged input
            { note.frontmatter with status := target, statusReason := reason, statusChanged := some changed }
            note.body id none s) s := by
  unfold Vault.updateNoteStatus Vault.updateStatus
  cases hchk : v.ensureWitnessOwnsVault checked id with
  | error e => exact .inl rfl
  | ok =>
    cases hnote : v.readNote s id with
    | none => exact .inl rfl
    | some note =>
      dsimp only
      split
      · exact .inl rfl
      split
      · exact .inl rfl
      rw [ofWrite_snd]
      exact (writeNoteWithId_state input _ note.body id s).imp_right fun hnew =>
        ⟨note, rfl, ensureWitnessOwnsVault_eq_ok hchk, hnew⟩

theorem addTags_cases (checked : VaultId) (input : WriteInput) (tags : List Tag) (id : NoteId)
    (s : VaultState) : (v.addTags checked input tags id s).2 = s ∨
      ∃ note, v.readNote s id = some note ∧ checked = v.vaultId ∧
        (v.addTags checked input tags id s).2 = v.commit input (v.judged input
            { note.frontmatter with tags := unionTags note.frontmatter.tags tags } note.body id none s) s := by
  unfold Vault.addTags
  cases hchk : v.ensureWitnessOwnsVault checked id with
  | error e => exact .inl rfl
  | ok =>
    cases hnote : v.readNote s id with
    | none => exact .inl rfl
    | some note =>
      dsimp only
      split
      · exact .inl rfl
      split
      · exact .inl rfl
      split
      · exact .inl rfl
      have hserv := ensureWitnessOwnsVault_eq_ok hchk
      have hwrit := writeNoteWithId_state (v := v) input
        { note.frontmatter with tags := unionTags note.frontmatter.tags tags } note.body id s
      rw [← ofWrite_snd] at hwrit
      split
      · rename_i hreply
        rw [hreply] at hwrit
        exact hwrit.imp_right fun hnew => ⟨note, rfl, hserv, hnew⟩
      rename_i hreply
      rw [hreply] at hwrit
      exact hwrit.imp_right fun hnew => ⟨note, rfl, hserv, hnew⟩

theorem historyRestore_cases (checked : VaultId) (input : WriteInput) (id : NoteId) (stamp : Int)
    (s : VaultState) : (v.historyRestore checked input id stamp s).2 = s ∨
      ∃ snapshot, v.historyGet s id stamp = some snapshot ∧ checked = v.vaultId ∧
        (v.historyRestore checked input id stamp s).2 =
          v.commit input (v.judged input snapshot.frontmatter snapshot.body id none s) s := by
  unfold Vault.historyRestore
  cases hchk : v.ensureWitnessOwnsVault checked id with
  | error e => exact .inl rfl
  | ok =>
    cases hsnap : v.historyGet s id stamp with
    | none => exact .inl rfl
    | some snapshot =>
      dsimp only
      rw [ofWrite_snd]
      exact (writeNoteWithId_state input snapshot.frontmatter snapshot.body id s).imp_right
        fun hnew => ⟨snapshot, rfl, ensureWitnessOwnsVault_eq_ok hchk, hnew⟩

/-- A move writes the note at its new place, gives the row its status back and deletes the old file, if it
finds one. -/
theorem moveLocus_cases (input : WriteInput) (newLocus : LocusId) (id : NoteId) (s : VaultState) :
    (v.moveLocus input newLocus id s).2 = s ∨
      ∃ note row, v.readNote s id = some note ∧ s.notes ⟨v.vaultId, id⟩ = some row ∧
        let written := v.judged input { note.frontmatter with locus := some newLocus } note.body id none s
        let moved := (v.commit input written s).updateRow ⟨v.vaultId, id⟩ row.restoreStatusFields
        (v.moveLocus input newLocus id s).2 = moved ∨
          ∃ path ∈ v.oldPathCandidates note id, path ≠ noteMdRelativePath written.note ∧
            (v.moveLocus input newLocus id s).2 = moved.deleteFile path := by
  unfold Vault.moveLocus
  cases hnote : v.readNote s id with
  | none => exact .inl rfl
  | some note =>
    obtain ⟨row, hrow⟩ := exists_row_of_readNoteIn hnote
    dsimp only
    split
    · exact .inl rfl
    rcases writeNoteJudged_cases (v := v) input
      { note.frontmatter with locus := some newLocus } note.body id none s with ⟨e, hreply⟩ | hreply
    · rw [Vault.writeNoteWithId, hreply]
      exact .inl rfl
    rw [Vault.writeNoteWithId, hreply, hrow]
    refine .inr ⟨note, row, rfl, rfl, ?_⟩
    dsimp only
    split
    · rename_i path hpath
      have hfound := List.find?_some hpath
      rw [Bool.and_eq_true, decide_eq_true_eq] at hfound
      exact .inr ⟨path, List.mem_of_find?_eq_some hpath, hfound.1, rfl⟩
    · exact .inl rfl

end Cases

/-! ## 4. What a call does to a row -/

structure RowStep (sets : RowStatus → Prop) (before after : Option NoteRow) : Prop where
  kept : before.isSome → after.isSome
  status : ∀ row', after = some row' →
    (∃ row, before = some row ∧ row'.status = row.status) ∨ sets row'.status

namespace RowStep

variable {sets sets' : RowStatus → Prop}

theorem refl (sets : RowStatus → Prop) (r : Option NoteRow) : RowStep sets r r :=
  ⟨fun h => h, fun row' h => .inl ⟨row', h, rfl⟩⟩

theorem of_eq (sets : RowStatus → Prop) (h : r₂ = r₁) : RowStep sets r₁ r₂ := by
  rw [h]
  exact refl sets r₁

theorem trans (h₁ : RowStep sets r₁ r₂) (h₂ : RowStep sets r₂ r₃) : RowStep sets r₁ r₃ where
  kept h := h₂.kept (h₁.kept h)
  status := by
    intro row₃ h
    rcases h₂.status row₃ h with ⟨row₂, hrow₂, heq⟩ | hsets
    · rw [heq]
      exact h₁.status row₂ hrow₂
    · exact .inr hsets

theorem mono (h : RowStep sets r₁ r₂) (himp : ∀ status, sets status → sets' status) :
    RowStep sets' r₁ r₂ where
  kept := h.kept
  status row' hrow' := (h.status row' hrow').imp_right (himp row'.status)

theorem updateRow (s : VaultState) (key key' : NoteKey)
    (hf : key' = key → ∀ row, (f row).status = row.status ∨ sets (f row).status) :
    RowStep sets (s.notes key') ((s.updateRow key f).notes key') := by
  by_cases hkey : key' = key
  · have hstat := hf hkey
    rw [hkey, VaultState.updateRow_self]
    refine ⟨by simp, fun row' hrow' => ?_⟩
    obtain ⟨row, hrow, rfl⟩ := map_eq_some_iff.1 hrow'
    exact (hstat row).imp_left fun heq => ⟨row, hrow, heq⟩
  · exact of_eq sets (s.updateRow_of_ne f hkey)

end RowStep

namespace Vault

variable {v : Vault}

/-- The row that a write goes to whose frontmatter names `vaultId`. -/
def writeKey (v : Vault) (vaultId : VaultId) (id : NoteId) : NoteKey :=
  ⟨if vaultId = "" then v.vaultId else vaultId, id⟩

theorem rowStep_commit (input : WriteInput) (frontmatter : Frontmatter) (body : String)
    (id : NoteId) (reuse : Option PassOutcome) (s : VaultState) (key : NoteKey) :
    RowStep (fun status => key = v.writeKey frontmatter.vaultId id ∧ status = frontmatter.status)
      (s.notes key) ((v.commit input (v.judged input frontmatter body id reuse s) s).notes key) := by
  by_cases hkey : key = v.writeKey frontmatter.vaultId id
  · have hnotes := commit_notes_self (v := v) input (v.judged input frontmatter body id reuse s) s
    have hstat : (v.judged input frontmatter body id reuse s).note.frontmatter.status =
        frontmatter.status := by
      rw [judged_frontmatter]
    rw [judged_id, judged_vaultId, fillVaultId_vaultId] at hnotes
    refine ⟨fun _ => ?_, fun row' hrow' => .inr ⟨hkey, ?_⟩⟩
    · rw [hkey]
      exact isSome_of_eq_some hnotes
    rw [hkey] at hrow'
    cases hnotes.symm.trans hrow'
    rw [← hstat]
    split <;> rfl
  · apply RowStep.of_eq
    rw [writeKey, ← fillVaultId_vaultId] at hkey
    exact update_of_ne hkey _ _

end Vault

def ClientCall.Sets (srv : Server) (s : VaultState) (key : NoteKey) (status : RowStatus) :
    ClientCall → Prop
  | .write _ _ frontmatter _ id =>
    key = srv.vault.writeKey frontmatter.vaultId id ∧ status = frontmatter.status
  | .persistCurated _ req =>
    key = ⟨req.tenantId, req.noteId⟩ ∧ ∃ st, parseStatus req.status = some st ∧ status = st
  | .updateNoteStatus _ _ _ target _ id =>
    (∃ note, srv.vault.readNote s id = some note ∧
      key = srv.vault.writeKey note.frontmatter.vaultId id) ∧ status = target
  | .historyRestore _ _ id stamp => ∃ snapshot, srv.vault.historyGet s id stamp = some snapshot ∧
      key = srv.vault.writeKey snapshot.frontmatter.vaultId id ∧ status = snapshot.frontmatter.status
  -- the row of the vault that is served gets its own status back
  | .moveLocus _ _ id => ∃ note, srv.vault.readNote s id = some note ∧
      key = srv.vault.writeKey note.frontmatter.vaultId id ∧ key ≠ ⟨srv.vault.vaultId, id⟩ ∧
        status = note.frontmatter.status
  | .downgradeNote vault _ id _ _ => key = ⟨vault, id⟩ ∧ status = .downgraded
  | .patchNoteStatus vault _ id st _ _ => key = ⟨vault, id⟩ ∧ st = some status

section Calls

variable {srv : Server} {s : VaultState}

theorem rowStep_updateNoteStatus (checked : VaultId) (changed : Instant) (input : WriteInput)
    (target : NoteStatus) (reason : Option String) (id : NoteId) :
    RowStep (fun status => (∃ note, srv.vault.readNote s id = some note ∧
        key = srv.vault.writeKey note.frontmatter.vaultId id) ∧ status = target) (s.notes key)
      ((srv.vault.updateNoteStatus checked changed input target reason id s).2.notes key) := by
  rcases updateNoteStatus_cases (v := srv.vault) checked changed input target reason id s with
    hsame | ⟨note, hnote, -, hnew⟩
  · exact .of_eq _ (congrArg (VaultState.notes · key) hsame)
  rw [hnew]
  refine (rowStep_commit _ _ _ _ _ _ _).mono fun status hsets => ?_
  exact ⟨⟨note, hnote, hsets.1⟩, hsets.2⟩

theorem rowStep_historyRestore (checked : VaultId) (input : WriteInput) (id : NoteId) (stamp : Int) :
    RowStep (fun status => ∃ snapshot, srv.vault.historyGet s id stamp = some snapshot ∧
        key = srv.vault.writeKey snapshot.frontmatter.vaultId id ∧ status = snapshot.frontmatter.status)
      (s.notes key) ((srv.vault.historyRestore checked input id stamp s).2.notes key) := by
  rcases historyRestore_cases (v := srv.vault) checked input id stamp s with
    hsame | ⟨snapshot, hsnap, -, hnew⟩
  · exact .of_eq _ (congrArg (VaultState.notes · key) hsame)
  rw [hnew]
  exact (rowStep_commit _ _ _ _ _ _ _).mono fun status hsets => ⟨snapshot, hsnap, hsets⟩

theorem notes_deleteOld (s : VaultState) (old : Option NotePath) :
    (match old with
      | some path => s.deleteFile path
      | none => s).notes = s.notes := by
  cases old <;> rfl

theorem rowStep_moveLocus (input : WriteInput) (newLocus : LocusId) (id : NoteId) :
    RowStep (fun status => ∃ note, srv.vault.readNote s id = some note ∧
        key = srv.vault.writeKey note.frontmatter.vaultId id ∧ key ≠ ⟨srv.vault.vaultId, id⟩ ∧
          status = note.frontmatter.status)
      (s.notes key) ((srv.vault.moveLocus input newLocus id s).2.notes key) := by
  rcases moveLocus_cases (v := srv.vault) input newLocus id s with
    hsame | ⟨note, row, hnote, hrow, hmoved⟩
  · exact .of_eq _ (congrArg (VaultState.notes · key) hsame)
  have hwrite := rowStep_commit (v := srv.vault) input
    { note.frontmatter with locus := some newLocus } note.body id none s key
  have hnotes : (srv.vault.moveLocus input newLocus id s).2.notes = _ :=
    hmoved.elim (congrArg VaultState.notes) fun ⟨_, _, _, hnew⟩ => by rw [hnew]; rfl
  rw [hnotes]
  by_cases hkey : key = ⟨srv.vault.vaultId, id⟩
  · subst hkey
    rw [VaultState.updateRow_self]
    refine ⟨fun h => by simpa using hwrite.kept h, fun row' hrow' => .inl ⟨row, hrow, ?_⟩⟩
    obtain ⟨_, -, rfl⟩ := map_eq_some_iff.1 hrow'
    rfl
  · rw [VaultState.updateRow_of_ne _ _ hkey]
    apply hwrite.mono
    intro status ⟨hk, hstat⟩
    exact ⟨note, hnote, hk, hkey, hstat⟩

theorem rowStep_updateExisting (hf : key = key' → ∀ row, (f row).status = row.status ∨ sets (f row).status) :
    RowStep sets (s.notes key) ((s.updateExisting key' f).2.notes key) := by
  unfold VaultState.updateExisting
  split
  · exact .updateRow s key' key hf
  · exact .refl _ _

theorem rowStep_persistCurated (input : CuratedInput) (req : PersistCuratedRequest) :
    RowStep (fun status => key = ⟨req.tenantId, req.noteId⟩ ∧
        ∃ st, parseStatus req.status = some st ∧ status = .of st) (s.notes key)
      ((srv.handlePersistCurated input req s).2.notes key) := by
  rcases handlePersistCurated_cases srv input req s with
    ⟨e, hreply⟩ | ⟨sec, status, -, hstat, hvault, hreply⟩
  · rw [hreply]
    exact .refl _ _
  rw [hreply]
  have hwrite := rowStep_commit (v := srv.vault) input.write
    (curatedFrontmatter input req.tenantId sec status req) req.body req.noteId none s key
  have hkey : srv.vault.writeKey req.tenantId req.noteId = ⟨req.tenantId, req.noteId⟩ := by
    rw [Vault.writeKey, if_neg hvault]
  refine .trans (hwrite.mono fun st ⟨hk, hst⟩ => ⟨hk.trans hkey, status, hstat, hst⟩) ?_
  exact .updateRow _ _ _ fun _ row => .inl rfl

theorem ClientCall.rowStep (call : ClientCall) :
    RowStep (fun status => call.Sets srv s key status) (s.notes key)
      ((call.apply srv s).notes key) := by
  cases call with
  | write checked input frontmatter body id =>
    rcases writeNoteWithIdInternal_cases (v := srv.vault) checked input frontmatter body id s
      with ⟨e, hreply⟩ | hreply
    · rw [ClientCall.apply, hreply]
      exact .refl _ _
    · rw [ClientCall.apply, hreply]
      exact rowStep_commit input frontmatter body id none s key
  | persistCurated input req => exact rowStep_persistCurated input req
  | updateNoteStatus checked changed input target reason id =>
    exact rowStep_updateNoteStatus checked changed input target reason id
  | historyRestore checked input id stamp => exact rowStep_historyRestore checked input id stamp
  | moveLocus input newLocus id => exact rowStep_moveLocus input newLocus id
  | downgradeNote vault now id reason replacedBy =>
    rw [ClientCall.apply, VaultState.downgradeNote]
    split
    · exact .refl _ _
    split
    · exact .refl _ _
    apply rowStep_updateExisting
    intro hkey row
    exact .inr ⟨hkey, rfl⟩
  | patchNoteStatus vault now id status reason replacedBy =>
    apply rowStep_updateExisting
    intro hkey row
    cases status with
    | none => exact .inl rfl
    | some status => exact .inr ⟨hkey, rfl⟩

end Calls

end Gradatum.Notes
