import Gradatum.Reasoning.Run
import Gradatum.Notes.ForgetJob
import Gradatum.Notes.Mutation
import Gradatum.Notes.Query

/-!
# The purge job

`handle_purge` deletes the garbage of a vault note by note.  One request reads the status of a note again and
one deletes it; between them the server answers other clients.
-/

open Reasoning

namespace Gradatum.Notes

open Option Function List

/-! ## 1. Deleting a note -/

def Section.protectedDelete : List Section :=
  [.agentIssues, .council, .projectMap, .identity, .decisions, .reasoning]

def Section.isDeleteProtected (sec title : String) : Bool :=
  if sec = Section.identity.asStr then !Section.identityPersonCarveout title
  else Section.protectedDelete.any fun s => s.asStr = sec

/-- The row is one that `cascade_delete_note` refuses to delete; a missing title counts as empty. -/
def NoteRow.isDeleteProtected (row : NoteRow) : Bool :=
  Section.isDeleteProtected row.section.asStr (row.title.getD "")

inductive DeleteError where
  | noteNotFound (id : NoteId)
  | forbidden (message : String)
  | noFile (path : NotePath)

def deletePath (s : VaultState) (vault : VaultId) (row : NoteRow) (id : NoteId) : NotePath :=
  ((consultedPaths vault row id).find? fun path => (s.files path).isSome).getD
    ⟨vault, some row.section.asStr, id⟩

theorem deletePath_eq (s : VaultState) (vault : VaultId) (row : NoteRow) (id : NoteId) :
    ∃ dir, deletePath s vault row id = ⟨vault, dir, id⟩ := by
  unfold deletePath
  cases hfound : (consultedPaths vault row id).find? fun path => (s.files path).isSome with
  | none => exact ⟨_, rfl⟩
  | some path =>
    obtain ⟨dir, -, rfl⟩ := mem_map.1 (mem_of_find?_eq_some hfound)
    exact ⟨dir, rfl⟩

section Delete

-- a file system reports the deletion of a file that is not there, an object store does not
variable (strict : Bool)

def VaultState.deleteNoteIn (s : VaultState) (vault : VaultId) (id : NoteId) :
    Except DeleteError Unit × VaultState :=
  match s.notes ⟨vault, id⟩ with
  | none => (.error (.noteNotFound id), s)
  | some row =>
    let path := deletePath s vault row id
    if strict ∧ s.files path = none then (.error (.noFile path), s)
    else (.ok (), (s.deleteFile path).setHistory vault id [])

def VaultState.deleteNoteFromIndex (s : VaultState) (vault : VaultId) (id : NoteId) : VaultState :=
  { s with notes := update s.notes ⟨vault, id⟩ none }

def VaultState.purged (s : VaultState) (path : NotePath) (vault : VaultId) (id : NoteId) : VaultState :=
  ((s.deleteFile path).setHistory vault id []).deleteNoteFromIndex vault id

theorem VaultState.purged_files_of_ne (s : VaultState) (vault : VaultId) (id : NoteId)
    (hne : path' ≠ path) : (s.purged path vault id).files path' = s.files path' := by
  simp only [purged, deleteNoteFromIndex, setHistory, deleteFile]
  rw [update_of_ne hne]

variable {vault : VaultId} {id : NoteId} {key : NoteKey}

theorem VaultState.purged_notes_of_ne (s : VaultState) (path : NotePath) (hne : key ≠ ⟨vault, id⟩) :
    (s.purged path vault id).notes key = s.notes key := by
  simp only [purged, deleteNoteFromIndex, setHistory, deleteFile]
  rw [update_of_ne hne]

theorem VaultState.purged_history_of_ne (s : VaultState) (path : NotePath) (hne : key ≠ ⟨vault, id⟩) :
    (s.purged path vault id).history key.vault key.id = s.history key.vault key.id := by
  simp only [purged, deleteNoteFromIndex, setHistory, deleteFile]
  by_cases hvault : key.vault = vault
  · have hid : key.id ≠ id := by
      intro hid
      exact hne (by cases key; subst hvault hid; rfl)
    rw [hvault, update_self, update_of_ne hid]
  · rw [update_of_ne hvault]

/-- The guard looks at section and title; the status of the note is not looked at. -/
def cascadeDeleteNote (vault : VaultId) (id : NoteId) (s : VaultState) :
    Except DeleteError Unit × VaultState :=
  match (s.notes ⟨vault, id⟩).filter NoteRow.isDeleteProtected with
  | some row =>
    let sec := row.section.asStr
    (.error (.forbidden (s!"protected section: '{sec}' can never be hard-deleted " ++
      "(PROTECTED_DELETE, no bypass)")), s)
  | none =>
    match s.deleteNoteIn strict vault id with
    | (.error e, s) => (.error e, s)
    | (.ok (), s) => (.ok (), s.deleteNoteFromIndex vault id)

end Delete

/-! ## 2. The job -/

structure PurgeSpec where
  dryRun : Bool
  graceDays : Option Nat

def i64Max : Int := 2 ^ 63 - 1

def PurgeSpec.cutoff (spec : PurgeSpec) (now : Instant) : Int :=
  match spec.graceDays with
  | some days => now.millis - days * 24 * 3600 * 1000
  | none => i64Max

def NoteRow.since (row : NoteRow) : Int := row.statusChanged.getD row.created

def listGarbageOlderThan (v : IndexedVault) (vault : VaultId) (cutoff : Int) : List NoteId :=
  let found := v.answers.select vault fun row =>
    row.status = .of .garbage && row.since ≤ cutoff && !Section.protectedDelete.contains row.section
  found.insertionSort fun a b =>
    ((v.state.notes ⟨vault, a⟩).map NoteRow.since).getD 0 ≤
      ((v.state.notes ⟨vault, b⟩).map NoteRow.since).getD 0

/-- What the handler holds between two requests. -/
inductive PurgeJob where
  | waiting
  /-- `confirmed` is the note whose status was read as garbage and whose delete is the next request. -/
  | running (rest : List NoteId) (confirmed : Option NoteId) (deleted : List NoteId) (skipped : Nat)
  | done (out : JobOutput)

def PurgeJob.confirmed : PurgeJob → Option NoteId
  | .running _ confirmed _ _ => confirmed
  | _ => none

def PurgeJob.next (rest deleted : List NoteId) (skipped : Nat) : PurgeJob :=
  match rest with
  | [] =>
    let deletedCount := deleted.length
    .done
      { notesModified := []
        resultNoteMd := s!"purge lifecycle: {deletedCount} note(s) deleted, {skipped} skipped" }
  | _ :: _ => .running rest none deleted skipped

def purgePreview (candidates : List NoteId) : JobOutput :=
  let ulidList := String.intercalate ", " (candidates.map ulidText)
  .dryRun candidates.length <|
    if ulidList = "" then "purge lifecycle dry-run — no eligible note"
    else s!"purge lifecycle dry-run — eligible notes: [{ulidList}]"

def VaultState.getNoteStatus (s : VaultState) (vault : VaultId) (id : NoteId) : Option NoteStatus :=
  (s.notes ⟨vault, id⟩).map fun row =>
    match row.status with
    | .of status => status
    | .downgraded => .deprecated

structure PurgeState where
  index : IndexedVault
  job : PurgeJob

/-- A step of the server: one of the requests of the job, or a call of another client. -/
inductive PurgeEvent where
  | list (now : Instant)
  | status
  | delete
  | client (call : ClientCall)

def ClientCall.added (srv : Server) (s : VaultState) : ClientCall → List NoteKey
  | .write _ _ frontmatter _ id => [srv.vault.writeKey frontmatter.vaultId id]
  | .persistCurated _ req => [⟨req.tenantId, req.noteId⟩]
  | .updateNoteStatus _ _ _ _ _ id | .moveLocus _ _ id =>
    (srv.vault.readNote s id).toList.map fun note =>
      srv.vault.writeKey note.frontmatter.vaultId id
  | .historyRestore _ _ id stamp =>
    (srv.vault.historyGet s id stamp).toList.map fun note =>
      srv.vault.writeKey note.frontmatter.vaultId id
  | .downgradeNote vault _ id _ _ | .patchNoteStatus vault _ id _ _ _ => [⟨vault, id⟩]

theorem ClientCall.mem_added_of_sets {call : ClientCall} (h : call.Sets srv s key status) :
    key ∈ call.added srv s := by
  cases call with
  | write | persistCurated | downgradeNote | patchNoteStatus => exact mem_singleton.2 h.1
  | updateNoteStatus checked changed input target reason id =>
    obtain ⟨⟨note, hnote, hkey⟩, -⟩ := h
    rw [ClientCall.added, hnote]
    exact mem_singleton.2 hkey
  | historyRestore checked input id stamp =>
    obtain ⟨snapshot, hsnap, hkey, -⟩ := h
    rw [ClientCall.added, hsnap]
    exact mem_singleton.2 hkey
  | moveLocus input newLocus id =>
    obtain ⟨note, hnote, hkey, -⟩ := h
    rw [ClientCall.added, hnote]
    exact mem_singleton.2 hkey

theorem ClientCall.isSome_or_mem_added (call : ClientCall) (row : NoteRow)
    (h : (call.apply srv s).notes key = some row) : (s.notes key).isSome ∨ key ∈ call.added srv s := by
  have hstep : RowStep (fun status => call.Sets srv s key status) (s.notes key)
      ((call.apply srv s).notes key) := call.rowStep
  rcases hstep.status row h with ⟨old, hold, -⟩ | hsets
  · exact .inl (isSome_of_eq_some hold)
  · exact .inr (mem_added_of_sets hsets)

section Step

variable (srv : Server) (strict : Bool) (spec : PurgeSpec) (vault : VaultId)

/-- A delete request is refused and removes nothing, or the note has a row that is not protected and
loses its file, its history and its row. -/
theorem cascadeDeleteNote_cases (id : NoteId) (s : VaultState) :
    (∃ e, cascadeDeleteNote strict vault id s = (.error e, s)) ∨
      ∃ row, s.notes ⟨vault, id⟩ = some row ∧ row.isDeleteProtected = false ∧
        cascadeDeleteNote strict vault id s =
          (.ok (), s.purged (deletePath s vault row id) vault id) := by
  unfold cascadeDeleteNote VaultState.deleteNoteIn
  cases hrow : s.notes ⟨vault, id⟩ with
  | none => exact .inl ⟨_, rfl⟩
  | some row =>
    cases hprot : row.isDeleteProtected with
    | true =>
      left
      simp [Option.filter, hprot]
    | false =>
      simp only [Option.filter, hprot, Bool.false_eq_true, if_false]
      by_cases hfile : strict ∧ s.files (deletePath s vault row id) = none
      · exact .inl ⟨_, by rw [if_pos hfile]⟩
      · exact .inr ⟨row, rfl, hprot, by rw [if_neg hfile]; rfl⟩

theorem isSome_of_cascadeDeleteNote {strict : Bool} {vault : VaultId} {id : NoteId}
    (h : (cascadeDeleteNote strict vault id s).2.notes key = some row) : (s.notes key).isSome := by
  rcases cascadeDeleteNote_cases strict vault id s with ⟨e, hreply⟩ | ⟨old, hold, -, hreply⟩
  · rw [hreply] at h
    exact isSome_of_eq_some h
  by_cases hkey : key = ⟨vault, id⟩
  · rw [hkey]
    exact isSome_of_eq_some hold
  · rw [hreply] at h
    exact isSome_of_eq_some ((s.purged_notes_of_ne _ hkey).symm.trans h)

/-- A request that the job is not about to send does nothing. -/
def purgeStep (st : PurgeState) : PurgeEvent → PurgeState
  | .list now =>
    match st.job with
    | .waiting =>
      let candidates := listGarbageOlderThan st.index vault (spec.cutoff now)
      { st with job := if spec.dryRun then .done (purgePreview candidates)
          else .next candidates [] 0 }
    | _ => st
  | .status =>
    match st.job with
    | .running (id :: rest) none deleted skipped =>
      if st.index.state.getNoteStatus vault id = some .garbage then
        { st with job := .running rest (some id) deleted skipped }
      else { st with job := .next rest deleted (skipped + 1) }
    | _ => st
  | .delete =>
    match st.job with
    | .running rest (some id) deleted skipped =>
      { index := st.index.update [] (cascadeDeleteNote strict vault id st.index.state).2
          fun _ _ h => .inl (isSome_of_cascadeDeleteNote h)
        job := match (cascadeDeleteNote strict vault id st.index.state).1 with
          | .ok () => .next rest (deleted ++ [id]) skipped
          | .error _ => .next rest deleted (skipped + 1) }
    | _ => st
  | .client call =>
    { st with
      index := st.index.update (call.added srv st.index.state) (call.apply srv st.index.state)
        fun _ row h => call.isSome_or_mem_added row h }

end Step

/-! ## 3. Only garbage is deleted -/

/-- Something of the note at `key` is there before and not after. -/
def Loses (key : NoteKey) (s s' : VaultState) : Prop :=
  (∃ dir, (s.files ⟨key.vault, dir, key.id⟩).isSome ∧ s'.files ⟨key.vault, dir, key.id⟩ = none) ∨
    ((s.notes key).isSome ∧ s'.notes key = none) ∨
    ∃ snapshot ∈ s.history key.vault key.id, snapshot ∉ s'.history key.vault key.id

def PurgeEvent.OfJob : PurgeEvent → Prop
  | .client _ => False
  | _ => True

def PurgesOnlyGarbage (srv : Server) (strict : Bool) (spec : PurgeSpec) (vault : VaultId)
    (st : PurgeState) (e : PurgeEvent) : Prop :=
  e.OfJob → ∀ key, Loses key st.index.state (purgeStep srv strict spec vault st e).index.state →
    ∃ row, st.index.state.notes key = some row ∧ row.status = .of .garbage ∧
      row.isDeleteProtected = false

def Undisturbed (srv : Server) (vault : VaultId) (st : PurgeState) : PurgeEvent → Prop
  | .client call => ∀ id, st.job.confirmed = some id →
      ∀ status, call.Sets srv st.index.state ⟨vault, id⟩ status → status = .of .garbage
  | _ => True

def ConfirmedGarbage (vault : VaultId) (st : PurgeState) : Prop :=
  ∀ id, st.job.confirmed = some id →
    ∃ row, st.index.state.notes ⟨vault, id⟩ = some row ∧ row.status = .of .garbage

section Proofs

theorem not_loses_self (key : NoteKey) (s : VaultState) : ¬ Loses key s s := by
  rintro (⟨dir, hsome, hnone⟩ | ⟨hsome, hnone⟩ | ⟨snapshot, hmem, hnot⟩)
  · rw [hnone] at hsome
    cases hsome
  · rw [hnone] at hsome
    cases hsome
  · exact hnot hmem

/-- A delete that takes anything away takes it from the note it names, which has a row that is not
protected. -/
theorem of_loses_cascadeDeleteNote {id : NoteId}
    (h : Loses key s (cascadeDeleteNote strict vault id s).2) :
    key = ⟨vault, id⟩ ∧ ∃ row, s.notes key = some row ∧ row.isDeleteProtected = false := by
  rcases cascadeDeleteNote_cases strict vault id s with ⟨e, hreply⟩ | ⟨row, hrow, hopen, hreply⟩
  · rw [hreply] at h
    exact absurd h (not_loses_self key s)
  suffices hkey : key = ⟨vault, id⟩ by
    subst hkey
    exact ⟨rfl, row, hrow, hopen⟩
  rw [hreply] at h
  by_contra hne
  -- nothing of another note is touched
  rcases h with ⟨dir, hsome, hnone⟩ | ⟨hsome, hnone⟩ | ⟨snapshot, hmem, hnot⟩
  · obtain ⟨dir', hpath⟩ := deletePath_eq s vault row id
    have hfiles : (⟨key.vault, dir, key.id⟩ : NotePath) ≠ deletePath s vault row id := by
      rw [hpath]
      intro heq
      cases heq
      exact hne rfl
    dsimp only at hnone
    rw [s.purged_files_of_ne vault id hfiles] at hnone
    rw [hnone] at hsome
    cases hsome
  · dsimp only at hnone
    rw [s.purged_notes_of_ne _ hne] at hnone
    rw [hnone] at hsome
    cases hsome
  · dsimp only at hnot
    rw [s.purged_history_of_ne _ hne] at hnot
    exact hnot hmem

theorem confirmed_next (rest deleted : List NoteId) (skipped : Nat) :
    (PurgeJob.next rest deleted skipped).confirmed = none := by
  cases rest <;> rfl

/-- A request of the job changes nothing and confirms at most a note whose status it reads as garbage,
or it deletes the note that was confirmed. -/
theorem purgeStep_ofJob (hjob : e.OfJob) : ((purgeStep srv strict spec vault st e).index = st.index ∧
        ∀ id, (purgeStep srv strict spec vault st e).job.confirmed = some id →
          st.job.confirmed = some id ∨ st.index.state.getNoteStatus vault id = some .garbage) ∨
      ∃ id, st.job.confirmed = some id ∧ (purgeStep srv strict spec vault st e).job.confirmed = none ∧
        (purgeStep srv strict spec vault st e).index.state =
          (cascadeDeleteNote strict vault id st.index.state).2 := by
  cases e with
  | list now =>
    left
    simp only [purgeStep]
    split
    · refine ⟨rfl, fun id hid => ?_⟩
      split at hid
      · cases hid
      · rw [confirmed_next] at hid
        cases hid
    · exact ⟨rfl, fun id hid => .inl hid⟩
  | status =>
    left
    simp only [purgeStep]
    split
    · split
      · rename_i hgarb
        refine ⟨rfl, fun id hid => ?_⟩
        cases hid
        exact .inr hgarb
      · refine ⟨rfl, fun id hid => ?_⟩
        rw [confirmed_next] at hid
        cases hid
    · exact ⟨rfl, fun id hid => .inl hid⟩
  | delete =>
    simp only [purgeStep]
    split
    · rename_i rest id deleted skipped hrun
      refine .inr ⟨id, by rw [hrun]; rfl, ?_, rfl⟩
      dsimp only
      split <;> exact confirmed_next _ _ _
    · exact .inl ⟨rfl, fun id hid => .inl hid⟩
  | client call => cases hjob

theorem exists_row_of_getNoteStatus {s : VaultState} {id : NoteId}
    (h : s.getNoteStatus vault id = some .garbage) :
    ∃ row, s.notes ⟨vault, id⟩ = some row ∧ row.status = .of .garbage := by
  obtain ⟨row, hrow, hstat⟩ := map_eq_some_iff.1 h
  refine ⟨row, hrow, ?_⟩
  cases hcol : row.status with
  | of status =>
    rw [hcol] at hstat
    exact congrArg RowStatus.of hstat
  | downgraded =>
    rw [hcol] at hstat
    cases hstat

theorem confirmedGarbage_purgeStep (e : PurgeEvent) (hinv : ConfirmedGarbage vault st)
    (hquiet : Undisturbed srv vault st e) :
    ConfirmedGarbage vault (purgeStep srv strict spec vault st e) := by
  have hreq : e.OfJob → ConfirmedGarbage vault (purgeStep srv strict spec vault st e) := by
    intro hjob id hid
    rcases purgeStep_ofJob hjob with ⟨hindex, hconf⟩ | ⟨_, -, hnone, -⟩
    · rw [hindex]
      rcases hconf id hid with hbef | hread
      · exact hinv id hbef
      · exact exists_row_of_getNoteStatus hread
    · rw [hnone] at hid
      cases hid
  cases e with
  | client call =>
    intro id hid
    obtain ⟨row, hrow, hgarb⟩ := hinv id hid
    have hstep : RowStep (fun status => call.Sets srv st.index.state ⟨vault, id⟩ status)
        (st.index.state.notes ⟨vault, id⟩) ((call.apply srv st.index.state).notes ⟨vault, id⟩) :=
      call.rowStep
    obtain ⟨row', hrow'⟩ := isSome_iff_exists.1
      (hstep.kept (isSome_of_eq_some hrow))
    refine ⟨row', hrow', ?_⟩
    rcases hstep.status row' hrow' with ⟨old, hold, heq⟩ | hsets
    · cases hrow.symm.trans hold
      rw [heq, hgarb]
    · exact hquiet id hid row'.status hsets
  | _ => exact hreq trivial

theorem purgesOnlyGarbage_of_confirmedGarbage (e : PurgeEvent) (hinv : ConfirmedGarbage vault st) :
    PurgesOnlyGarbage srv strict spec vault st e := by
  intro hjob key hloses
  rcases purgeStep_ofJob hjob with ⟨hindex, -⟩ | ⟨id, hconf, -, hstate⟩
  · rw [hindex] at hloses
    exact absurd hloses (not_loses_self key _)
  rw [hstate] at hloses
  obtain ⟨rfl, row, hrow, hopen⟩ := of_loses_cascadeDeleteNote hloses
  obtain ⟨row', hrow', hgarb⟩ := hinv id hconf
  cases hrow.symm.trans hrow'
  exact ⟨row, hrow, hgarb, hopen⟩

end Proofs

/-- In a run in which no note is given another status between the read of its status and its delete,
the job deletes garbage only.  The delete itself does not look at the status. -/
theorem purgesOnlyGarbage_of_undisturbed (srv : Server) (strict : Bool) (spec : PurgeSpec)
    (vault : VaultId) (index : IndexedVault) (es : List PurgeEvent)
    (hquiet : EachStep (purgeStep srv strict spec vault) (Undisturbed srv vault) ⟨index, .waiting⟩ es) :
    EachStep (purgeStep srv strict spec vault) (PurgesOnlyGarbage srv strict spec vault)
      ⟨index, .waiting⟩ es := by
  have hinit : ConfirmedGarbage vault ⟨index, .waiting⟩ := by
    intro id hid
    cases hid
  apply hquiet.imp_of_inv hinit
  · intro st e hinv h
    exact confirmedGarbage_purgeStep e hinv h
  · intro st e hinv _
    exact purgesOnlyGarbage_of_confirmedGarbage e hinv

def oneGarbageNote : IndexedVault :=
  .ofNote
    { plainNote 1 none "text" with
      frontmatter := { (plainNote 1 none "text").frontmatter with status := .garbage } }

def purgeAll : PurgeSpec := ⟨false, none⟩

/-- Another note is downgraded while note `1` awaits its delete. -/
theorem purgesOnlyGarbage_otherNote : EachStep (purgeStep plainServer true purgeAll "main")
      (PurgesOnlyGarbage plainServer true purgeAll "main") ⟨oneGarbageNote, .waiting⟩
      [.list 0, .status, .client (.downgradeNote "main" 1 2 "superseded" none), .delete] := by
  apply purgesOnlyGarbage_of_undisturbed
  refine ⟨trivial, trivial, ?_, trivial, trivial⟩
  intro id hid status hsets
  cases hid
  cases hsets.1

theorem not_purgesOnlyGarbage_restored : ¬ EachStep (purgeStep plainServer true purgeAll "main")
      (PurgesOnlyGarbage plainServer true purgeAll "main") ⟨oneGarbageNote, .waiting⟩
      [.list 0, .status, .client (.updateNoteStatus "main" 1 (.at 1) .live none 1), .delete] := by
  intro h
  obtain ⟨-, -, -, hdel, -⟩ := h
  obtain ⟨row, hrow, hgarb, -⟩ := hdel trivial ⟨"main", 1⟩ (.inr (.inl ⟨rfl, rfl⟩))
  cases hrow
  cases hgarb

end Gradatum.Notes
