import Gradatum.Notes.Purge
import Gradatum.Reasoning.Process
import Gradatum.Reasoning.Table

/-!
# Archives

`archive_note_in` moves the file and the history of a note under `.archive/` and enters it in a registry.
`restore_archive` and `run_archive_gc` run side by side, as processes over single calls of a faithful
storage and of the registry.
-/

open Reasoning

namespace Gradatum.Notes

open List Function

/-! ## 1. The registry -/

/-- The path `.archive/<path>`; where that was taken, `-<ms>` stands before the `.md`. -/
structure ArchivePath where
  mirrored : NotePath
  suffix : Option Int
  deriving DecidableEq

/-- A row of `archive_index`.  The file lies where the note was: in its vault and under its id. -/
structure ArchiveEntry where
  rowId : Nat
  noteId : NoteId
  vaultId : VaultId
  «section» : Section
  title : Option String
  originalLocus : Option String
  archivePath : ArchivePath
  archivedAt : Int
  archivedBy : Option String
  gcDue : Int
  gcAt : Option Int
  restoredAt : Option Int
  own : archivePath.mirrored.vault = vaultId ∧ archivePath.mirrored.id = noteId

namespace ArchiveEntry

def isActive (e : ArchiveEntry) : Bool := e.gcAt.isNone && e.restoredAt.isNone

def key (e : ArchiveEntry) : NoteKey := ⟨e.vaultId, e.noteId⟩

end ArchiveEntry

structure Registry where
  table : Table ArchiveEntry.rowId
  unique : ((table.select ArchiveEntry.isActive).map ArchiveEntry.key).Nodup

abbrev ActiveArchive (vault : VaultId) (note : NoteId) : Type :=
  { e : ArchiveEntry // e.isActive = true ∧ e.vaultId = vault ∧ e.noteId = note }

namespace Registry

def archiveListMax : Nat := 500

variable (r : Registry) (vault : VaultId) (note : NoteId) (nowMs : Int)

def selectGcDueArchives (limit : Nat) : List ArchiveEntry :=
  ((r.table.select fun e => e.gcDue < nowMs && e.isActive).insertionSort (·.gcDue ≤ ·.gcDue)).take
    (min limit archiveListMax)

/-- The active row of a note, as the statements below have it in their `WHERE`. -/
def active (e : ArchiveEntry) : Bool :=
  e.noteId = note && e.vaultId = vault && e.isActive

def getActiveArchive :
    Option (ActiveArchive vault note) :=
  match h : r.table.rows.find? (active vault note) with
  | none => none
  | some e => some ⟨e, by
      have hactive := find?_some h
      simp only [active, Bool.and_eq_true, decide_eq_true_eq] at hactive
      exact ⟨hactive.2, hactive.1.2, hactive.1.1⟩⟩

/-- An UPDATE of the active row of a note that makes it inactive. -/
def deactivate (f : ArchiveEntry → ArchiveEntry)
    (hrow : ∀ e, (f e).rowId = e.rowId := by intro e; rfl)
    (hf : ∀ e, (f e).isActive = false := by intro e; simp [ArchiveEntry.isActive]) : Registry where
  table := r.table.updateWhere (active vault note) f hrow
  unique := r.unique.sublist ((r.table.select_updateWhere_sublist _ _ hf).map _)

def markArchiveGc : Bool × Registry :=
  (r.table.rows.any (active vault note), r.deactivate vault note fun e => { e with gcAt := some nowMs })

def markArchiveRestored :
    Bool × Registry :=
  (r.table.rows.any (active vault note),
    r.deactivate vault note fun e => { e with restoredAt := some nowMs })

/-- The next value of the `AUTOINCREMENT` key. -/
def nextRowId : Nat := (r.table.rows.map ArchiveEntry.rowId).max?.getD 0 + 1

theorem nextRowId_not_mem : r.nextRowId ∉ r.table.rows.map ArchiveEntry.rowId := by
  intro hmem
  have hle : r.nextRowId ≤ (r.table.rows.map ArchiveEntry.rowId).max?.getD 0 := le_max?_getD_of_mem hmem
  unfold nextRowId at hle
  omega

def insertArchiveEntry (e : ArchiveEntry) : Option Registry :=
  if h : e.isActive = true ∧ e.key ∈ (r.table.select ArchiveEntry.isActive).map ArchiveEntry.key then none
  else some
    { table :=
        { rows := r.table.rows ++ [{ e with rowId := r.nextRowId }]
          nodup := by
            rw [map_append, map_singleton]
            exact r.table.nodup.append (nodup_singleton _) (by simpa using r.nextRowId_not_mem) }
      unique := by
        show (((r.table.rows ++ [_]).filter ArchiveEntry.isActive).map ArchiveEntry.key).Nodup
        rw [filter_append, map_append]
        by_cases hactive : e.isActive = true
        · have hnew : e.key ∉ (r.table.select ArchiveEntry.isActive).map ArchiveEntry.key :=
            fun hmem => h ⟨hactive, hmem⟩
          rw [filter_cons_of_pos (by exact hactive)]
          exact r.unique.append (nodup_singleton _) (disjoint_singleton.2 hnew)
        · rw [filter_cons_of_neg (by exact hactive), filter_nil, map_nil, append_nil]
          exact r.unique }

end Registry

/-! ## 2. The storage -/

structure Snapshots where
  entries : List (Int × MdFile)
  nodup : (entries.map Prod.fst).Nodup

namespace Snapshots

def empty : Snapshots := ⟨[], nodup_nil⟩

def stamps (d : Snapshots) : List Int := d.entries.map Prod.fst

def read? (d : Snapshots) (stamp : Int) : Option MdFile := d.entries.lookup stamp

def delete (d : Snapshots) (stamp : Int) : Snapshots where
  entries := d.entries.filter fun p => p.1 ≠ stamp
  nodup := d.nodup.sublist (filter_sublist.map _)

end Snapshots

structure ArchiveState where
  live : VaultState
  archived : ArchivePath → Option MdFile
  /-- The snapshots under `.archive/<vault>/.history/<id>/`. -/
  archivedHistory : VaultId → NoteId → Snapshots
  registry : Registry

def ArchiveState.setArchivedHistory (s : ArchiveState) (vault : VaultId) (id : NoteId) (d : Snapshots) :
    ArchiveState :=
  { s with
    archivedHistory := update s.archivedHistory vault
      (update (s.archivedHistory vault) id d) }

/-- One call of the storage or of the registry. -/
inductive ArchiveOp
  | selectGcDueArchives (nowMs : Int) (limit : Nat)
  | markArchiveGc (vault : VaultId) (note : NoteId) (nowMs : Int)
  | getActiveArchive (vault : VaultId) (note : NoteId)
  | markArchiveRestored (vault : VaultId) (note : NoteId) (nowMs : Int)
  | readArchived (path : ArchivePath)
  | deleteArchived (path : ArchivePath)
  | listArchivedHistory (vault : VaultId) (note : NoteId)
  | readArchivedSnapshot (vault : VaultId) (note : NoteId) (stamp : Int)
  | deleteArchivedSnapshot (vault : VaultId) (note : NoteId) (stamp : Int)
  | writeSnapshot (vault : VaultId) (note : NoteId) (stamp : Int) (file : MdFile)
  | getNote (vault : VaultId) (note : NoteId)
  /-- `write_note_with_id`, up to its first write: the previous version is looked up. -/
  | judge (input : WriteInput) (frontmatter : Frontmatter) (body : String) (id : NoteId)
  | recordHistory (input : WriteInput) (judged : Judged)
  | writeMd (note : Note)
  | upsertNote (note : Note)

abbrev ArchiveOp.Answer : ArchiveOp → Type
  | .selectGcDueArchives _ _ => List ArchiveEntry
  | .markArchiveGc _ _ _ => Bool
  | .getActiveArchive vault note => Option (ActiveArchive vault note)
  | .markArchiveRestored _ _ _ => Bool
  | .readArchived _ => Option MdFile
  | .deleteArchived _ => Unit
  | .listArchivedHistory _ _ => List Int
  | .readArchivedSnapshot _ _ _ => Option MdFile
  | .deleteArchivedSnapshot _ _ _ => Unit
  | .writeSnapshot _ _ _ _ => Unit
  | .getNote _ _ => Option NoteRow
  | .judge _ _ _ _ => Judged
  | .recordHistory _ _ => Unit
  | .writeMd _ => Unit
  | .upsertNote _ => Unit

namespace Vault

variable (v : Vault)

def archiveStep : (op : ArchiveOp) → ArchiveState → op.Answer × ArchiveState
  | .selectGcDueArchives nowMs limit, s => (s.registry.selectGcDueArchives nowMs limit, s)
  | .markArchiveGc vault note nowMs, s =>
    let (marked, registry) := s.registry.markArchiveGc vault note nowMs
    (marked, { s with registry := registry })
  | .getActiveArchive vault note, s => (s.registry.getActiveArchive vault note, s)
  | .markArchiveRestored vault note nowMs, s =>
    let (marked, registry) := s.registry.markArchiveRestored vault note nowMs
    (marked, { s with registry := registry })
  | .readArchived path, s => (s.archived path, s)
  | .deleteArchived path, s => ((), { s with archived := update s.archived path none })
  | .listArchivedHistory vault note, s => ((s.archivedHistory vault note).stamps, s)
  | .readArchivedSnapshot vault note stamp, s => ((s.archivedHistory vault note).read? stamp, s)
  | .deleteArchivedSnapshot vault note stamp, s =>
    ((), s.setArchivedHistory vault note ((s.archivedHistory vault note).delete stamp))
  | .writeSnapshot vault note stamp file, s =>
    let kept := (s.live.history vault note).filter fun p => p.1 ≠ stamp
    ((), { s with live := s.live.setHistory vault note ((stamp, file) :: kept) })
  | .getNote vault note, s => (s.live.notes ⟨vault, note⟩, s)
  | .judge input frontmatter body id, s => (v.judged input frontmatter body id none s.live, s)
  | .recordHistory input judged, s => ((), { s with live := v.recordHistory input judged s.live })
  | .writeMd note, s =>
    ((), { s with live := { s.live with
      files := update s.live.files (noteMdRelativePath note) (some note.file) } })
  | .upsertNote note, s =>
    ((), { s with live := { s.live with notes := v.upsertNote note s.live.notes } })

/-! ## 3. Restoring -/

abbrev ArchiveProcess (α : Type) : Type := Process ArchiveOp ArchiveOp.Answer α

def writeNoteWithIdCalls (input : WriteInput) (frontmatter : Frontmatter) (body : String) (id : NoteId) :
    ArchiveProcess (Except VaultError Note) :=
  if v.refuses input none then .done (.error .detectorUnavailable)
  else
    .call (.judge input frontmatter body id) fun judged =>
    .call (.recordHistory input judged) fun _ =>
    .call (.writeMd judged.note) fun _ =>
    .call (.upsertNote judged.note) fun _ =>
    .done (.ok judged.note)

/-- The loop of `restore_history_dir`: a snapshot that cannot be read is passed over. -/
def moveBack (vault : VaultId) (note : NoteId) : List Int → ArchiveProcess Unit
  | [] => .done ()
  | stamp :: stamps =>
    .call (.readArchivedSnapshot vault note stamp) fun
      | none => moveBack vault note stamps
      | some file =>
        .call (.writeSnapshot vault note stamp file) fun _ =>
        .call (.deleteArchivedSnapshot vault note stamp) fun _ =>
        moveBack vault note stamps

def restoreHistoryDir (vault : VaultId) (note : NoteId) : ArchiveProcess Unit :=
  .call (.listArchivedHistory vault note) fun stamps => moveBack vault note stamps

structure RestoreInput where
  changed : Instant
  write : WriteInput
  restoredAt : Int

inductive RestoreError where
  | noteNotFound (id : NoteId)
  /-- A note already carries the id. -/
  | conflict (id : NoteId)
  /-- The archived file cannot be read. -/
  | unreadable (path : ArchivePath)
  | writeFailed (e : VaultError)
  deriving DecidableEq

structure RestoreOutcome where
  restoredPath : NotePath
  «section» : Section
  status : NoteStatus

def quarantined (changed : Instant) (frontmatter : Frontmatter) : Frontmatter :=
  { frontmatter with
    status := .pendingReview
    statusReason := some "restored from archive (quarantine)"
    statusChanged := some changed }

def restoreArchive (input : RestoreInput) (id : NoteId) :
    ArchiveProcess (Except RestoreError RestoreOutcome) :=
  .call (.getActiveArchive v.vaultId id) fun
  | none => .done (.error (.noteNotFound id))
  | some entry =>
    -- the source compares the vault of the entry again; the query has fixed it
    .call (.getNote v.vaultId id) fun
    | some _ => .done (.error (.conflict id))
    | none =>
      .call (.readArchived entry.1.archivePath) fun
      | none => .done (.error (.unreadable entry.1.archivePath))
      | some file => do
          match ← v.writeNoteWithIdCalls input.write (quarantined input.changed file.frontmatter)
            file.body id with
          | .error e => .done (.error (.writeFailed e))
          | .ok note =>
            .call (.markArchiveRestored v.vaultId id input.restoredAt) fun _ =>
            .call (.deleteArchived entry.1.archivePath) fun _ => do
            restoreHistoryDir v.vaultId id
            .done (.ok ⟨noteMdRelativePath note, entry.1.section, .pendingReview⟩)

/-! ## 4. Collecting -/

def deleteSnapshots (vault : VaultId) (note : NoteId) : List Int → ArchiveProcess Unit
  | [] => .done ()
  | stamp :: stamps =>
    .call (.deleteArchivedSnapshot vault note stamp) fun _ => deleteSnapshots vault note stamps

/-- `delete_archive_files`: the directory of the snapshots is that of the vault that the instance
serves. -/
def deleteArchiveFiles (note : NoteId) (path : ArchivePath) : ArchiveProcess Unit :=
  .call (.deleteArchived path) fun _ =>
  .call (.listArchivedHistory v.vaultId note) fun stamps =>
  deleteSnapshots v.vaultId note stamps

/-- The loop of `run_archive_gc`; `destroyed` entries were marked so far. -/
def collect (nowMs : Int) (destroyed : Nat) : List ArchiveEntry → ArchiveProcess Nat
  | [] => .done destroyed
  | entry :: due => do
      v.deleteArchiveFiles entry.noteId entry.archivePath
      .call (.markArchiveGc entry.vaultId entry.noteId nowMs) fun marked =>
      collect nowMs (if marked then destroyed + 1 else destroyed) due

def runArchiveGc (nowMs : Int) (limit : Nat) : ArchiveProcess Nat :=
  .call (.selectGcDueArchives nowMs limit) fun due => v.collect nowMs 0 due

end Vault

/-! ## 5. Archiving -/

def Snapshots.write (d : Snapshots) (stamp : Int) (file : MdFile) : Snapshots where
  entries := (stamp, file) :: (d.delete stamp).entries
  nodup := by
    rw [map_cons, nodup_cons]
    refine ⟨fun hmem => ?_, (d.delete stamp).nodup⟩
    obtain ⟨p, hp, hstamp⟩ := List.mem_map.1 hmem
    exact absurd hstamp (by simpa using (mem_filter.1 hp).2)

inductive ArchiveError where
  | noteNotFound (id : NoteId)
  /-- `archive read <path>`. -/
  | unreadable (path : NotePath)
  /-- `insert_archive_entry` was refused. -/
  | insertRefused (id : NoteId)

theorem deletePath_own (s : VaultState) (vault : VaultId) (row : NoteRow) (id : NoteId) :
    (deletePath s vault row id).vault = vault ∧ (deletePath s vault row id).id = id := by
  obtain ⟨dir, hpath⟩ := deletePath_eq s vault row id
  rw [hpath]
  exact ⟨rfl, rfl⟩

structure ArchiveOutcome where
  archivePath : ArchivePath
  «section» : Section
  originalLocus : Option String
  title : Option String

namespace ArchiveState

variable (s : ArchiveState)

def archiveHistoryDir (vault : VaultId) (id : NoteId) : ArchiveState :=
  let archived := (s.live.history vault id).foldr (fun p d => d.write p.1 p.2) (s.archivedHistory vault id)
  { s.setArchivedHistory vault id archived with live := s.live.setHistory vault id [] }

/-- `archive_note_in`.  The row of the note stays in the index; a caller removes it. -/
def archiveNoteIn (vault : VaultId) (id : NoteId) (archivedBy : Option String) (gcDue nowMs : Int) :
    Except ArchiveError ArchiveOutcome × ArchiveState :=
  match s.live.notes ⟨vault, id⟩ with
  | none => (.error (.noteNotFound id), s)
  | some row =>
    let src := deletePath s.live vault row id
    let dest : ArchivePath := ⟨src, if (s.archived ⟨src, none⟩).isSome then some nowMs else none⟩
    match s.live.files src with
    | none => (.error (.unreadable src), s)
    | some file =>
      let moved : ArchiveState :=
        { s with
          live := s.live.deleteFile src
          archived := update s.archived dest (some file) }
      let s := moved.archiveHistoryDir vault id
      let entry : ArchiveEntry :=
        { rowId := 0
          noteId := id
          vaultId := vault
          «section» := row.section
          title := row.title
          originalLocus := row.locus.filter (· ≠ "")
          archivePath := dest
          archivedAt := nowMs
          archivedBy := archivedBy
          gcDue := gcDue
          gcAt := none
          restoredAt := none
          own := deletePath_own _ vault row id }
      match s.registry.insertArchiveEntry entry with
      -- the files have been moved already
      | none => (.error (.insertRefused id), s)
      | some registry =>
        (.ok ⟨dest, row.section, row.locus.filter (· ≠ ""), row.title⟩, { s with registry := registry })

end ArchiveState

end Gradatum.Notes
