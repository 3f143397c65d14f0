import Gradatum.Notes.Archive

/-!
# The archive collector

What a pass of `run_archive_gc` leaves behind, and when that is exactly what is left without the archives
that it marks.
-/

open Reasoning

namespace Gradatum.Notes

open List ArchiveEntry

/-! ## 1. Single calls -/

@[ext] theorem Snapshots.ext {d d' : Snapshots} (h : d.entries = d'.entries) : d = d' := by
  cases d
  cases d'
  cases h
  rfl

namespace ArchiveState

variable (s : ArchiveState) (vault : VaultId) (id : NoteId) (d : Snapshots)

@[simp] theorem setArchivedHistory_self : (s.setArchivedHistory vault id d).archivedHistory vault id = d := by
  simp [setArchivedHistory]

theorem setArchivedHistory_of_ne (h : ¬ (vault' = vault ∧ id' = id)) :
    (s.setArchivedHistory vault id d).archivedHistory vault' id' = s.archivedHistory vault' id' := by
  by_cases hvault : vault' = vault
  · have hid : id' ≠ id := fun hid => h ⟨hvault, hid⟩
    simp [setArchivedHistory, hvault, hid]
  · simp [setArchivedHistory, hvault]

@[simp] theorem setArchivedHistory_twice (d' : Snapshots) :
    (s.setArchivedHistory vault id d).setArchivedHistory vault id d' = s.setArchivedHistory vault id d' := by
  simp [setArchivedHistory]

end ArchiveState

namespace Vault

variable {v : Vault} {nowMs : Int}

def marked (nowMs : Int) (due : List ArchiveEntry) (e : ArchiveEntry) : ArchiveEntry :=
  if e.isActive = true ∧ e.key ∈ due.map key then { e with gcAt := some nowMs } else e

end Vault

/-! ## 3. Exact passes -/

variable {v : Vault} {nowMs : Int} {limit : Nat}

def archiveOfNote1 (rowId : Nat) (vault : VaultId) (gcDue : Int) : ArchiveEntry where
  rowId := rowId
  noteId := 1
  vaultId := vault
  «section» := (plainNote 1 none "text").frontmatter.section
  title := none
  originalLocus := none
  archivePath := ⟨⟨vault, none, 1⟩, none⟩
  archivedAt := 0
  archivedBy := none
  gcDue := gcDue
  gcAt := none
  restoredAt := none
  own := ⟨rfl, rfl⟩

def oneSnapshot : Snapshots := ⟨[(7, (plainNote 1 none "earlier").file)], by simp⟩

end Gradatum.Notes
