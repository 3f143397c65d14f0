import Gradatum.Notes.Collector

/-!
# A restore on its own

What `restore_archive` does when no one interferes: the note is written again at the path of its
frontmatter, and its snapshots go back to the live history.
-/

open Reasoning

namespace Gradatum.Notes

open List

/-! ## 1. The write -/

namespace Vault

variable {v : Vault}

theorem recordHistory_files (input : WriteInput) (judged : Judged) (s : VaultState) :
    (v.recordHistory input judged s).files = s.files := by
  unfold recordHistory
  split
  · rfl
  split
  · rfl
  split
  · unfold snapshot
    split <;> rfl
  · rfl

theorem recordHistory_notes (input : WriteInput) (judged : Judged) (s : VaultState) :
    (v.recordHistory input judged s).notes = s.notes := by
  unfold recordHistory
  split
  · rfl
  split
  · rfl
  split
  · unfold snapshot
    split <;> rfl
  · rfl

theorem eval_writeNoteWithIdCalls (input : WriteInput) (frontmatter : Frontmatter) (body : String)
    (id : NoteId) (s : ArchiveState) :
    (v.writeNoteWithIdCalls input frontmatter body id).eval v.archiveStep s =
      ((v.writeNoteWithId input frontmatter body id s.live).1,
        { s with live := (v.writeNoteWithId input frontmatter body id s.live).2 }) := by
  unfold writeNoteWithIdCalls writeNoteWithId writeNoteJudged
  by_cases hrefus : v.refuses input none
  · simp [hrefus]
  · simp [hrefus, archiveStep, commit, recordHistory_files, recordHistory_notes]

end Vault

/-! ## 2. The snapshots -/

theorem Snapshots.read?_eq_some_iff {d : Snapshots} :
    d.read? stamp = some file ↔ (stamp, file) ∈ d.entries :=
  lookup_eq_some_iff d.nodup

theorem Snapshots.nodup_stamps (d : Snapshots) : d.stamps.Nodup := d.nodup

/-- What moving snapshots back does: those that were listed are in the live history, and nothing is lost
from it that is not replaced. -/
structure MovedBack (vault : VaultId) (note : NoteId) (stamps : List Int) (s s' : ArchiveState) : Prop where
  files : s'.live.files = s.live.files
  notes : s'.live.notes = s.live.notes
  moved : ∀ p ∈ (s.archivedHistory vault note).entries, p.1 ∈ stamps → p ∈ s'.live.history vault note
  kept : ∀ p ∈ s.live.history vault note, p.1 ∉ stamps → p ∈ s'.live.history vault note

namespace Vault

variable {v : Vault}

theorem movedBack_moveBack (hnodup : stamps.Nodup) (s : ArchiveState) :
    MovedBack vault note stamps s ((moveBack vault note stamps).eval v.archiveStep s).2 := by
  induction stamps generalizing s with
  | nil => exact ⟨rfl, rfl, by simp, fun p hp _ => hp⟩
  | cons stamp stamps ih =>
    obtain ⟨hfirst, hnodup⟩ := nodup_cons.1 hnodup
    cases hread : (s.archivedHistory vault note).read? stamp with
    | none =>
      have heval : (moveBack vault note (stamp :: stamps)).eval v.archiveStep s =
          (moveBack vault note stamps).eval v.archiveStep s := by
        simp [moveBack, archiveStep, hread]
      rw [heval]
      obtain ⟨hfiles, hnotes, hmoved, hkept⟩ := ih hnodup s
      refine ⟨hfiles, hnotes, fun p hp hstamp => ?_, fun p hp hnot => hkept p hp ?_⟩
      · apply hmoved p hp
        rcases mem_cons.1 hstamp with hp' | hp'
        · rw [← hp', Snapshots.read?_eq_some_iff.2 hp] at hread
          cases hread
        · exact hp'
      · exact fun hmem => hnot (mem_cons_of_mem _ hmem)
    | some file =>
      -- the state after this snapshot
      let kept := (s.live.history vault note).filter fun p => p.1 ≠ stamp
      let s₁ : ArchiveState := ({ s with live := s.live.setHistory vault note ((stamp, file) :: kept) } :
        ArchiveState).setArchivedHistory vault note ((s.archivedHistory vault note).delete stamp)
      have heval : (moveBack vault note (stamp :: stamps)).eval v.archiveStep s =
          (moveBack vault note stamps).eval v.archiveStep s₁ := by
        simp [moveBack, archiveStep, hread, s₁, kept]
      have hlive : s₁.live.history vault note = (stamp, file) :: kept := s.live.setHistory_self _ _ _
      have harch : s₁.archivedHistory vault note = (s.archivedHistory vault note).delete stamp :=
        ArchiveState.setArchivedHistory_self _ _ _ _
      rw [heval]
      obtain ⟨hfiles, hnotes, hmoved, hkept⟩ := ih hnodup s₁
      refine ⟨hfiles, hnotes, fun p hp hstamp => ?_, fun p hp hnot => ?_⟩
      · by_cases hp' : p.1 = stamp
        · -- this snapshot; no later one takes its place
          have hfile : p = (stamp, file) := by
            have hagain := Snapshots.read?_eq_some_iff.2 hp
            rw [hp', hread] at hagain
            exact Prod.ext hp' (Option.some.inj hagain).symm
          apply hkept p
          · rw [hlive, hfile]
            exact mem_cons_self
          · rwa [hp']
        · apply hmoved p
          · rw [harch]
            exact mem_filter.2 ⟨hp, by simpa using hp'⟩
          · exact (mem_cons.1 hstamp).resolve_left hp'
      · rw [mem_cons, not_or] at hnot
        apply hkept p
        · rw [hlive]
          exact mem_cons_of_mem _ (mem_filter.2 ⟨hp, by simpa using hnot.1⟩)
        · exact hnot.2

theorem movedBack_restoreHistoryDir (v : Vault) (vault : VaultId) (note : NoteId) (s : ArchiveState) :
    MovedBack vault note (s.archivedHistory vault note).stamps s
      ((restoreHistoryDir vault note).eval v.archiveStep s).2 :=
  movedBack_moveBack (Snapshots.nodup_stamps _) s

end Vault

/-! ## 3. The restore -/

def livePath (v : Vault) (id : NoteId) (file : MdFile) : NotePath :=
  noteMdRelativePath ⟨id, v.fillVaultId file.frontmatter, file.body, v.contentHash file.frontmatter file.body⟩

/-- The note that was archived in `s` is live again: its file is at its path with the archived body, and
its snapshots are in its history. -/
structure Restored (v : Vault) (id : NoteId) (s : ArchiveState) (outcome : Vault.RestoreOutcome)
    (live : VaultState) : Prop where
  md : ∃ entry file written, s.registry.getActiveArchive v.vaultId id = some entry ∧
    s.archived entry.1.archivePath = some file ∧ outcome.restoredPath = livePath v id file ∧
    live.files outcome.restoredPath = some written ∧ written.body = file.body
  snapshots : ∀ p ∈ (s.archivedHistory v.vaultId id).entries, p ∈ live.history v.vaultId id

def KeepsBody (v : Vault) (input : WriteInput) (id : NoteId) (s : ArchiveState) : Prop :=
  ∀ entry file, s.registry.getActiveArchive v.vaultId id = some entry →
    s.archived entry.1.archivePath = some file → (v.privacy.maskedBody file.body input.outcome).1 = file.body

namespace Vault

variable {v : Vault}

theorem judged_quarantined_path (input : RestoreInput) (id : NoteId) (file : MdFile) (s : VaultState) :
    noteMdRelativePath
        (v.judged input.write (quarantined input.changed file.frontmatter) file.body id none s).note =
      livePath v id file := by
  have hlocus : (v.fillVaultId file.frontmatter).locus = file.frontmatter.locus := by
    unfold fillVaultId
    split <;> rfl
  rw [livePath, noteMdRelativePath, noteMdRelativePath, judged_frontmatter, fillVaultId_vaultId,
    fillVaultId_vaultId, hlocus]
  rfl

theorem restoreArchive_cases (input : RestoreInput) (id : NoteId) (s : ArchiveState) :
    (∃ e, (v.restoreArchive input id).eval v.archiveStep s = (.error e, s)) ∨
      ∃ entry file s₁ s', s.registry.getActiveArchive v.vaultId id = some entry ∧
        s.archived entry.1.archivePath = some file ∧
        let judged := v.judged input.write (quarantined input.changed file.frontmatter) file.body id none
          s.live
        (v.restoreArchive input id).eval v.archiveStep s =
          (.ok ⟨noteMdRelativePath judged.note, entry.1.section, .pendingReview⟩, s') ∧
        s₁.live = v.commit input.write judged s.live ∧ s₁.archivedHistory = s.archivedHistory ∧
        MovedBack v.vaultId id (s.archivedHistory v.vaultId id).stamps s₁ s' := by
  unfold restoreArchive
  cases hentry : s.registry.getActiveArchive v.vaultId id with
  | none => exact .inl ⟨_, by simp [archiveStep, hentry]; rfl⟩
  | some entry =>
  cases hrow : s.live.notes ⟨v.vaultId, id⟩ with
  | some row => exact .inl ⟨_, by simp [archiveStep, hentry, hrow]; rfl⟩
  | none =>
  cases hfile : s.archived entry.1.archivePath with
  | none => exact .inl ⟨_, by simp [archiveStep, hentry, hrow, hfile]; rfl⟩
  | some file =>
  simp only [Process.eval_call, archiveStep, hentry, hrow, hfile, Process.eval_bind,
    eval_writeNoteWithIdCalls]
  rcases writeNoteJudged_cases (v := v) input.write (quarantined input.changed file.frontmatter) file.body id
    none s.live with ⟨e, hwrite⟩ | hwrite
  · exact .inl ⟨.writeFailed e, by simp [writeNoteWithId, hwrite]⟩
  right
  simp only [writeNoteWithId, hwrite, Process.eval_call, Process.eval_bind, Process.eval_done, archiveStep]
  -- the write is done, the archived file is gone, and only the snapshots are left
  let s₁ : ArchiveState :=
    { live := v.commit input.write
        (v.judged input.write (quarantined input.changed file.frontmatter) file.body id none s.live) s.live
      archived := Function.update s.archived entry.1.archivePath none
      archivedHistory := s.archivedHistory
      registry := (s.registry.markArchiveRestored v.vaultId id input.restoredAt).2 }
  exact ⟨entry, file, s₁, _, rfl, hfile, rfl, rfl, rfl, v.movedBack_restoreHistoryDir v.vaultId id s₁⟩

theorem restored_restoreArchive {id : NoteId} (hbody : KeepsBody v input.write id s)
    (hok : ((v.restoreArchive input id).eval v.archiveStep s).1 = .ok outcome) :
    Restored v id s outcome ((v.restoreArchive input id).eval v.archiveStep s).2.live := by
  rcases restoreArchive_cases (v := v) input id s with
    ⟨e, heval⟩ | ⟨entry, file, s₁, s', hentry, hfile, heval, hlive, hhist, hmoved⟩
  · rw [heval] at hok
    cases hok
  rw [heval] at hok ⊢
  cases hok
  constructor
  · have hwrit := (congrFun (hmoved.files.trans (congrArg VaultState.files hlive)) _).trans
      (Function.update_self _ _ _)
    exact ⟨entry, file, _, hentry, hfile, judged_quarantined_path _ _ _ _, hwrit,
      hbody entry file hentry hfile⟩
  · intro p hp
    exact hmoved.moved p (by rw [hhist]; exact hp) (List.mem_map_of_mem hp)

end Vault

end Gradatum.Notes
