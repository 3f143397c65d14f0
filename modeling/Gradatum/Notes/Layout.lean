import Gradatum.Notes.Mutation

/-!
# Where files lie

The path of a file is made of its own frontmatter, so a file lies in the vault that it names, and so does a
snapshot.  A call that reads a note and writes it again therefore changes that note alone.
-/

namespace Gradatum.Notes

open Function List

/-! ## 1. The layout -/

structure Filed (s : VaultState) : Prop where
  files : ∀ path file, s.files path = some file → file.frontmatter.vaultId = path.vault
  history : ∀ vault id, ∀ snapshot ∈ s.history vault id, snapshot.2.frontmatter.vaultId = vault

theorem Filed.updateRow (h : Filed s) (key : NoteKey) (f : NoteRow → NoteRow) :
    Filed (s.updateRow key f) := ⟨h.files, h.history⟩

theorem Filed.deleteFile (h : Filed s) (path : NotePath) : Filed (s.deleteFile path) where
  files := by
    intro path' file hfile
    by_cases hpath : path' = path
    · simp only [VaultState.deleteFile, hpath, update_self] at hfile
      cases hfile
    · exact h.files path' file ((update_of_ne hpath _ _).symm.trans hfile)
  history := h.history

theorem Filed.setHistory (h : Filed s) {id : NoteId}
    (hnew : ∀ snapshot ∈ snapshots, snapshot.2.frontmatter.vaultId = vault) :
    Filed (s.setHistory vault id snapshots) where
  files := h.files
  history := by
    intro vault' id' snapshot hmem
    simp only [VaultState.setHistory, update_apply] at hmem
    split at hmem
    · rename_i hvault
      rw [hvault]
      rw [update_apply] at hmem
      split at hmem
      · exact hnew snapshot hmem
      · exact h.history vault id' snapshot hmem
    · exact h.history vault' id' snapshot hmem

theorem Filed.deleteSnapshots (h : Filed s) (vault : VaultId) (id : NoteId) (stamps : List Int) :
    Filed (s.deleteSnapshots vault id stamps) :=
  h.setHistory fun snapshot hmem => h.history vault id snapshot (mem_filter.1 hmem).1

namespace Vault

variable {v : Vault} {id : NoteId}

theorem Filed.snapshot (h : Filed s) (prev : Note) (nowMs : Nat) : Filed (v.snapshot id prev nowMs s) := by
  unfold Vault.snapshot
  split
  · exact h
  rename_i file hfile
  apply Filed.deleteSnapshots
  apply Filed.deleteSnapshots
  apply h.setHistory
  intro snapshot hmem
  rcases mem_cons.1 hmem with rfl | hold
  · exact h.files _ file hfile
  · exact h.history _ _ snapshot (mem_filter.1 hold).1

theorem filed_commit (h : Filed s) (judged : Judged) : Filed (v.commit input judged s) := by
  have hhist : Filed (v.recordHistory input judged s) := by
    unfold recordHistory
    split
    · exact h
    split
    · exact h.setHistory fun snapshot hmem => by cases hmem
    split
    · exact Filed.snapshot h _ _
    · exact h
  refine ⟨fun path file hfile => ?_, hhist.history⟩
  by_cases hpath : path = noteMdRelativePath judged.note
  · rw [hpath] at hfile ⊢
    cases (update_self _ _ s.files).symm.trans hfile
    rfl
  · exact h.files path file ((update_of_ne hpath _ _).symm.trans hfile)

theorem readNoteIn_vaultId (h : Filed s) (hnote : v.readNoteIn s vault id = some note) :
    note.frontmatter.vaultId = vault := by
  rw [readNoteIn, Option.bind_eq_some_iff] at hnote
  obtain ⟨row, -, hread⟩ := hnote
  rw [readNoteFromRecord, Option.map_eq_some_iff] at hread
  obtain ⟨file, hfound, rfl⟩ := hread
  obtain ⟨path, hpath, hfile⟩ := exists_of_findSome?_eq_some hfound
  rw [h.files path file hfile]
  obtain ⟨dir, -, rfl⟩ := mem_map.1 hpath
  rfl

theorem historyGet_vaultId (h : Filed s) (hnote : v.historyGet s id stamp = some note) :
    note.frontmatter.vaultId = v.vaultId := by
  rw [historyGet, Option.map_eq_some_iff] at hnote
  obtain ⟨file, hfile, rfl⟩ := hnote
  obtain ⟨before, after, hsplit, -⟩ := lookup_eq_some_iff.1 hfile
  apply h.history v.vaultId id (stamp, file)
  rw [hsplit]
  simp

end Vault

/-! ## 2. Calls that change one note -/

def OnlyAt (key : NoteKey) (s s' : VaultState) : Prop :=
  ∀ vault id, (⟨vault, id⟩ : NoteKey) ≠ key → SameNote vault id s s'

namespace OnlyAt

theorem refl (key : NoteKey) (s : VaultState) : OnlyAt key s s := fun vault id _ => .refl vault id s

theorem trans (h₁ : OnlyAt key s s₁) (h₂ : OnlyAt key s₁ s₂) : OnlyAt key s s₂ :=
  fun vault id hne => (h₁ vault id hne).trans (h₂ vault id hne)

theorem updateRow (s : VaultState) (key : NoteKey) (f : NoteRow → NoteRow) :
    OnlyAt key s (s.updateRow key f) :=
  fun _ _ hne => ⟨s.updateRow_of_ne f hne, fun _ => rfl⟩

theorem deleteFile (s : VaultState) (path : NotePath) :
    OnlyAt ⟨path.vault, path.id⟩ s (s.deleteFile path) := by
  intro vault id hne
  refine ⟨rfl, fun dir => update_of_ne ?_ _ _⟩
  rintro rfl
  exact hne rfl

theorem commit {v : Vault} (s : VaultState) (input : WriteInput) (judged : Judged) :
    OnlyAt ⟨judged.note.frontmatter.vaultId, judged.note.id⟩ s (v.commit input judged s) := by
  intro vault id hne
  apply Vault.sameNote_commit
  by_contra hboth
  rw [not_or, not_not, not_not] at hboth
  exact hne (by rw [hboth.1, hboth.2])

end OnlyAt

/-- A step that keeps the layout and changes the note at `key` alone. -/
structure Confined (key : NoteKey) (s s' : VaultState) : Prop where
  filed : Filed s'
  only : OnlyAt key s s'

namespace Confined

theorem of_eq (key : NoteKey) (h : Filed s) (heq : s₁ = s) : Confined key s s₁ := by
  rw [heq]
  exact ⟨h, .refl key s⟩

theorem trans (h₁ : Confined key s s₁) (h₂ : Confined key s₁ s₂) : Confined key s s₂ :=
  ⟨h₂.filed, h₁.only.trans h₂.only⟩

theorem updateRow (h : Filed s) (key : NoteKey) (f : NoteRow → NoteRow) :
    Confined key s (s.updateRow key f) := ⟨h.updateRow key f, .updateRow s key f⟩

end Confined

namespace Vault

variable {v : Vault}

theorem confined_commit (h : Filed s) (input : WriteInput) (frontmatter : Frontmatter)
    (hvault : frontmatter.vaultId = v.vaultId) (body : String) (id : NoteId) (reuse : Option PassOutcome) :
    Confined ⟨v.vaultId, id⟩ s (v.commit input (v.judged input frontmatter body id reuse s) s) := by
  have hkey : (v.judged input frontmatter body id reuse s).note.frontmatter.vaultId = v.vaultId := by
    rw [judged_vaultId, fillVaultId_vaultId, hvault, ite_self]
  have honly := OnlyAt.commit (v := v) s input (v.judged input frontmatter body id reuse s)
  rw [hkey, judged_id] at honly
  exact ⟨filed_commit h _, honly⟩

theorem confined_updateNoteStatus (h : Filed s) (checked : VaultId) (changed : Instant) (input : WriteInput)
    (target : NoteStatus) (reason : Option String) (id : NoteId) :
    Confined ⟨checked, id⟩ s (v.updateNoteStatus checked changed input target reason id s).2 := by
  rcases updateNoteStatus_cases (v := v) checked changed input target reason id s with
    hsame | ⟨note, hnote, hchk, hnew⟩
  · exact .of_eq _ h hsame
  rw [hnew, hchk]
  apply confined_commit h
  exact readNoteIn_vaultId h hnote

theorem confined_addTags (h : Filed s) (checked : VaultId) (input : WriteInput) (tags : List Tag)
    (id : NoteId) : Confined ⟨checked, id⟩ s (v.addTags checked input tags id s).2 := by
  rcases addTags_cases (v := v) checked input tags id s with hsame | ⟨note, hnote, hchk, hnew⟩
  · exact .of_eq _ h hsame
  rw [hnew, hchk]
  apply confined_commit h
  exact readNoteIn_vaultId h hnote

theorem confined_historyRestore (h : Filed s) (checked : VaultId) (input : WriteInput) (id : NoteId)
    (stamp : Int) : Confined ⟨checked, id⟩ s (v.historyRestore checked input id stamp s).2 := by
  rcases historyRestore_cases (v := v) checked input id stamp s with hsame | ⟨snapshot, hfound, hchk, hnew⟩
  · exact .of_eq _ h hsame
  · rw [hnew, hchk]
    exact confined_commit h input _ (historyGet_vaultId h hfound) _ _ _

theorem confined_moveLocus (h : Filed s) (input : WriteInput) (newLocus : LocusId) (id : NoteId) :
    Confined ⟨v.vaultId, id⟩ s (v.moveLocus input newLocus id s).2 := by
  rcases moveLocus_cases (v := v) input newLocus id s with hsame | ⟨note, row, hnote, -, hmoved⟩
  · exact .of_eq _ h hsame
  have hwrite := confined_commit h input { note.frontmatter with locus := some newLocus }
    (readNoteIn_vaultId h hnote) note.body id none
  have hrow := hwrite.trans (.updateRow hwrite.filed ⟨v.vaultId, id⟩ row.restoreStatusFields)
  rcases hmoved with heq | ⟨path, hpath, -, heq⟩
  · rw [heq]
    exact hrow
  rw [heq]
  obtain ⟨dir, -, rfl⟩ := mem_map.1 hpath
  exact hrow.trans ⟨hrow.filed.deleteFile _, .deleteFile _ ⟨v.vaultId, dir, id⟩⟩

end Vault

end Gradatum.Notes
