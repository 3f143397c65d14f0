import Mathlib.Logic.Equiv.List
import Gradatum.Notes.Markdown
import Gradatum.Notes.Rescan
import Gradatum.Notes.Restore
import Gradatum.Reasoning.Lines

/-!
# Reading back what was written

A row has the locus of a version with its hash, whatever happened to the note before, so a read finds the
file that the last write has written.
-/

open Reasoning

namespace Gradatum.Notes

open Function String

/-! ## 1. Content hashes -/

/-- `ContentHash::compute`: SHA-256 over the canonical JSON of the frontmatter, a line `---` and the body.
Canonical JSON is one line, and the locus can be read from it. -/
structure ContentHashing (v : Vault) where
  sha256 : String → ContentHash
  jcs : Frontmatter → String
  compute : ∀ frontmatter body, v.contentHash frontmatter body = sha256 (jcs frontmatter ++ "\n---\n" ++ body)
  collisionFree : Function.Injective sha256
  oneLine : ∀ frontmatter, '\n' ∉ (jcs frontmatter).toList
  locus : ∀ frontmatter frontmatter', jcs frontmatter = jcs frontmatter' →
    frontmatter.locus = frontmatter'.locus

theorem ContentHashing.locus_eq (hashing : ContentHashing v)
    (h : v.contentHash frontmatter body = v.contentHash frontmatter' body') :
    frontmatter.locus = frontmatter'.locus := by
  rw [hashing.compute, hashing.compute] at h
  have htext := congrArg String.toList (hashing.collisionFree h)
  simp only [toList_append, List.append_assoc] at htext
  have hjcs := append_separator_inj (hashing.oneLine frontmatter) (hashing.oneLine frontmatter') htext
  exact hashing.locus _ _ (toList_inj.1 hjcs.1)

/-! ## 2. The rows -/

def Hashed (v : Vault) (s : VaultState) : Prop :=
  ∀ key row, s.notes key = some row →
    ∃ frontmatter body, row.contentHash = v.contentHash frontmatter body ∧
      row.locus = frontmatter.locus.map (·.path)

namespace Hashed

theorem updateRow (h : Hashed v s) (key : NoteKey)
    (hf : ∀ row, (f row).contentHash = row.contentHash ∧ (f row).locus = row.locus) :
    Hashed v (s.updateRow key f) := by
  intro key' row' hrow'
  by_cases hkey : key' = key
  · rw [hkey, VaultState.updateRow_self, Option.map_eq_some_iff] at hrow'
    obtain ⟨row, hrow, rfl⟩ := hrow'
    rw [(hf row).1, (hf row).2]
    exact h key row hrow
  · rw [s.updateRow_of_ne f hkey] at hrow'
    exact h key' row' hrow'

theorem commit (h : Hashed v s) (input : WriteInput)
    (hhash : judged.note.contentHash = v.contentHash judged.note.frontmatter judged.note.body) :
    Hashed v (v.commit input judged s) := by
  intro key row hrow
  by_cases hkey : key = ⟨judged.note.frontmatter.vaultId, judged.note.id⟩
  · subst hkey
    rw [Vault.commit_notes_self, Option.some.injEq] at hrow
    cases hold : s.notes ⟨judged.note.frontmatter.vaultId, judged.note.id⟩ with
    | none =>
      rw [hold] at hrow
      subst hrow
      exact ⟨_, _, hhash, rfl⟩
    | some old =>
      rw [hold] at hrow
      subst hrow
      by_cases hsame : old.contentHash = judged.note.contentHash
      · obtain ⟨frontmatter, body, hold', hlocus⟩ := h _ old hold
        refine ⟨frontmatter, body, hsame.symm.trans hold', ?_⟩
        rw [← hlocus]
        exact if_neg (not_not.2 hsame)
      · exact ⟨_, _, hhash, NoteRow.onConflict_locus hsame⟩
  · exact h key row ((Function.update_of_ne hkey _ _).symm.trans hrow)

end Hashed

theorem Vault.contentHash_commit {v : Vault} {judged : Judged}
    (hrow : (v.commit input judged s).notes ⟨judged.note.frontmatter.vaultId, judged.note.id⟩ = some row) :
    row.contentHash = judged.note.contentHash := by
  rw [commit_notes_self, Option.some.injEq] at hrow
  subst hrow
  split <;> rfl

/-! ## 3. Runs -/

inductive NoteEvent where
  | writeNoteWithId (input : WriteInput) (frontmatter : Frontmatter) (body : String) (id : NoteId)
  | moveLocus (input : WriteInput) (newLocus : LocusId) (id : NoteId)
  | addTags (checked : VaultId) (input : WriteInput) (tags : List Tag) (id : NoteId)
  | updateStatus (changed : Instant) (input : WriteInput) (target : NoteStatus) (reason : Option String)
      (id : NoteId)
  | deleteNoteIn (strict : Bool) (vault : VaultId) (id : NoteId)
  | archiveNoteIn (vault : VaultId) (id : NoteId) (archivedBy : Option String) (gcDue nowMs : Int)
  | restoreArchive (input : Vault.RestoreInput) (id : NoteId)

def Vault.noteStep (v : Vault) (s : ArchiveState) : NoteEvent → ArchiveState
  | .writeNoteWithId input frontmatter body id =>
    { s with live := (v.writeNoteWithId input frontmatter body id s.live).2 }
  | .moveLocus input newLocus id => { s with live := (v.moveLocus input newLocus id s.live).2 }
  | .addTags checked input tags id => { s with live := (v.addTags checked input tags id s.live).2 }
  | .updateStatus changed input target reason id =>
    { s with live := (v.updateStatus changed input target reason id s.live).2 }
  | .deleteNoteIn strict vault id => { s with live := (s.live.deleteNoteIn strict vault id).2 }
  | .archiveNoteIn vault id archivedBy gcDue nowMs => (s.archiveNoteIn vault id archivedBy gcDue nowMs).2
  | .restoreArchive input id => ((v.restoreArchive input id).eval v.archiveStep s).2

def ArchiveState.empty : ArchiveState where
  live := ⟨fun _ => none, fun _ _ => [], fun _ => none⟩
  archived _ := none
  archivedHistory _ _ := .empty
  registry := ⟨.empty, List.nodup_nil⟩

/-- What a write keeps, and the loss of files and the copying of columns of the status, is kept by every
operation. -/
structure Kept (v : Vault) (P : VaultState → Prop) : Prop where
  commit : ∀ s input frontmatter body id reuse, P s →
    P (v.commit input (v.judged input frontmatter body id reuse s) s)
  row : ∀ s key (row : NoteRow), P s → P (s.updateRow key row.restoreStatusFields)
  less : ∀ s s', P s → s'.notes = s.notes → (∀ path file, s'.files path = some file → s.files path = some file) →
    P s'

namespace Kept

variable {v : Vault} {P : VaultState → Prop} (hP : Kept v P)

include hP

theorem deleteFile (h : P s) (path : NotePath) (heq : s'.files = update s.files path none)
    (hnotes : s'.notes = s.notes) : P s' := by
  refine hP.less s s' h hnotes fun path' file hfile => ?_
  rw [heq, update_apply] at hfile
  split at hfile
  · cases hfile
  · exact hfile

theorem writeNoteJudged (h : P s) (input : WriteInput) (frontmatter : Frontmatter) (body : String)
    (id : NoteId) (reuse : Option PassOutcome) : P (v.writeNoteJudged input frontmatter body id reuse s).2 := by
  rcases Vault.writeNoteJudged_cases (v := v) input frontmatter body id reuse s with ⟨e, hreply⟩ | hreply
  · rw [hreply]
    exact h
  · rw [hreply]
    exact hP.commit s input _ _ _ _ h

theorem noteStep (h : P s.live) (e : NoteEvent) : P (v.noteStep s e).live := by
  cases e with
  | writeNoteWithId input frontmatter body id => exact hP.writeNoteJudged h _ _ _ _ _
  | moveLocus input newLocus id =>
    rw [Vault.noteStep]
    rcases moveLocus_cases (v := v) input newLocus id s.live with hsame | ⟨note, row, -, -, hmoved⟩
    · rw [hsame]
      exact h
    have hwrit := hP.row _ ⟨v.vaultId, id⟩ row (hP.commit _ input
      { note.frontmatter with locus := some newLocus } note.body id none h)
    rcases hmoved with hmoved | ⟨path, -, -, hmoved⟩
    · rw [hmoved]
      exact hwrit
    · rw [hmoved]
      exact hP.deleteFile hwrit path rfl rfl
  | addTags checked input tags id =>
    rw [Vault.noteStep]
    rcases addTags_cases (v := v) checked input tags id s.live with hsame | ⟨note, -, -, hwrit⟩
    · rw [hsame]
      exact h
    · rw [hwrit]
      exact hP.commit _ input _ _ _ _ h
  | updateStatus changed input target reason id =>
    rw [Vault.noteStep, Vault.updateStatus]
    split
    · exact h
    split
    · exact h
    split
    · exact h
    · rw [ofWrite_snd]
      exact hP.writeNoteJudged h _ _ _ _ _
  | deleteNoteIn strict vault id =>
    rw [Vault.noteStep, VaultState.deleteNoteIn]
    split
    · exact h
    dsimp only
    split
    · exact h
    · exact hP.deleteFile h _ rfl rfl
  | archiveNoteIn vault id archivedBy gcDue nowMs =>
    rw [Vault.noteStep, ArchiveState.archiveNoteIn]
    split
    · exact h
    dsimp only
    split
    · exact h
    split
    · exact hP.deleteFile h _ rfl rfl
    · exact hP.deleteFile h _ rfl rfl
  | restoreArchive input id =>
    rw [Vault.noteStep]
    rcases Vault.restoreArchive_cases (v := v) input id s with
      ⟨e, heval⟩ | ⟨entry, file, s₁, s', -, -, heval, hlive, -, hmoved⟩
    · rw [heval]
      exact h
    rw [heval]
    refine hP.less _ _ (hP.commit _ input.write _ _ _ _ h) (hlive ▸ hmoved.notes) fun path file hfile => ?_
    rwa [hmoved.files, hlive] at hfile

theorem run (h : P ArchiveState.empty.live) (events : List NoteEvent) :
    P (Reasoning.run v.noteStep .empty events).live := by
  induction events using List.reverseRecOn with
  | nil => exact h
  | append_singleton events e ih =>
    rw [run_append]
    exact hP.noteStep ih e

end Kept

theorem hashed_run (v : Vault) (events : List NoteEvent) : Hashed v (run v.noteStep .empty events).live := by
  have hkept : Kept v (Hashed v) :=
    ⟨fun _ input _ _ _ _ h => h.commit input rfl, fun _ key _ h => h.updateRow key fun _ => ⟨rfl, rfl⟩,
      fun _ _ h hnotes _ key row hrow => h key row (hnotes ▸ hrow)⟩
  exact hkept.run (fun _ _ hrow => nomatch hrow) events

theorem fillVaultId_of_readNoteIn {v : Vault} {id : NoteId} (events : List NoteEvent)
    (hnote : v.readNoteIn (run v.noteStep .empty events).live vault id = some note) :
    (v.fillVaultId note.frontmatter).vaultId = vault := by
  have hkept : Kept v fun s => ∀ path file, s.files path = some file →
      (v.fillVaultId file.frontmatter).vaultId = path.vault := by
    refine ⟨fun s input frontmatter body id reuse h path file hfile => ?_, fun _ _ _ h => h,
      fun _ _ h _ hfiles path file hfile => h path file (hfiles path file hfile)⟩
    simp only [Vault.commit, update_apply] at hfile
    split at hfile
    · rename_i hpath
      cases hfile
      rw [hpath]
      exact Vault.fillVaultId_again frontmatter rfl
    · exact h path file hfile
  obtain ⟨row, -, hread⟩ := Option.bind_eq_some_iff.1 hnote
  obtain ⟨file, hfound, rfl⟩ := Option.map_eq_some_iff.1 hread
  obtain ⟨path, hpath, hfile⟩ := List.exists_of_findSome?_eq_some hfound
  obtain ⟨dir, -, rfl⟩ := List.mem_map.1 hpath
  exact hkept.run (fun _ _ hfile => by cases hfile) events _ file hfile

theorem Hashed.readNoteIn_writeNoteJudged (h : Hashed v s) (hashing : ContentHashing v) {id : NoteId}
    (hok : v.writeNoteJudged input frontmatter body id reuse s = (.ok note, s')) :
    v.readNoteIn s' note.frontmatter.vaultId id = some note := by
  rcases Vault.writeNoteJudged_cases (v := v) input frontmatter body id reuse s with ⟨e, hreply⟩ | hreply
  · rw [hreply] at hok
    cases hok
  rw [hreply] at hok
  cases hok
  refine Vault.readNoteIn_commit_of_locus input (v.judged input frontmatter body id reuse s) rfl ?_
  intro row hrow
  obtain ⟨frontmatter', body', hhash, hlocus⟩ := h.commit input rfl _ row hrow
  have hsame : row.contentHash = v.contentHash _ _ := Vault.contentHash_commit hrow
  rw [hlocus, hashing.locus_eq (hhash.symm.trans hsame)]
  rfl

/-! ## 4. Files as texts -/

inductive ReadError where
  | noteNotFound (id : NoteId)
  | markdown (e : MarkdownError)

namespace YamlBackend

variable (yaml : YamlBackend) (v : Vault)

def storage (s : VaultState) (path : NotePath) : Option String := (s.files path).map yaml.writeParsed

def readNoteFromRecord (s : VaultState) (vaultId : VaultId) (record : NoteRow) (id : NoteId) :
    Except ReadError Note :=
  match (consultedPaths vaultId record id).findSome? (yaml.storage s) with
  | none => .error (.noteNotFound id)
  | some raw =>
    match yaml.parse raw with
    | .error e => .error (.markdown e)
    | .ok file => .ok ⟨id, file.frontmatter, file.body, v.contentHash file.frontmatter file.body⟩

def readNoteIn (s : VaultState) (vaultId : VaultId) (id : NoteId) : Except ReadError Note :=
  match s.notes ⟨vaultId, id⟩ with
  | none => .error (.noteNotFound id)
  | some record => yaml.readNoteFromRecord v s vaultId record id

variable {yaml v} {id : NoteId}

theorem readNoteIn_eq_ok (h : v.readNoteIn s vaultId id = some note)
    (hyaml : yaml.Faithful note.frontmatter) : yaml.readNoteIn v s vaultId id = .ok note := by
  obtain ⟨record, hrec, hread⟩ := Option.bind_eq_some_iff.1 h
  obtain ⟨file, hfile, rfl⟩ := Option.map_eq_some_iff.1 hread
  have hraw : (consultedPaths vaultId record id).findSome? (yaml.storage s) =
      some (yaml.writeParsed file) := by
    show (consultedPaths vaultId record id).findSome? (Option.map yaml.writeParsed ∘ s.files) = _
    rw [← List.map_findSome?, hfile]
    rfl
  rw [readNoteIn, hrec]
  simp only [readNoteFromRecord, hraw, parse_writeParsed hyaml]

end YamlBackend

theorem readNoteIn_of_writeNoteJudged_ok (v : Vault) (hashing : ContentHashing v) (yaml : YamlBackend)
    (events : List NoteEvent) (input : WriteInput) (frontmatter : Frontmatter) (body : String) (id : NoteId)
    (reuse : Option PassOutcome) (note : Note) (s' : VaultState)
    (hok : v.writeNoteJudged input frontmatter body id reuse (run v.noteStep .empty events).live =
      (.ok note, s')) (hyaml : yaml.Faithful note.frontmatter) :
    yaml.readNoteIn v s' note.frontmatter.vaultId id = .ok note :=
  YamlBackend.readNoteIn_eq_ok ((hashed_run v events).readNoteIn_writeNoteJudged hashing hok) hyaml

/-! A vault for a concrete run: its hashes are codes of the texts. -/

def digest (text : String) : ContentHash := Encodable.encode (text.toList.map Char.toNat)

def locusCode (frontmatter : Frontmatter) : String :=
  String.ofList (Nat.toDigits 10
    (Encodable.encode (frontmatter.locus.map fun l => l.path.toList.map Char.toNat)))

theorem toNat_toList_injective : Function.Injective fun text : String => text.toList.map Char.toNat :=
  fun _ _ h => toList_inj.1 (List.map_injective_iff.2 (fun _ _ => Char.toNat_inj.1) h)

def codedVault : Vault :=
  { plainServer.vault with
    contentHash := fun frontmatter body => digest (locusCode frontmatter ++ "\n---\n" ++ body) }

def codedHashing : ContentHashing codedVault where
  sha256 := digest
  jcs := locusCode
  compute _ _ := rfl
  collisionFree _ _ h := toNat_toList_injective (Encodable.encode_injective h)
  oneLine frontmatter := by
    rw [locusCode, String.toList_ofList]
    exact not_mem_toDigits rfl _
  locus frontmatter frontmatter' h := by
    have hcode := Encodable.encode_injective (toDigits_injective (String.ofList_injective h))
    refine Option.map_injective (fun l l' hl => ?_) hcode
    have hpath := toNat_toList_injective hl
    cases l
    cases l'
    cases hpath
    rfl

def locusLine (locus : Option LocusId) : String := "locus: " ++ (locus.map LocusId.path).getD ""

def readLocus (line : String) : Option (Option LocusId) :=
  if "locus: ".toList.isPrefixOf line.toList then
    let path := String.ofList (line.toList.drop 7)
    some (if h : path ≠ "" then some ⟨path, h⟩ else none)
  else none

theorem readLocus_locusLine (locus : Option LocusId) : readLocus (locusLine locus) = some locus := by
  cases locus with
  | none => rfl
  | some l =>
    have hpath : (locusLine (some l)).toList.drop 7 = l.path.toList := by simp [locusLine]
    rw [readLocus, hpath, ofList_toList, if_pos (by simp [locusLine])]
    exact congrArg some (dif_pos l.nonempty)

/-- A backend that prints the locus alone, and reads a text into a frontmatter with the other fields as
given. -/
def locusYaml (others : Frontmatter) : YamlBackend where
  toStr frontmatter := locusLine frontmatter.locus ++ "\n"
  fromStr text := (readLocus text).map fun locus => { others with locus }

theorem faithful_locusYaml (hline : '\n' ∉ (locusLine frontmatter.locus).toList) :
    (locusYaml frontmatter).Faithful frontmatter := by
  constructor
  · refine ⟨_, toList_append, ?_⟩
    rw [ofList_toList]
    exact congrArg (Option.map _) (readLocus_locusLine _)
  · intro before after hbefore h
    have hcount := congrArg (List.count '\n') h
    rcases hbefore with rfl | ⟨before, rfl⟩
    · simp [locusYaml, locusLine, openMarker] at h
    · simp [locusYaml, openMarker, List.count_eq_zero.2 hline] at hcount
      omega

/-- Note `1` was written under a locus, and its file was deleted; then it is written without a locus. -/
theorem readNoteIn_rewritten :
    let before := (run codedVault.noteStep .empty
      [.writeNoteWithId (.at 1) (plainNote 1 (some ⟨"a", by decide⟩) "").frontmatter "old" 1,
        .deleteNoteIn false "main" 1]).live
    let written := codedVault.judged (.at 2) (plainNote 1 none "").frontmatter "new" 1 none before
    (before.notes ⟨"main", 1⟩).map NoteRow.locus = some (some "a") ∧
    (locusYaml written.note.frontmatter).readNoteIn codedVault (codedVault.commit (.at 2) written before)
      "main" 1 = .ok written.note := by
  intro before written
  have hyaml : (locusYaml written.note.frontmatter).Faithful written.note.frontmatter := by
    apply faithful_locusYaml
    decide
  exact ⟨rfl, readNoteIn_of_writeNoteJudged_ok codedVault codedHashing (locusYaml written.note.frontmatter) _
    (.at 2) (plainNote 1 none "").frontmatter "new" 1 none written.note _ rfl hyaml⟩

/-! ## 5. A sweep after a pass -/

/-- A write of the note for which a pass was run. -/
def JustJudged (v : Vault) (scan : String → PassOutcome) (vault : VaultId) (id : NoteId) (s s' : VaultState) :
    Prop :=
  ∃ input frontmatter body reuse outcome note, (v.fillVaultId frontmatter).vaultId = vault ∧
    v.runPrivacyPass scan vault frontmatter.section body = some outcome ∧
    reuse.or input.outcome = some outcome ∧
    v.writeNoteJudged input frontmatter body id reuse s = (.ok note, s')

variable {v : Vault} {scan : String → PassOutcome} {vault : VaultId} {id : NoteId} {s s' : VaultState}

theorem justJudged_of_rewritten (events : List NoteEvent)
    (h : v.rescanPrivacyIn scan input vault id (run v.noteStep .empty events).live = (.ok .rewritten, s')) :
    JustJudged v scan vault id (run v.noteStep .empty events).live s' := by
  unfold Vault.rescanPrivacyIn at h
  split at h
  · cases h
  rename_i note hnote
  have hvault := fillVaultId_of_readNoteIn events hnote
  rw [hvault] at h
  split at h
  · cases h
  rename_i outcome hpass
  dsimp only at h
  split at h
  · cases h
  split at h
  · cases h
  rename_i written s₁ hwrite
  cases h
  exact ⟨input, note.frontmatter, note.body, some outcome, outcome, written, hvault, hpass, rfl, hwrite⟩

/-- The note that is read afterwards has the body that the pass was run over, and the block of the pass. -/
theorem JustJudged.read (h : JustJudged v scan vault id s s') (hs : Hashed v s) (hashing : ContentHashing v)
    (hrep : v.privacy.policy.masks = false) :
    ∃ identity outcome note scannedAt before, v.privacy.identity = some identity ∧
      v.readNoteIn s' vault id = some note ∧
      v.runPrivacyPass scan (v.fillVaultId note.frontmatter).vaultId note.frontmatter.section note.body =
        some outcome ∧
      note.frontmatter.extra blockKey = some (v.privacy.passBlock identity outcome scannedAt before) := by
  obtain ⟨input, frontmatter, body, reuse, outcome, note, hvault, hpass, hout, hwrite⟩ := h
  have hread := hs.readNoteIn_writeNoteJudged hashing hwrite
  rcases Vault.writeNoteJudged_cases (v := v) input frontmatter body id reuse s with ⟨e, hreply⟩ | hreply
  · cases hreply.symm.trans hwrite
  cases hreply.symm.trans hwrite
  rw [Vault.judged_vaultId, hvault] at hread
  cases hidentity : v.privacy.identity with
  | none => simp [Vault.runPrivacyPass, hidentity] at hpass
  | some identity =>
    have hfm := Vault.judged_frontmatter (v := v) input frontmatter body id reuse s
    have hbody : (v.judged input frontmatter body id reuse s).note.body = body := by
      show (v.privacy.maskedBody body (reuse.or input.outcome)).1 = body
      simp [hout, PrivacySettings.maskedBody, hrep]
    obtain ⟨before, hblock⟩ : ∃ before, (v.privacy.decidePrivacy input.scannedAt frontmatter
        (v.readNoteIn s (v.fillVaultId frontmatter).vaultId id) (some outcome)).extra blockKey =
          some (v.privacy.passBlock identity outcome input.scannedAt before) :=
      ⟨_, PrivacySettings.block_of_pass hidentity⟩
    refine ⟨identity, outcome, _, input.scannedAt, before, rfl, hread, ?_, ?_⟩
    · rw [hbody, Vault.fillVaultId_again frontmatter (Vault.judged_vaultId ..), hvault, hfm]
      exact hpass
    · rw [hfm, hout]
      exact hblock

/-- Under a policy that reports only, a sweep directly after a pass finds the block of the pass. -/
theorem rescanPrivacyIn_again (v : Vault) (hashing : ContentHashing v) (hreports : v.privacy.policy.masks = false)
    (scan : String → PassOutcome) (events : List NoteEvent) (vault : VaultId) (id : NoteId) (s' : VaultState)
    (hjudged : JustJudged v scan vault id (run v.noteStep .empty events).live s' ∨
      ∃ input, v.rescanPrivacyIn scan input vault id (run v.noteStep .empty events).live = (.ok .rewritten, s'))
    (again : WriteInput) : v.rescanPrivacyIn scan again vault id s' = (.ok .unchanged, s') := by
  have hjust : JustJudged v scan vault id (run v.noteStep .empty events).live s' := by
    rcases hjudged with hjudged | ⟨input, hrescan⟩
    · exact hjudged
    · exact justJudged_of_rewritten events hrescan
  obtain ⟨identity, outcome, note, scannedAt, before, hidentity, hread, hpass, hblock⟩ :=
    hjust.read (hashed_run v events) hashing hreports
  have hsame : sameBlocks (note.frontmatter.extra blockKey)
      ((v.privacy.decidePrivacy again.scannedAt note.frontmatter (some note) (some outcome)).extra blockKey) =
        true := by
    rw [PrivacySettings.block_of_rescan hidentity, hblock]
    exact PrivacySettings.passBlock_again scannedAt again.scannedAt before
  simp only [Vault.rescanPrivacyIn, hread, hpass, hsame, if_true]

def reportingVault : Vault :=
  { codedVault with
    privacy := { maskingSettings with policy := { maskingSettings.policy with masks := false } } }

theorem rescanPrivacyIn_reported :
    let written := reportingVault.writeNoteJudged (.withPass (addressScan "a@b.c"))
      (plainNote 1 none "").frontmatter "a@b.c" 1 none ArchiveState.empty.live
    reportingVault.rescanPrivacyIn addressScan (.at 2) "main" 1 written.2 = (.ok .unchanged, written.2) :=
  rescanPrivacyIn_again reportingVault
    ⟨digest, locusCode, fun _ _ => rfl, codedHashing.collisionFree, codedHashing.oneLine, codedHashing.locus⟩
    rfl addressScan [] "main" 1 _ (.inl ⟨_, _, _, none, _, _, rfl, rfl, rfl, rfl⟩) (.at 2)

end Gradatum.Notes
