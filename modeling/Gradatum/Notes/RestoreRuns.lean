import Gradatum.Notes.Restore

/-!
# A restore beside the collector

A restore that is answered Ok has brought back the body and all snapshots, as long as the passes of the
collector keep away from the archives of its note while it runs.
-/

open Reasoning

namespace Gradatum.Notes

open List Option Function

/-! ## 1. The pool -/

/-- Our notes on a thread: a restore has made its first call; a pass has these archives before it. -/
structure ArchiveMemo where
  begun : Bool
  pending : List ArchiveEntry

def ArchiveMemo.idle : ArchiveMemo := ⟨false, []⟩

def remember : (op : ArchiveOp) → op.Answer → ArchiveMemo → ArchiveMemo
  | .getActiveArchive _ _, _, memo => { memo with begun := true }
  | .selectGcDueArchives _ _, due, memo => { memo with pending := due }
  | .markArchiveGc _ _ _, _, memo => { memo with pending := memo.pending.tail }
  | _, _, memo => memo

abbrev ArchiveResult := Except Vault.RestoreError Vault.RestoreOutcome ⊕ Nat

abbrev ArchiveThread := Thread ArchiveOp ArchiveOp.Answer ArchiveMemo ArchiveResult

abbrev ArchivePool := Pool ArchiveOp ArchiveOp.Answer ArchiveState ArchiveMemo ArchiveResult

namespace Vault

variable (v : Vault)

def archiveExec : Exec ArchiveOp ArchiveOp.Answer ArchiveState ArchiveMemo Unit := fun _ op s memo =>
  ((v.archiveStep op s).1, (v.archiveStep op s).2, remember op (v.archiveStep op s).1 memo)

def restoring (input : RestoreInput) (id : NoteId) : ArchiveProcess ArchiveResult := do
  let result ← v.restoreArchive input id
  .done (.inl result)

def collecting (nowMs : Int) (limit : Nat) : ArchiveProcess ArchiveResult := do
  let destroyed ← v.runArchiveGc nowMs limit
  .done (.inr destroyed)

/-- A restore, thread 0, and passes with their clock readings and limits; none has made a call. -/
def archivePool (input : RestoreInput) (id : NoteId) (passes : List (Int × Nat)) (s : ArchiveState) :
    ArchivePool where
  shared := s
  threads := ⟨.idle, v.restoring input id⟩ :: passes.map fun pass => ⟨.idle, v.collecting pass.1 pass.2⟩

def archiveAdvance (p : ArchivePool) (i : Nat) : ArchivePool := p.advance v.archiveExec i ()

end Vault

namespace ArchivePool

variable (p : ArchivePool)

def restoreResult? : Option ArchiveResult := (p.threads[0]?).bind fun t => t.rest.result?

def restoreBegun : Bool := (p.threads[0]?).any fun t => t.memo.begun

/-- A pass has an archive of the note before it, of whichever vault. -/
def Holds (id : NoteId) : Prop :=
  ∃ j, j ≠ 0 ∧ ∃ t, p.threads[j]? = some t ∧ ∃ e ∈ t.memo.pending, e.noteId = id

def takesUp (i : Nat) : List ArchiveEntry :=
  match p.threads[i]? with
  | some ⟨_, .call (.selectGcDueArchives nowMs limit) _⟩ => p.shared.registry.selectGcDueArchives nowMs limit
  | _ => []

end ArchivePool

/-- The condition on a step.  A restore begins when no pass has an archive of its note before it.  A pass
takes one up only after the restore, or before the restore and only if it is that of the vault. -/
structure Apart (v : Vault) (id : NoteId) (p : ArchivePool) (i : Nat) : Prop where
  begins : i = 0 → p.restoreBegun = false → ¬ p.Holds id
  takesUp : ∀ e ∈ p.takesUp i, e.noteId = id →
    p.restoreResult?.isSome ∨ (p.restoreBegun = false ∧ e.vaultId = v.vaultId)

theorem ArchivePool.holds_iff {p : ArchivePool} {id : NoteId} :
    (∃ t ∈ p.threads.tail, ∃ e ∈ t.memo.pending, e.noteId = id) ↔ p.Holds id := by
  constructor
  · rintro ⟨t, ht, e, he, hid⟩
    obtain ⟨j, hj⟩ := mem_iff_getElem?.1 ht
    rw [getElem?_tail] at hj
    exact ⟨j + 1, Nat.succ_ne_zero j, t, hj, e, he, hid⟩
  · rintro ⟨j, hj, t, ht, e, he, hid⟩
    obtain ⟨j, rfl⟩ := Nat.exists_eq_succ_of_ne_zero hj
    rw [← getElem?_tail] at ht
    exact ⟨t, mem_of_getElem? ht, e, he, hid⟩

instance (p : ArchivePool) (id : NoteId) : Decidable (p.Holds id) :=
  decidable_of_iff _ ArchivePool.holds_iff

instance (v : Vault) (id : NoteId) (p : ArchivePool) (i : Nat) : Decidable (Apart v id p i) :=
  decidable_of_iff ((i = 0 → p.restoreBegun = false → ¬ p.Holds id) ∧
      ∀ e ∈ p.takesUp i, e.noteId = id →
        p.restoreResult?.isSome ∨ (p.restoreBegun = false ∧ e.vaultId = v.vaultId))
    ⟨fun h => ⟨h.1, h.2⟩, fun h => ⟨h.begins, h.takesUp⟩⟩

/-! ## 2. What a restore sees -/

namespace Registry

variable {r : Registry} {vault vault' : VaultId} {note note' : NoteId}

theorem active_eq_false (h : e.isActive = false) : active vault note e = false := by
  simp [active, h]

theorem map_getActiveArchive (r : Registry) (vault : VaultId) (note : NoteId) :
    (r.getActiveArchive vault note).map Subtype.val = r.table.rows.find? (active vault note) := by
  unfold getActiveArchive
  split <;> simp [*]

theorem getActiveArchive_eq_none_iff :
    r.getActiveArchive vault note = none ↔ ∀ e ∈ r.table.rows, active vault note e = false := by
  rw [← map_eq_none_iff (f := Subtype.val), map_getActiveArchive, find?_eq_none]
  simp

theorem any_active (r : Registry) (vault : VaultId) (note : NoteId) :
    r.table.rows.any (active vault note) = (r.getActiveArchive vault note).isSome := by
  rw [← isSome_map (f := Subtype.val), map_getActiveArchive, Bool.eq_iff_iff, find?_isSome,
    List.any_eq_true]

section Deactivate

variable {f : ArchiveEntry → ArchiveEntry} (hf : ∀ e, (f e).isActive = false)

theorem getActiveArchive_deactivate_self :
    (r.deactivate vault note f hrow hf).getActiveArchive vault note = none := by
  rw [getActiveArchive_eq_none_iff]
  intro e he
  obtain ⟨e₀, -, rfl⟩ := List.mem_map.1 he
  by_cases hact : active vault note e₀ = true
  · rw [if_pos hact]
    exact active_eq_false (hf e₀)
  · rw [if_neg hact]
    simpa using hact

theorem getActiveArchive_deactivate_of_ne (hne : ¬ (vault' = vault ∧ note' = note)) :
    (r.deactivate vault note f hrow hf).getActiveArchive vault' note' = r.getActiveArchive vault' note' := by
  apply map_injective Subtype.val_injective
  rw [map_getActiveArchive, map_getActiveArchive]
  show (r.table.rows.map fun e => if active vault note e then f e else e).find? _ = _
  -- a row of this note is not one of the other
  have hother : ∀ e, active vault' note' e = true → ¬ active vault note e = true := by
    intro e h h'
    simp only [active, Bool.and_eq_true, decide_eq_true_eq] at h h'
    exact hne ⟨h.1.2.symm.trans h'.1.2, h.1.1.symm.trans h'.1.1⟩
  have hsame : (active vault' note' ∘ fun e => if active vault note e then f e else e) =
      active vault' note' := by
    funext e
    by_cases hact : active vault note e = true
    · have hnot : active vault' note' e = false := by
        by_contra h
        exact hother e (by simpa using h) hact
      rw [comp_apply, if_pos hact, hnot]
      exact active_eq_false (hf e)
    · simp [hact]
  rw [find?_map, hsame]
  cases hfind : r.table.rows.find? (active vault' note') with
  | none => rfl
  | some e =>
    have hnot := hother e (find?_some hfind)
    simp [hnot]

end Deactivate

variable (r) (vault) (note) (nowMs : Int)

theorem getActiveArchive_markArchiveRestored :
    (r.markArchiveRestored vault note nowMs).2.getActiveArchive vault note = none := by
  unfold markArchiveRestored
  exact getActiveArchive_deactivate_self fun e => by simp [ArchiveEntry.isActive]

theorem getActiveArchive_markArchiveGc :
    (r.markArchiveGc vault note nowMs).2.getActiveArchive vault note = none := by
  unfold markArchiveGc
  exact getActiveArchive_deactivate_self fun e => by simp [ArchiveEntry.isActive]

theorem getActiveArchive_markArchiveGc_of_ne (hne : ¬ (vault' = vault ∧ note' = note)) :
    (r.markArchiveGc vault note nowMs).2.getActiveArchive vault' note' = r.getActiveArchive vault' note' := by
  unfold markArchiveGc
  exact getActiveArchive_deactivate_of_ne (fun e => by simp [ArchiveEntry.isActive]) hne

end Registry

/-- The part of the state that a restore of the note sees and changes. -/
structure NoteView (vault : VaultId) (id : NoteId) where
  live : VaultState
  archived : { path : ArchivePath // path.mirrored.id = id } → Option MdFile
  archivedHistory : Snapshots
  active : Option (ActiveArchive vault id)

def noteView (vault : VaultId) (id : NoteId) (s : ArchiveState) : NoteView vault id where
  live := s.live
  archived path := s.archived path.1
  archivedHistory := s.archivedHistory vault id
  active := s.registry.getActiveArchive vault id

namespace Vault

variable {v : Vault} {id : NoteId}

theorem noteView_eq_iff : noteView vault id s = noteView vault id t ↔
      s.live = t.live ∧ (∀ path : ArchivePath, path.mirrored.id = id → s.archived path = t.archived path) ∧
        s.archivedHistory vault id = t.archivedHistory vault id ∧
        s.registry.getActiveArchive vault id = t.registry.getActiveArchive vault id := by
  simp only [noteView, NoteView.mk.injEq, funext_iff, Subtype.forall]

theorem within_of_reads (hsame : ∀ s, (v.archiveStep op s).2 = s)
    (hans : ∀ s t, noteView v.vaultId id s = noteView v.vaultId id t →
      (v.archiveStep op s).1 = (v.archiveStep op t).1) :
    Process.Within v.archiveStep (noteView v.vaultId id) op := by
  intro s t h
  refine ⟨hans s t h, ?_⟩
  rw [hsame, hsame, h]

theorem within_live (f : VaultState → op.Answer × VaultState)
    (hop : ∀ s, v.archiveStep op s = ((f s.live).1, { s with live := (f s.live).2 })) :
    Process.Within v.archiveStep (noteView v.vaultId id) op := by
  intro s t h
  obtain ⟨hlive, harch, hhist, hact⟩ := noteView_eq_iff.1 h
  rw [hop, hop, hlive]
  exact ⟨rfl, noteView_eq_iff.2 ⟨rfl, harch, hhist, hact⟩⟩

theorem within_deleteArchived (path : ArchivePath) :
    Process.Within v.archiveStep (noteView v.vaultId id) (.deleteArchived path) := by
  intro s t h
  obtain ⟨hlive, harch, hhist, hact⟩ := noteView_eq_iff.1 h
  refine ⟨rfl, noteView_eq_iff.2 ⟨hlive, fun path' hpath' => ?_, hhist, hact⟩⟩
  show update s.archived path none path' = update t.archived path none path'
  by_cases heq : path' = path
  · rw [heq, update_self, update_self]
  · rw [update_of_ne heq, update_of_ne heq, harch path' hpath']

theorem within_deleteArchivedSnapshot (stamp : Int) :
    Process.Within v.archiveStep (noteView v.vaultId id) (.deleteArchivedSnapshot v.vaultId id stamp) := by
  intro s t h
  obtain ⟨hlive, harch, hhist, hact⟩ := noteView_eq_iff.1 h
  refine ⟨rfl, noteView_eq_iff.2 ⟨hlive, harch, ?_, hact⟩⟩
  simp [archiveStep, hhist]

theorem within_markArchiveRestored (nowMs : Int) :
    Process.Within v.archiveStep (noteView v.vaultId id) (.markArchiveRestored v.vaultId id nowMs) := by
  intro s t h
  obtain ⟨hlive, harch, hhist, hact⟩ := noteView_eq_iff.1 h
  constructor
  · show s.registry.table.rows.any _ = t.registry.table.rows.any _
    rw [Registry.any_active, Registry.any_active, hact]
  refine noteView_eq_iff.2 ⟨hlive, harch, hhist, ?_⟩
  exact (s.registry.getActiveArchive_markArchiveRestored _ _ _).trans
    (t.registry.getActiveArchive_markArchiveRestored _ _ _).symm

theorem calls_moveBack (stamps : List Int) :
    (moveBack v.vaultId id stamps).Calls (Process.Within v.archiveStep (noteView v.vaultId id)) := by
  induction stamps with
  | nil => trivial
  | cons stamp stamps ih =>
    refine ⟨within_of_reads (fun _ => rfl) fun s t h => ?_, fun ans => ?_⟩
    · exact congrArg (fun d : Snapshots => d.read? stamp) (noteView_eq_iff.1 h).2.2.1
    cases ans with
    | none => exact ih
    | some file =>
      refine ⟨?_, fun _ => ⟨within_deleteArchivedSnapshot stamp, fun _ => ih⟩⟩
      exact within_live (fun live => ((), live.setHistory v.vaultId id
        ((stamp, file) :: (live.history v.vaultId id).filter fun p => p.1 ≠ stamp))) fun s => rfl

theorem calls_writeNoteWithIdCalls (input : WriteInput) (frontmatter : Frontmatter) (body : String) :
    (v.writeNoteWithIdCalls input frontmatter body id).Calls
      (Process.Within v.archiveStep (noteView v.vaultId id)) := by
  unfold writeNoteWithIdCalls
  split
  · trivial
  refine ⟨within_live (fun live => (v.judged input frontmatter body id none live, live)) fun _ => rfl,
    fun judged => ⟨within_live (fun live => ((), v.recordHistory input judged live)) fun _ => rfl,
      fun _ => ⟨within_live (fun live => ((), { live with
          files := update live.files (noteMdRelativePath judged.note) (some judged.note.file) }))
          fun _ => rfl,
        fun _ => ⟨within_live (fun live => ((), { live with notes := v.upsertNote judged.note live.notes }))
          fun _ => rfl, fun _ => trivial⟩⟩⟩⟩

theorem calls_restoring (v : Vault) (input : RestoreInput) (id : NoteId) :
    (v.restoring input id).Calls (Process.Within v.archiveStep (noteView v.vaultId id)) := by
  refine Process.Calls.bind ?_ fun _ => trivial
  refine ⟨within_of_reads (fun _ => rfl) fun s t h => (noteView_eq_iff.1 h).2.2.2, fun entry => ?_⟩
  cases entry with
  | none => trivial
  | some entry =>
  have hpath : entry.1.archivePath.mirrored.id = id := entry.1.own.2.trans entry.2.2.2
  refine ⟨within_live (fun live => (live.notes ⟨v.vaultId, id⟩, live)) fun _ => rfl, fun row => ?_⟩
  cases row with
  | some row => trivial
  | none =>
  refine ⟨within_of_reads (fun _ => rfl) fun s t h => (noteView_eq_iff.1 h).2.1 _ hpath, fun file => ?_⟩
  cases file with
  | none => trivial
  | some file =>
  refine Process.Calls.bind (calls_writeNoteWithIdCalls _ _ _) fun written => ?_
  cases written with
  | error e => trivial
  | ok note =>
    refine ⟨within_markArchiveRestored _, fun _ => ⟨within_deleteArchived _, fun _ => ?_⟩⟩
    refine Process.Calls.bind ?_ fun _ => trivial
    refine ⟨within_of_reads (fun _ => rfl) fun s t h => ?_, fun stamps => ?_⟩
    · exact congrArg Snapshots.stamps (noteView_eq_iff.1 h).2.2.1
    · exact calls_moveBack stamps

end Vault

/-! ## 3. What a pass does -/

/-- The calls of a pass: it takes up archives, deletes the files of the first and marks it, and goes on to
the next. -/
def collectorProtocol (v : Vault) :
    Option (List ArchiveEntry) → (op : ArchiveOp) → op.Answer → Option (Option (List ArchiveEntry))
  | none, .selectGcDueArchives _ _, due => some (some due)
  | some (e :: due), .deleteArchived path, _ => if path = e.archivePath then some (some (e :: due)) else none
  | some (e :: due), .listArchivedHistory vault note, _ =>
    if vault = v.vaultId ∧ note = e.noteId then some (some (e :: due)) else none
  | some (e :: due), .deleteArchivedSnapshot vault note _, _ =>
    if vault = v.vaultId ∧ note = e.noteId then some (some (e :: due)) else none
  | some (e :: due), .markArchiveGc vault note _, _ =>
    if vault = e.vaultId ∧ note = e.noteId then some (some due) else none
  | _, _, _ => none

def PassAt (v : Vault) (t : ArchiveThread) : Prop :=
  ∃ q, t.rest.Conforms (collectorProtocol v) (fun _ _ => True) q ∧ t.memo.pending = q.getD []

namespace Vault

variable {v : Vault}

theorem conforms_deleteSnapshots (e : ArchiveEntry) (due : List ArchiveEntry) (stamps : List Int) :
    (deleteSnapshots v.vaultId e.noteId stamps).Conforms (collectorProtocol v)
      (fun q _ => q = some (e :: due)) (some (e :: due)) := by
  induction stamps with
  | nil => rfl
  | cons stamp stamps ih => exact fun _ => ⟨_, if_pos ⟨rfl, rfl⟩, ih⟩

theorem conforms_collect (nowMs : Int) (destroyed : Nat) (due : List ArchiveEntry) :
    (v.collect nowMs destroyed due).Conforms (collectorProtocol v) (fun _ _ => True) (some due) := by
  induction due generalizing destroyed with
  | nil => trivial
  | cons e due ih =>
    have hfiles : (v.deleteArchiveFiles e.noteId e.archivePath).Conforms (collectorProtocol v)
        (fun q _ => q = some (e :: due)) (some (e :: due)) :=
      fun _ => ⟨_, if_pos rfl, fun stamps => ⟨_, if_pos ⟨rfl, rfl⟩, conforms_deleteSnapshots e due stamps⟩⟩
    refine hfiles.bind ?_
    rintro q - rfl marked
    exact ⟨_, if_pos ⟨rfl, rfl⟩, ih _⟩

theorem passAt_collecting (nowMs : Int) (limit : Nat) : PassAt v ⟨.idle, v.collecting nowMs limit⟩ := by
  refine ⟨none, ?_, rfl⟩
  have hpass : (v.runArchiveGc nowMs limit).Conforms (collectorProtocol v) (fun _ _ => True) none :=
    fun due => ⟨_, rfl, conforms_collect nowMs 0 due⟩
  exact hpass.bind fun _ _ _ => trivial

end Vault

inductive PassCall (v : Vault) (s : ArchiveState) :
    ArchiveOp → List ArchiveEntry → ArchiveState → List ArchiveEntry → Prop
  | takesUp (nowMs : Int) (limit : Nat) :
      PassCall v s (.selectGcDueArchives nowMs limit) [] s (s.registry.selectGcDueArchives nowMs limit)
  | cleans {op : ArchiveOp} {e : ArchiveEntry} {due : List ArchiveEntry} {s' : ArchiveState}
      (live : s'.live = s.live) (registry : s'.registry = s.registry)
      (archived : ∀ path : ArchivePath, path.mirrored.id ≠ e.noteId → s'.archived path = s.archived path)
      (history : ∀ vault note, note ≠ e.noteId →
        s'.archivedHistory vault note = s.archivedHistory vault note) :
      PassCall v s op (e :: due) s' (e :: due)
  | marks (e : ArchiveEntry) (due : List ArchiveEntry) (nowMs : Int) :
      PassCall v s (.markArchiveGc e.vaultId e.noteId nowMs) (e :: due)
        { s with registry := (s.registry.markArchiveGc e.vaultId e.noteId nowMs).2 } due

theorem PassAt.call {next : op.Answer → Vault.ArchiveProcess ArchiveResult}
    (h : PassAt v ⟨memo, .call op next⟩) (s : ArchiveState) :
    PassAt v ⟨remember op (v.archiveStep op s).1 memo, next (v.archiveStep op s).1⟩ ∧
      PassCall v s op memo.pending (v.archiveStep op s).2
        (remember op (v.archiveStep op s).1 memo).pending := by
  obtain ⟨q, hconf, hpend⟩ := h
  obtain ⟨q', hq', hnext⟩ := hconf (v.archiveStep op s).1
  rcases q with _ | _ | ⟨e, due⟩
  · cases op with
    | selectGcDueArchives nowMs limit =>
      cases hq'
      refine ⟨⟨_, hnext, rfl⟩, ?_⟩
      rw [hpend]
      exact .takesUp nowMs limit
    | _ => cases hq'
  · cases op <;> cases hq'
  · replace hpend : memo.pending = e :: due := hpend
    cases op with
    | deleteArchived path =>
      obtain ⟨hpath, hq⟩ := ite_none_right_eq_some.1 hq'
      cases hq
      refine ⟨⟨_, hnext, hpend⟩, ?_⟩
      rw [show (remember (.deleteArchived path) _ memo).pending = memo.pending from rfl, hpend]
      refine .cleans rfl rfl (fun path' hne => ?_) fun _ _ _ => rfl
      refine update_of_ne ?_ _ _
      rintro rfl
      exact hne (hpath ▸ e.own.2)
    | listArchivedHistory vault note =>
      obtain ⟨-, hq⟩ := ite_none_right_eq_some.1 hq'
      cases hq
      refine ⟨⟨_, hnext, hpend⟩, ?_⟩
      rw [show (remember (.listArchivedHistory vault note) _ memo).pending = memo.pending from rfl,
        hpend]
      exact .cleans rfl rfl (fun _ _ => rfl) fun _ _ _ => rfl
    | deleteArchivedSnapshot vault note stamp =>
      obtain ⟨⟨-, rfl⟩, hq⟩ := ite_none_right_eq_some.1 hq'
      cases hq
      refine ⟨⟨_, hnext, hpend⟩, ?_⟩
      rw [show (remember (.deleteArchivedSnapshot vault e.noteId stamp) _ memo).pending = memo.pending
        from rfl, hpend]
      exact .cleans rfl rfl (fun _ _ => rfl) fun vault' note' hne =>
        ArchiveState.setArchivedHistory_of_ne _ _ _ _ fun h => hne h.2
    | markArchiveGc vault note nowMs =>
      obtain ⟨⟨rfl, rfl⟩, hq⟩ := ite_none_right_eq_some.1 hq'
      cases hq
      have htail : (remember (.markArchiveGc e.vaultId e.noteId nowMs) (v.archiveStep _ s).1 memo).pending =
          due := congrArg List.tail hpend
      refine ⟨⟨_, hnext, htail⟩, ?_⟩
      rw [htail, hpend]
      exact .marks e due nowMs
    | _ => cases hq'

namespace PassCall

section

variable (h : PassCall v s op pending s' pending')

include h

theorem live : s'.live = s.live := by
  cases h with
  | takesUp => rfl
  | cleans live => exact live
  | marks => rfl

/-- A call changes nothing that a restore of the note sees, unless the archive in turn is one of this note.
Then it stays before the pass, or it is marked. -/
theorem view (id : NoteId) :
    (noteView v.vaultId id s' = noteView v.vaultId id s ∧ ∀ e ∈ pending, e.noteId = id → e ∈ pending') ∨
      ∃ e ∈ pending, e.noteId = id ∧ (e ∈ pending' ∨ s'.registry.getActiveArchive e.vaultId id = none) := by
  cases h with
  | takesUp => exact .inl ⟨rfl, fun e he => absurd he not_mem_nil⟩
  | @cleans op e due s' live registry archived history =>
    by_cases hid : e.noteId = id
    · exact .inr ⟨e, mem_cons_self, hid, .inl mem_cons_self⟩
    refine .inl ⟨Vault.noteView_eq_iff.2 ⟨live, fun path hpath => ?_, ?_, by rw [registry]⟩,
      fun _ he _ => he⟩
    · exact archived path fun h => hid (h.symm.trans hpath)
    · exact history _ _ fun h => hid h.symm
  | marks e due nowMs =>
    by_cases hid : e.noteId = id
    · refine .inr ⟨e, mem_cons_self, hid, .inr ?_⟩
      rw [← hid]
      exact s.registry.getActiveArchive_markArchiveGc _ _ _
    refine .inl ⟨Vault.noteView_eq_iff.2 ⟨rfl, fun _ _ => rfl, rfl, ?_⟩, fun e' he' hid' => ?_⟩
    · exact s.registry.getActiveArchive_markArchiveGc_of_ne _ _ _ fun h => hid h.2.symm
    rcases mem_cons.1 he' with rfl | hmem
    · exact absurd hid' hid
    · exact hmem

theorem mem (he : e ∈ pending') :
    e ∈ pending ∨ ∃ nowMs limit, op = .selectGcDueArchives nowMs limit ∧
      e ∈ s.registry.selectGcDueArchives nowMs limit := by
  cases h with
  | takesUp nowMs limit => exact .inr ⟨nowMs, limit, rfl, he⟩
  | cleans => exact .inl he
  | marks e due nowMs => exact .inl (mem_cons_of_mem _ he)

end

end PassCall

/-! ## 4. Runs -/

theorem remember_begun (h : memo.begun = true) : (remember op ans memo).begun = true := by
  cases op <;> first | exact h | rfl

section Runs

variable {v : Vault} {input : Vault.RestoreInput} {id : NoteId} {s₀ : ArchiveState} {p : ArchivePool}

def Agrees (v : Vault) (input : Vault.RestoreInput) (id : NoteId) (s₀ : ArchiveState)
    (rest : Vault.ArchiveProcess ArchiveResult) (s : ArchiveState) : Prop :=
  (rest.eval v.archiveStep s).1 = ((v.restoring input id).eval v.archiveStep s₀).1 ∧
    noteView v.vaultId id (rest.eval v.archiveStep s).2 =
      noteView v.vaultId id ((v.restoring input id).eval v.archiveStep s₀).2

/-- Where the restore stands, `s₀` being the state in which all began. -/
inductive RestorePhase (v : Vault) (input : Vault.RestoreInput) (id : NoteId) (s₀ : ArchiveState)
    (p : ArchivePool) : ArchiveThread → Prop
  /-- Nothing was touched, or a pass is at the note, or the archive is collected. -/
  | waiting
      (own : ∀ j, j ≠ 0 → ∀ t, p.threads[j]? = some t → ∀ e ∈ t.memo.pending, e.noteId = id →
        e.vaultId = v.vaultId)
      (untouched : noteView v.vaultId id p.shared = noteView v.vaultId id s₀ ∨ p.Holds id ∨
        p.shared.registry.getActiveArchive v.vaultId id = none) :
      RestorePhase v input id s₀ p ⟨.idle, v.restoring input id⟩
  | running {memo : ArchiveMemo} {op : ArchiveOp} {next : op.Answer → Vault.ArchiveProcess ArchiveResult}
      (begun : memo.begun = true) (free : ¬ p.Holds id)
      (calls : (Process.call op next).Calls (Process.Within v.archiveStep (noteView v.vaultId id)))
      (agrees : Agrees v input id s₀ (.call op next) p.shared) :
      RestorePhase v input id s₀ p ⟨memo, .call op next⟩
  | failed (memo : ArchiveMemo) (e : Vault.RestoreError) :
      RestorePhase v input id s₀ p ⟨memo, .done (.inl (.error e))⟩
  | ended (memo : ArchiveMemo)
      (live : p.shared.live = ((v.restoring input id).eval v.archiveStep s₀).2.live) :
      RestorePhase v input id s₀ p ⟨memo, .done ((v.restoring input id).eval v.archiveStep s₀).1⟩

structure RestoreInv (v : Vault) (input : Vault.RestoreInput) (id : NoteId) (s₀ : ArchiveState)
    (p : ArchivePool) : Prop where
  passes : ∀ j, j ≠ 0 → ∀ t, p.threads[j]? = some t → PassAt v t
  restore : ∃ t, p.threads[0]? = some t ∧ RestorePhase v input id s₀ p t

theorem restoreInv_archivePool (passes : List (Int × Nat)) :
    RestoreInv v input id s₀ (v.archivePool input id passes s₀) := by
  have hpass : ∀ j, j ≠ 0 → ∀ t : ArchiveThread, (v.archivePool input id passes s₀).threads[j]? = some t →
      ∃ pass : Int × Nat, t = ⟨.idle, v.collecting pass.1 pass.2⟩ := by
    intro j hj t ht
    obtain ⟨j, rfl⟩ := Nat.exists_eq_succ_of_ne_zero hj
    rw [Vault.archivePool, getElem?_cons_succ, getElem?_map, map_eq_some_iff] at ht
    obtain ⟨pass, -, rfl⟩ := ht
    exact ⟨pass, rfl⟩
  constructor
  · intro j hj t ht
    obtain ⟨pass, rfl⟩ := hpass j hj t ht
    exact Vault.passAt_collecting pass.1 pass.2
  refine ⟨_, rfl, .waiting (fun j hj t ht e he => ?_) (.inl rfl)⟩
  obtain ⟨pass, rfl⟩ := hpass j hj t ht
  exact absurd he not_mem_nil

variable {op : ArchiveOp} {next : op.Answer → Vault.ArchiveProcess ArchiveResult}

theorem RestorePhase.advance (hshar : p'.shared = (v.archiveStep op p.shared).2)
    (hbegun : memo.begun = true) (hfree : ¬ p'.Holds id)
    (hcalls : (Process.call op next).Calls (Process.Within v.archiveStep (noteView v.vaultId id)))
    (hagr : Agrees v input id s₀ (.call op next) p.shared) :
    RestorePhase v input id s₀ p' ⟨memo, next (v.archiveStep op p.shared).1⟩ := by
  have hcalls' := hcalls.2 (v.archiveStep op p.shared).1
  rw [Agrees, Process.eval_call, ← hshar] at hagr
  cases hnext : next (v.archiveStep op p.shared).1 with
  | done result =>
    rw [hnext] at hagr
    obtain ⟨hres, hview⟩ := hagr
    rw [show result = _ from hres]
    exact .ended memo (Vault.noteView_eq_iff.1 hview).1
  | call op' next' =>
    rw [hnext] at hagr hcalls'
    exact .running hbegun hfree hcalls' hagr

theorem ArchivePool.holds_congr {p' : ArchivePool}
    (h : ∀ j, j ≠ 0 → p'.threads[j]? = p.threads[j]?) : p'.Holds id ↔ p.Holds id := by
  refine exists_congr fun j => and_congr_right fun hj => ?_
  rw [h j hj]

theorem archiveAdvance_call (ht : p.threads[i]? = some ⟨memo, .call op next⟩) :
    v.archiveAdvance p i = ⟨(v.archiveStep op p.shared).2, p.threads.set i
      ⟨remember op (v.archiveStep op p.shared).1 memo, next (v.archiveStep op p.shared).1⟩⟩ :=
  Pool.advance_call ht

theorem archiveAdvance_done (ht : p.threads[i]? = some ⟨memo, .done result⟩) :
    v.archiveAdvance p i = p := by
  unfold Vault.archiveAdvance Pool.advance
  rw [ht]

theorem RestoreInv.restoreAdvance (h : RestoreInv v input id s₀ p) (hapart : Apart v id p 0) :
    RestoreInv v input id s₀ (v.archiveAdvance p 0) := by
  obtain ⟨t, ht, hphase⟩ := h.restore
  -- a call of the restore leaves the passes as they are
  have hcall : ∀ {memo : ArchiveMemo} {op : ArchiveOp}
      {next : op.Answer → Vault.ArchiveProcess ArchiveResult},
      p.threads[0]? = some ⟨memo, .call op next⟩ →
      (∀ p' : ArchivePool, p'.shared = (v.archiveStep op p.shared).2 → (p'.Holds id ↔ p.Holds id) →
        RestorePhase v input id s₀ p'
          ⟨remember op (v.archiveStep op p.shared).1 memo, next (v.archiveStep op p.shared).1⟩) →
      RestoreInv v input id s₀ (v.archiveAdvance p 0) := by
    intro memo op next ht hphase
    rw [archiveAdvance_call ht]
    have hoth : ∀ (t : ArchiveThread) j, j ≠ 0 → (p.threads.set 0 t)[j]? = p.threads[j]? :=
      fun t j hj => getElem?_set_ne (Ne.symm hj)
    refine ⟨fun j hj t ht' => ?_, _, getElem?_set_self (List.getElem?_eq_some_iff.1 ht).1, ?_⟩
    · rw [hoth _ j hj] at ht'
      exact h.passes j hj t ht'
    · exact hphase _ rfl (ArchivePool.holds_congr fun j hj => hoth _ j hj)
  cases hphase with
  | waiting own untouched =>
    have hidle : p.restoreBegun = false := by simp [ArchivePool.restoreBegun, ht, ArchiveMemo.idle]
    have hfree : ¬ p.Holds id := hapart.begins rfl hidle
    refine hcall ht fun p' hshar hholds => ?_
    rcases untouched with hview | hhold | hnone
    · have hcalls := v.calls_restoring input id
      exact RestorePhase.advance hshar rfl (hholds.not.2 hfree) hcalls (Process.eval_congr hcalls hview)
    · exact absurd hhold hfree
    · rw [show (v.archiveStep (.getActiveArchive v.vaultId id) p.shared).1 = none from hnone]
      exact .failed _ _
  | running begun free calls agrees =>
    refine hcall ht fun p' hshar hholds => ?_
    exact RestorePhase.advance hshar (remember_begun begun) (hholds.not.2 free) calls agrees
  | failed | ended =>
    rw [archiveAdvance_done ht]
    exact h

structure PassSteps (v : Vault) (p p' : ArchivePool) (i : Nat) (op : ArchiveOp) (u u' : ArchiveThread) :
    Prop where
  pass : i ≠ 0
  before : p.threads[i]? = some u
  after : p'.threads[i]? = some u'
  others : ∀ j, j ≠ i → p'.threads[j]? = p.threads[j]?
  call : PassCall v p.shared op u.memo.pending p'.shared u'.memo.pending

namespace PassSteps

section

variable (h : PassSteps v p p' i op u u')

include h

theorem pending {j : Nat}
    (hw : p'.threads[j]? = some w) (he : e ∈ w.memo.pending) :
    e ∈ u'.memo.pending ∨ p.threads[j]? = some w := by
  by_cases hj : j = i
  · subst hj
    rw [h.after, Option.some.injEq] at hw
    exact .inl (hw ▸ he)
  · exact .inr (h.others j hj ▸ hw)

theorem holds_of_mem (he : e ∈ u.memo.pending) (hid : e.noteId = id) :
    p.Holds id :=
  ⟨i, h.pass, u, h.before, e, he, hid⟩

theorem holds_of_mem_after (he : e ∈ u'.memo.pending)
    (hid : e.noteId = id) : p'.Holds id :=
  ⟨i, h.pass, u', h.after, e, he, hid⟩

theorem holds (hkeep : ∀ e ∈ u.memo.pending, e.noteId = id → e ∈ u'.memo.pending) (hholds : p.Holds id) :
    p'.Holds id := by
  obtain ⟨j, hj, w, hw, e, he, hid⟩ := hholds
  by_cases hji : j = i
  · subst hji
    rw [h.before, Option.some.injEq] at hw
    subst hw
    exact h.holds_of_mem_after (hkeep e he hid) hid
  · exact ⟨j, hj, w, (h.others j hji).trans hw, e, he, hid⟩

theorem phase (hphase : RestorePhase v input id s₀ p t)
    (hnew : ∀ e ∈ u'.memo.pending, e.noteId = id → e ∈ u.memo.pending ∨ t.rest.result?.isSome ∨
      (t.memo.begun = false ∧ e.vaultId = v.vaultId)) : RestorePhase v input id s₀ p' t := by
  cases hphase with
  | waiting own untouched =>
    refine .waiting (fun j hj w hw e he hid => ?_) ?_
    · rcases h.pending hw he with hmem | hold
      · rcases hnew e hmem hid with hmem | hended | ⟨-, hvault⟩
        · exact own i h.pass u h.before e hmem hid
        · cases hended
        · exact hvault
      · exact own j hj w hold e he hid
    · by_cases hholds : p'.Holds id
      · exact .inr (.inl hholds)
      rcases h.call.view id with ⟨hview, hkeep⟩ | ⟨e, he, hid, hmem | hnone⟩
      · rcases untouched with huntouched | hheld | hnone
        · exact .inl (hview.trans huntouched)
        · exact absurd (h.holds hkeep hheld) hholds
        · exact .inr (.inr ((Vault.noteView_eq_iff.1 hview).2.2.2.trans hnone))
      · exact absurd (h.holds_of_mem_after hmem hid) hholds
      · rw [own i h.pass u h.before e he hid] at hnone
        exact .inr (.inr hnone)
  | running begun free calls agrees =>
    have hview : noteView v.vaultId id p'.shared = noteView v.vaultId id p.shared := by
      rcases h.call.view id with ⟨hview, -⟩ | ⟨e, he, hid, -⟩
      · exact hview
      · exact absurd (h.holds_of_mem he hid) free
    have hfree : ¬ p'.Holds id := by
      rintro ⟨j, hj, w, hw, e, he, hid⟩
      rcases h.pending hw he with hmem | hold
      · rcases hnew e hmem hid with hmem | hended | ⟨hidle, -⟩
        · exact free (h.holds_of_mem hmem hid)
        · cases hended
        · rw [begun] at hidle
          cases hidle
      · exact free ⟨j, hj, w, hold, e, he, hid⟩
    obtain ⟨hres, hafter⟩ := Process.eval_congr calls hview
    exact .running begun hfree calls ⟨hres.trans agrees.1, hafter.trans agrees.2⟩
  | failed memo e => exact .failed memo e
  | ended memo live => exact .ended memo (h.call.live.trans live)

end

end PassSteps

theorem RestoreInv.passAdvance (h : RestoreInv v input id s₀ p) (hi : i ≠ 0) (hapart : Apart v id p i) :
    RestoreInv v input id s₀ (v.archiveAdvance p i) := by
  obtain ⟨t, ht, hphase⟩ := h.restore
  rcases Pool.advance_cases v.archiveExec p i () with hsame | ⟨memo, op, next, hthr, -⟩
  · rw [Vault.archiveAdvance, hsame]
    exact h
  rw [archiveAdvance_call hthr]
  obtain ⟨hpass, hcall⟩ := (h.passes i hi _ hthr).call p.shared
  have hlen : i < p.threads.length := (List.getElem?_eq_some_iff.1 hthr).1
  let u' : ArchiveThread :=
    ⟨remember op (v.archiveStep op p.shared).1 memo, next (v.archiveStep op p.shared).1⟩
  have hsteps : PassSteps v p ⟨(v.archiveStep op p.shared).2, p.threads.set i u'⟩ i op
      ⟨memo, .call op next⟩ u' :=
    { pass := hi
      before := hthr
      after := getElem?_set_self hlen
      others := fun j hj => getElem?_set_ne (Ne.symm hj)
      call := hcall }
  refine ⟨fun j hj w hw => ?_, t, (hsteps.others 0 (Ne.symm hi)).trans ht, hsteps.phase hphase ?_⟩
  · by_cases hji : j = i
    · subst hji
      rw [hsteps.after, Option.some.injEq] at hw
      exact hw ▸ hpass
    · exact h.passes j hj w (hsteps.others j hji ▸ hw)
  · intro e he hid
    rcases hcall.mem he with hmem | ⟨nowMs, limit, rfl, hmem⟩
    · exact .inl hmem
    have htakes := hapart.takesUp e (by rw [ArchivePool.takesUp, hthr]; exact hmem) hid
    rw [ArchivePool.restoreResult?, ArchivePool.restoreBegun, ht] at htakes
    exact .inr htakes

theorem restored_of_apart (v : Vault) (input : Vault.RestoreInput) (id : NoteId) (passes : List (Int × Nat))
    (s₀ : ArchiveState) (schedule : List Nat) (outcome : Vault.RestoreOutcome)
    (hbody : KeepsBody v input.write id s₀)
    (hapart : EachStep v.archiveAdvance (Apart v id) (v.archivePool input id passes s₀) schedule)
    (hok : (run v.archiveAdvance (v.archivePool input id passes s₀) schedule).restoreResult? =
      some (.inl (.ok outcome))) : Restored v id s₀ outcome
      (run v.archiveAdvance (v.archivePool input id passes s₀) schedule).shared.live := by
  have hinv : RestoreInv v input id s₀ (run v.archiveAdvance (v.archivePool input id passes s₀) schedule) := by
    refine hapart.inv_run (restoreInv_archivePool passes) fun p i h hstep => ?_
    by_cases hi : i = 0
    · subst hi
      exact h.restoreAdvance hstep
    · exact h.passAdvance hi hstep
  obtain ⟨t, ht, hphase⟩ := hinv.restore
  rw [ArchivePool.restoreResult?, ht] at hok
  cases hphase with
  | waiting | running | failed => cases hok
  | ended memo live =>
    have hres : ((v.restoring input id).eval v.archiveStep s₀).1 = .inl (.ok outcome) :=
      Option.some.inj hok
    rw [Vault.restoring, Process.eval_bind] at hres live
    rw [live]
    exact Vault.restored_restoreArchive hbody (Sum.inl.inj hres)

end Runs

def dueArchive : ArchiveState where
  live := ⟨fun _ => none, fun _ _ => [], fun _ => none⟩
  archived path := if path.mirrored.id = 1 then some (plainNote 1 none "text").file else none
  archivedHistory _ id := if id = 1 then oneSnapshot else .empty
  registry := ⟨⟨[archiveOfNote1 0 "main" 0], by decide⟩, by decide⟩

def plainRestore : Vault.RestoreInput := ⟨10, ⟨none, "", 10, 10⟩, 10⟩

def restoreBesidePass (schedule : List Nat) : ArchivePool :=
  run plainServer.vault.archiveAdvance
    (plainServer.vault.archivePool plainRestore 1 [(50, 10)] dueArchive) schedule

def restoredNote1 : Vault.RestoreOutcome := ⟨⟨"main", none, 1⟩, .debug, .pendingReview⟩

theorem restored_selectedAfterMark :
    (restoreBesidePass (List.replicate 8 0 ++ [1] ++ List.replicate 5 0)).restoreResult? =
      some (.inl (.ok restoredNote1)) ∧ Restored plainServer.vault 1 dueArchive restoredNote1
      (restoreBesidePass (List.replicate 8 0 ++ [1] ++ List.replicate 5 0)).shared.live := by
  have hbody : KeepsBody plainServer.vault plainRestore.write 1 dueArchive := fun _ _ _ _ => rfl
  exact ⟨rfl, restored_of_apart plainServer.vault plainRestore 1 [(50, 10)] dueArchive _ restoredNote1 hbody
    (by decide) rfl⟩

/-- The pass has selected the archive before the restore begins, and deletes its files once the restore has
marked it: the restore finds no snapshot to bring back, and is answered Ok. -/
theorem not_restored_selectedBefore :
    (restoreBesidePass ([1] ++ List.replicate 8 0 ++ List.replicate 4 1 ++ [0, 0])).restoreResult? =
      some (.inl (.ok restoredNote1)) ∧ KeepsBody plainServer.vault plainRestore.write 1 dueArchive ∧
    (restoreBesidePass ([1] ++ List.replicate 8 0 ++ List.replicate 4 1 ++ [0, 0])).shared.live.history
      "main" 1 = [] ∧ ¬ Restored plainServer.vault 1 dueArchive restoredNote1
      (restoreBesidePass ([1] ++ List.replicate 8 0 ++ List.replicate 4 1 ++ [0, 0])).shared.live := by
  refine ⟨rfl, fun _ _ _ _ => rfl, rfl, fun h => ?_⟩
  have hback := h.snapshots (7, (plainNote 1 none "earlier").file) mem_cons_self
  exact absurd hback not_mem_nil

end Gradatum.Notes
