import Gradatum.Notes.Store
import Gradatum.Reasoning.Newest
import Gradatum.Reasoning.Run

/-!
# The history of a note

A write that changes a note copies the file it replaces into the history, and removes the oldest snapshots
beyond a limit.  The snapshots to remove are looked up in the vault that the instance serves.
-/

open Reasoning

namespace Gradatum.Notes

open List VaultState

/-! ## 1. Trimming -/

def HistoryConfig.limit (cfg : HistoryConfig) : Nat := max cfg.maxVersions 1

theorem VaultState.setHistory_of_ne (s : VaultState) (hne : other ≠ vault) (id : NoteId)
    (snapshots : List (Int × MdFile)) (id' : NoteId) :
    (s.setHistory vault id snapshots).history other id' = s.history other id' := by
  simp [VaultState.setHistory, hne]

theorem VaultState.deleteSnapshots_self (s : VaultState) (vault : VaultId) (id : NoteId) (stamps : List Int) :
    (s.deleteSnapshots vault id stamps).history vault id =
      (s.history vault id).filter fun entry => !stamps.contains entry.1 :=
  s.setHistory_self vault id _

theorem VaultState.deleteSnapshots_nil (s : VaultState) (vault : VaultId) (id : NoteId) :
    (s.deleteSnapshots vault id []).history vault id = s.history vault id := by
  rw [deleteSnapshots_self]
  simp

namespace Vault

variable {v : Vault} {id : NoteId}

theorem history_trim_served (httl : cfg.ttlDays = none) (hnew : NewestFirst (s.history v.vaultId id))
    (nowMs : Nat) : (v.applyHistoryTrim id v.vaultId cfg nowMs s).history v.vaultId id =
      (s.history v.vaultId id).take cfg.limit := by
  have hvers : historyVersions s v.vaultId id = ((s.history v.vaultId id).map Prod.fst).reverse :=
    hnew.sorted_stamps
  have hlen : (historyVersions s v.vaultId id).length = (s.history v.vaultId id).length := by
    rw [hvers, length_reverse, length_map]
  have hall : (historyVersions s v.vaultId id).filter (fun ts => !([] : List Int).contains ts) =
      historyVersions s v.vaultId id := by
    simp
  simp only [applyHistoryTrim, httl, hall]
  rw [deleteSnapshots_self, deleteSnapshots_nil, hlen, hvers]
  exact hnew.filter_not_oldest cfg.limit

theorem history_trim_foreign (httl : cfg.ttlDays = none)
    (hfew : (s.history v.vaultId id).length ≤ cfg.limit) (nowMs : Nat) :
    (v.applyHistoryTrim id tenant cfg nowMs s).history tenant id = s.history tenant id := by
  have hlen : (historyVersions s v.vaultId id).length = (s.history v.vaultId id).length := by
    rw [historyVersions, length_mergeSort, length_map]
  have hall : (historyVersions s v.vaultId id).filter (fun ts => !([] : List Int).contains ts) =
      historyVersions s v.vaultId id := by
    simp
  have hnone : (historyVersions s v.vaultId id).length - max cfg.maxVersions 1 = 0 := by
    rw [hlen]
    exact Nat.sub_eq_zero_of_le hfew
  simp only [applyHistoryTrim, httl, hall, hnone, take_zero]
  rw [deleteSnapshots_nil, deleteSnapshots_nil]

end Vault

/-! ## 2. Versions -/

/-- The time of a version, after which its snapshot is named. -/
def Note.stamp (note : Note) : Int := (note.frontmatter.updated.getD note.frontmatter.created).millis

def Note.snapshot (note : Note) : Int × MdFile := (note.stamp, note.file)

structure NoteWrite where
  input : WriteInput
  frontmatter : Frontmatter
  body : String

/-- A state, with the versions that led to it, the newest first. -/
structure WriteLog where
  vault : VaultState
  written : List Note

namespace Vault

variable (v : Vault) (id : NoteId)

def logWrite (log : WriteLog) (write : NoteWrite) : WriteLog :=
  match v.writeNoteWithId write.input write.frontmatter write.body id log.vault with
  | (.ok note, s) => ⟨s, note :: log.written⟩
  | (.error _, s) => ⟨s, log.written⟩

/-- Of a list of versions, the newest first, those that a version with another content came after. -/
def superseded : List Note → List Note
  | newer :: older :: rest =>
    if v.historyHash older.frontmatter older.body ≠ v.historyHash newer.frontmatter newer.body then
      older :: superseded (older :: rest)
    else superseded (older :: rest)
  | _ => []

theorem superseded_sublist (versions : List Note) : (v.superseded versions).Sublist versions.tail := by
  induction versions with
  | nil => exact List.Sublist.slnil
  | cons newer versions ih =>
    cases versions with
    | nil => exact List.Sublist.slnil
    | cons older rest =>
      rw [superseded]
      split
      · exact ih.cons_cons older
      · exact ih.cons older

/-- What is left of snapshots, the newest first, after trimming. -/
def keptOf (vault : VaultId) (snapshots : List (Int × MdFile)) : List (Int × MdFile) :=
  if vault = v.vaultId then snapshots.take v.history.limit else snapshots

/-- The history holds the last versions that were superseded, by their time. -/
structure ExactHistory (vault : VaultId) (log : WriteLog) : Prop where
  snapshots : log.vault.history vault id =
    ((v.superseded log.written).take v.history.limit).map Note.snapshot
  order : NewestFirst (log.vault.history vault id)

variable {v id} {vault : VaultId} {s : VaultState} {prev : Note}

theorem history_snapshot (httl : v.history.ttlDays = none) (hvault : prev.frontmatter.vaultId = vault)
    (hid : prev.id = id) (hfile : s.files (noteMdRelativePath prev) = some prev.file)
    (hhist : s.history vault id = v.keptOf vault past) (hnew : NewestFirst (prev.snapshot :: past))
    (hfew : vault ≠ v.vaultId → (s.history v.vaultId id).length ≤ v.history.limit) (nowMs : Nat) :
    (v.snapshot id prev nowMs s).history vault id = v.keptOf vault (prev.snapshot :: past) := by
  have hsub : (s.history vault id).Sublist past := by
    rw [hhist, keptOf]
    split
    · exact take_sublist _ _
    · exact List.Sublist.refl _
  have hold : NewestFirst (prev.snapshot :: s.history vault id) := hnew.sublist (hsub.cons_cons _)
  -- no snapshot has the name of the new one
  have hkept : (s.history vault id).filter (fun entry => entry.1 ≠ prev.stamp) = s.history vault id := by
    rw [filter_eq_self]
    intro entry hentry
    rw [decide_eq_true_eq]
    exact Int.ne_of_lt ((pairwise_cons.1 hold).1 entry hentry)
  have hsnap : v.snapshot id prev nowMs s = v.applyHistoryTrim id vault v.history nowMs
      (s.setHistory vault id (prev.snapshot :: s.history vault id)) := by
    rw [Vault.snapshot, hfile]
    dsimp only
    rw [hvault, hid]
    exact congrArg (fun kept => v.applyHistoryTrim id vault v.history nowMs
      (s.setHistory vault id (prev.snapshot :: kept))) hkept
  rw [hsnap]
  by_cases hserv : vault = v.vaultId
  · subst hserv
    rw [history_trim_served httl (by rw [setHistory_self]; exact hold), setHistory_self,
      hhist, keptOf, keptOf, if_pos rfl, if_pos rfl]
    obtain ⟨limit, hlimit⟩ : ∃ limit, v.history.limit = limit + 1 :=
      Nat.exists_eq_succ_of_ne_zero (by unfold HistoryConfig.limit; omega)
    rw [hlimit, take_succ_cons, take_succ_cons, take_take, Nat.min_eq_left (by omega)]
  · rw [history_trim_foreign httl (by
      rw [setHistory_of_ne _ (Ne.symm hserv)]
      exact hfew hserv), setHistory_self, hhist, keptOf, keptOf, if_neg hserv,
      if_neg hserv]

theorem history_commit_of_ne {judged : Judged}
    (hvault : ∀ prev, judged.existing = some prev → prev.frontmatter.vaultId ≠ other) (input : WriteInput)
    (id' : NoteId) : (v.commit input judged s).history other id' = s.history other id' := by
  show (v.recordHistory input judged s).history other id' = s.history other id'
  unfold recordHistory
  split
  · rfl
  rename_i prev hprev
  have hne := Ne.symm (hvault prev hprev)
  split
  · exact s.setHistory_of_ne hne _ _ _
  split
  · unfold Vault.snapshot
    split
    · rfl
    · simp only [applyHistoryTrim, VaultState.deleteSnapshots, setHistory_of_ne _ hne]
  · rfl

/-! ## 3. Runs of writes -/

structure Logged (v : Vault) (id : NoteId) (vault : VaultId) (locus : Option LocusId) (log : WriteLog) :
    Prop where
  absent : log.written = [] → log.vault.notes ⟨vault, id⟩ = none
  latest : ∀ prev rest, log.written = prev :: rest →
    v.readNoteIn log.vault vault id = some prev ∧ prev.frontmatter.vaultId = vault ∧ prev.id = id ∧
      log.vault.files (noteMdRelativePath prev) = some prev.file
  locus : ∀ row, log.vault.notes ⟨vault, id⟩ = some row → row.locus = locus.map (·.path)
  newest : log.written.Pairwise fun a b => b.stamp < a.stamp
  history : log.vault.history vault id = v.keptOf vault ((v.superseded log.written).map Note.snapshot)
  few : vault ≠ v.vaultId → (log.vault.history v.vaultId id).length ≤ v.history.limit

variable {locus : Option LocusId} {write : NoteWrite}

theorem newestFirst_superseded (h : (prev :: rest).Pairwise fun a b => b.stamp < a.stamp) :
    NewestFirst (prev.snapshot :: (v.superseded (prev :: rest)).map Note.snapshot) := by
  rw [NewestFirst, ← map_cons, pairwise_map]
  exact h.sublist ((v.superseded_sublist (prev :: rest)).cons_cons prev)

theorem logWrite_eq (hmasks : v.privacy.policy.masks = false) (log : WriteLog) (write : NoteWrite) :
    v.logWrite id log write =
      ⟨v.commit write.input (v.judged write.input write.frontmatter write.body id none log.vault) log.vault,
        (v.judged write.input write.frontmatter write.body id none log.vault).note :: log.written⟩ := by
  simp [logWrite, writeNoteWithId, writeNoteJudged, refuses, hmasks]

section

variable (h : v.Logged id vault locus log)

include h

theorem Logged.existing_eq (write : NoteWrite)
    (htgt : (v.fillVaultId write.frontmatter).vaultId = vault) :
    (v.judged write.input write.frontmatter write.body id none log.vault).existing = log.written.head? := by
  have hread : (v.judged write.input write.frontmatter write.body id none log.vault).existing =
      v.readNoteIn log.vault vault id := by
    rw [← htgt]
    rfl
  rw [hread]
  cases hwrit : log.written with
  | nil => rw [readNoteIn, h.absent hwrit, Option.bind_none, head?_nil]
  | cons prev rest => exact (h.latest prev rest hwrit).1

theorem Logged.history_commit (httl : v.history.ttlDays = none)
    {judged : Judged} (hid : judged.note.id = id) (hex : judged.existing = log.written.head?)
    (hmask : judged.bodyMasked = false) (input : WriteInput) :
    (v.commit input judged log.vault).history vault id =
      v.keptOf vault ((v.superseded (judged.note :: log.written)).map Note.snapshot) := by
  show (v.recordHistory input judged log.vault).history vault id = _
  have hhist := h.history
  cases hwrit : log.written with
  | nil =>
    rw [hwrit] at hhist hex
    rw [recordHistory, hex]
    exact hhist
  | cons prev rest =>
    obtain ⟨-, hvault, hprev, hfile⟩ := h.latest prev rest hwrit
    have hnew := h.newest
    rw [hwrit] at hhist hex hnew
    rw [recordHistory, hex, superseded, hmask, hid]
    dsimp only [head?_cons]
    rw [if_neg Bool.false_ne_true]
    split
    · rw [map_cons]
      exact history_snapshot httl hvault hprev hfile hhist (newestFirst_superseded hnew) h.few _
    · exact hhist

theorem Logged.logWrite (hmasks : v.privacy.policy.masks = false)
    (httl : v.history.ttlDays = none) (htgt : (v.fillVaultId write.frontmatter).vaultId = vault)
    (hlocus : write.frontmatter.locus = locus)
    (hclock : ∀ prev ∈ log.written, prev.stamp < write.input.updated.millis) :
    v.Logged id vault locus (v.logWrite id log write) := by
  rw [logWrite_eq hmasks]
  have hex := h.existing_eq write htgt
  have hmask : (v.judged write.input write.frontmatter write.body id none log.vault).bodyMasked = false := by
    show (v.privacy.maskedBody _ _).2 = false
    rw [PrivacySettings.maskedBody_of_masks_false hmasks]
  obtain ⟨hread, hrows⟩ := readNoteIn_commit_judged (v := v) (s := log.vault) write.input write.frontmatter
    write.body id none htgt (by rw [hlocus]; exact h.locus)
  constructor
  case absent => exact fun hnil => absurd hnil (cons_ne_nil _ _)
  case latest =>
    intro prev rest hwrit
    obtain ⟨rfl, rfl⟩ := List.cons.inj hwrit
    refine ⟨hread, ?_, judged_id .., ?_⟩
    · rw [judged_vaultId, htgt]
    · exact Function.update_self ..
  case locus =>
    rw [← hlocus]
    exact hrows
  case newest => exact pairwise_cons.2 ⟨hclock, h.newest⟩
  case history => exact h.history_commit httl (judged_id ..) hex hmask write.input
  case few =>
    intro hforn
    rw [history_commit_of_ne]
    · exact h.few hforn
    intro prev hprev
    rw [hex] at hprev
    obtain ⟨rest, hwrit⟩ := head?_eq_some_iff.1 hprev
    rw [(h.latest prev rest hwrit).2.1]
    exact hforn

theorem Logged.run (hmasks : v.privacy.policy.masks = false)
    (httl : v.history.ttlDays = none) (hstay : ∀ write ∈ writes,
      (v.fillVaultId write.frontmatter).vaultId = vault ∧ write.frontmatter.locus = locus)
    (hclock : writes.Pairwise fun a b => a.input.updated.millis < b.input.updated.millis)
    (hlater : ∀ write ∈ writes, ∀ prev ∈ log.written, prev.stamp < write.input.updated.millis) :
    v.Logged id vault locus (run (v.logWrite id) log writes) ∧
      (run (v.logWrite id) log writes).written.length = log.written.length + writes.length := by
  induction writes generalizing log with
  | nil => exact ⟨h, rfl⟩
  | cons write writes ih =>
    rw [forall_mem_cons] at hstay hlater
    rw [pairwise_cons] at hclock
    have hwrite := h.logWrite hmasks httl hstay.1.1 hstay.1.2 hlater.1
    have hrun := ih hwrite hstay.2 hclock.2 (by
      intro later hlaterMem
      rw [logWrite_eq hmasks, forall_mem_cons]
      exact ⟨hclock.1 later hlaterMem, hlater.2 later hlaterMem⟩)
    rw [run_cons]
    refine ⟨hrun.1, ?_⟩
    rw [hrun.2, logWrite_eq hmasks, length_cons, length_cons]
    omega

theorem Logged.exactHistory
    (hkept : vault = v.vaultId ∨ log.written.length ≤ v.history.limit + 1) : v.ExactHistory id vault log := by
  have hsnapshots : log.vault.history vault id =
      ((v.superseded log.written).take v.history.limit).map Note.snapshot := by
    rw [h.history, keptOf, map_take]
    split
    · rfl
    rename_i hforn
    have hfew := (v.superseded_sublist log.written).length_le
    rw [length_tail] at hfew
    have hlen := hkept.resolve_left hforn
    rw [take_of_length_le (by rw [length_map]; omega)]
  refine ⟨hsnapshots, ?_⟩
  rw [hsnapshots, NewestFirst, pairwise_map]
  exact h.newest.sublist
    ((take_sublist _ _).trans ((v.superseded_sublist _).trans (tail_sublist _)))

end

/-- After any run of writes of a new note that never move it the history is exact: always in the served
vault, and in another one as long as there is nothing to trim. -/
theorem exactHistory_run (v : Vault) (id : NoteId) (vault : VaultId) (locus : Option LocusId) (s : VaultState)
    (writes : List NoteWrite) (hmasks : v.privacy.policy.masks = false) (httl : v.history.ttlDays = none)
    (hnew : s.notes ⟨vault, id⟩ = none) (hempty : s.history vault id = []) (hstay : ∀ write ∈ writes,
      (v.fillVaultId write.frontmatter).vaultId = vault ∧ write.frontmatter.locus = locus)
    (hclock : writes.Pairwise fun a b => a.input.updated.millis < b.input.updated.millis)
    (hkept : vault = v.vaultId ∨ ((s.history v.vaultId id).length ≤ v.history.limit ∧
      writes.length ≤ v.history.limit + 1)) :
    v.ExactHistory id vault (run (v.logWrite id) ⟨s, []⟩ writes) := by
  have hstart : v.Logged id vault locus ⟨s, []⟩ := by
    constructor
    case absent => exact fun _ => hnew
    case latest => exact fun _ _ hcons => absurd hcons.symm (cons_ne_nil _ _)
    case locus =>
      intro row hrow
      rw [hnew] at hrow
      cases hrow
    case newest => exact List.Pairwise.nil
    case history =>
      rw [hempty, keptOf]
      split <;> simp [superseded]
    case few => exact fun hforn => (hkept.resolve_left hforn).1
  obtain ⟨hlog, hlen⟩ := hstart.run hmasks httl hstay hclock (fun _ _ prev hprev => by cases hprev)
  refine hlog.exactHistory (hkept.imp_right fun hfew => ?_)
  rw [hlen, length_nil, Nat.zero_add]
  exact hfew.2

end Vault

/-- An instance that keeps one version of a note; versions are told apart by the length of their body. -/
def oneVersionVault : Vault :=
  { plainServer.vault with
    historyHash := fun _ body => body.length
    history := ⟨1, none⟩ }

def threeVersions (vault : VaultId) : List NoteWrite :=
  [⟨.at 1000000, { (plainNote 7 none "").frontmatter with vaultId := vault }, "a"⟩,
    ⟨.at 2000000, { (plainNote 7 none "").frontmatter with vaultId := vault }, "bb"⟩,
    ⟨.at 3000000, { (plainNote 7 none "").frontmatter with vaultId := vault }, "ccc"⟩]

def threeVersionsLog (vault : VaultId) : WriteLog :=
  run (oneVersionVault.logWrite 7) ⟨⟨fun _ => none, fun _ _ => [], fun _ => none⟩, []⟩ (threeVersions vault)

/-- In the served vault one of the two superseded versions is kept. -/
theorem exactHistory_threeVersions : oneVersionVault.ExactHistory 7 "main" (threeVersionsLog "main") :=
  Vault.exactHistory_run oneVersionVault 7 "main" none _ (threeVersions "main") rfl rfl rfl rfl
    (by decide) (by decide) (.inl rfl)

/-- In another vault both are, though no version moves the note and each is later than the one before. -/
theorem not_exactHistory_threeVersions : (∀ write ∈ threeVersions "other",
      (oneVersionVault.fillVaultId write.frontmatter).vaultId = "other" ∧ write.frontmatter.locus = none) ∧
    (threeVersions "other").Pairwise (fun a b => a.input.updated.millis < b.input.updated.millis) ∧
    ¬ oneVersionVault.ExactHistory 7 "other" (threeVersionsLog "other") := by
  refine ⟨by decide, by decide, fun h => ?_⟩
  have hlen := congrArg List.length h.snapshots
  revert hlen
  decide +kernel

end Gradatum.Notes
