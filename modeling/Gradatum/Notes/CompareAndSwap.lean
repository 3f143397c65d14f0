import Gradatum.Notes.Curated
import Gradatum.Reasoning.Run

/-!
# Concurrent calls of write_if_match

A call compares the hash of the note with the one it expects, and writes in a second step.  The comparison is
made in the vault that the instance serves, the write goes to the vault that the frontmatter names.
-/

open Reasoning

namespace Gradatum.Notes

open Option Function

/-! ## 1. The steps -/

structure IfMatchCall where
  input : WriteInput
  frontmatter : Frontmatter
  body : String
  expected : ContentHash

inductive IfMatchEvent where
  | check (call : Nat)
  | write (call : Nat)

structure IfMatchProgress where
  /-- The note that the call read to compare its hash. -/
  seen : Option (Option Note)
  /-- The note that its write replaced. -/
  replaced : Option (Option Note)
  result : Option (Except VaultError WriteResult)

structure IfMatchState where
  vault : VaultState
  progress : Nat → IfMatchProgress

def IfMatchState.start (s : VaultState) : IfMatchState := ⟨s, fun _ => ⟨none, none, none⟩⟩

def IfMatchCall.conflict (call : IfMatchCall) (existing : Option Note) : Option ContentHash :=
  existing.bind fun note => if note.contentHash ≠ call.expected then some note.contentHash else none

def writtenOf (reply : Except VaultError Note) : Except VaultError WriteResult :=
  reply.map fun note => .written note.contentHash

namespace Vault

variable (v : Vault) (calls : Nat → IfMatchCall) (id : NoteId)

def target (call : IfMatchCall) : VaultId := (v.fillVaultId call.frontmatter).vaultId

def reply (call : IfMatchCall) (s : VaultState) : Except VaultError Note × VaultState :=
  v.writeNoteJudged call.input call.frontmatter call.body id none s

def ifMatchStep (t : IfMatchState) : IfMatchEvent → IfMatchState
  | .check i =>
    match (t.progress i).seen with
    | some _ => t
    | none =>
      let existing := v.readNote t.vault id
      { t with
        progress := update t.progress i
          { t.progress i with
            seen := some existing
            result := ((calls i).conflict existing).map fun current => .ok (.conflict current) } }
  | .write i =>
    match (t.progress i).seen, (t.progress i).result with
    | some _, none =>
      let reply := v.reply id (calls i) t.vault
      { vault := reply.2
        progress := update t.progress i
          { t.progress i with
            replaced := some (v.readNoteIn t.vault (v.target (calls i)) id)
            result := some (writtenOf reply.1) } }
    | _, _ => t

theorem writeIfMatch_eq_steps (call : IfMatchCall) (s : VaultState) :
    let t := run (v.ifMatchStep (fun _ => call) id) (.start s) [.check 0, .write 0]
    let reply := v.writeIfMatch call.input call.frontmatter call.body id (some call.expected) s
    ((t.progress 0).result, t.vault) = (some reply.1, reply.2) := by
  simp only [run_cons, run_nil, ifMatchStep, IfMatchState.start, update_self, writeIfMatch,
    IfMatchCall.conflict]
  cases hread : v.readNote s id with
  | none =>
    simp only [bind_none, map_none, update_self, reply]
    cases v.writeNoteJudged call.input call.frontmatter call.body id none s with
    | mk answer s' => cases answer <;> rfl
  | some note =>
    simp only [bind_some]
    by_cases hne : note.contentHash ≠ call.expected
    · simp [hne]
    simp only [if_neg hne, map_none, update_self, reply]
    cases v.writeNoteJudged call.input call.frontmatter call.body id none s with
    | mk answer s' => cases answer <;> rfl

/-! ## 2. What a call saw -/

variable {v calls id} {t : IfMatchState} {call : IfMatchCall}

theorem IfMatchCall.conflict_eq_none_iff : call.conflict existing = none ↔
    ∀ note, existing = some note → note.contentHash = call.expected := by
  rw [IfMatchCall.conflict, bind_eq_none_iff]
  simp only [ite_eq_right_iff, reduceCtorEq, imp_false, not_not]

theorem IfMatchCall.conflict_eq_some_iff : call.conflict existing = some current ↔
      ∃ note, existing = some note ∧ note.contentHash = current ∧ current ≠ call.expected := by
  rw [IfMatchCall.conflict, bind_eq_some_iff]
  constructor
  · rintro ⟨note, hnote, hcur⟩
    split at hcur
    · rename_i hne
      cases hcur
      exact ⟨note, hnote, rfl, hne⟩
    · cases hcur
  · rintro ⟨note, hnote, rfl, hne⟩
    exact ⟨note, hnote, if_pos hne⟩

structure Answered (call : IfMatchCall) (p : IfMatchProgress) : Prop where
  conflict : ∀ current, p.result = some (.ok (.conflict current)) →
    ∃ note, p.seen = some (some note) ∧ note.contentHash = current ∧ current ≠ call.expected
  /-- A call that goes on to write, or has written, saw no note or the one it expects. -/
  passed : (∀ current, p.result ≠ some (.ok (.conflict current))) →
    ∀ note, p.seen = some (some note) → note.contentHash = call.expected
  refused : ∀ e, p.result = some (.error e) → e = .detectorUnavailable

theorem writtenOf_ne_conflict (reply : Except VaultError Note) (current : ContentHash) :
    writtenOf reply ≠ .ok (.conflict current) := by
  intro heq
  cases reply <;> cases heq

theorem reply_error (h : writtenOf (v.reply id call s).1 = .error e) : e = .detectorUnavailable := by
  rw [reply, writeNoteJudged] at h
  split at h <;> cases h
  rfl

/-- A step does nothing, checks a call, or writes for a call that has passed its check. -/
theorem ifMatchStep_cases (v : Vault) (calls : Nat → IfMatchCall) (id : NoteId) (t : IfMatchState)
    (e : IfMatchEvent) :
    v.ifMatchStep calls id t e = t ∨
      (∃ i, v.ifMatchStep calls id t e = ⟨t.vault, update t.progress i { t.progress i with
        seen := some (v.readNote t.vault id)
        result := ((calls i).conflict (v.readNote t.vault id)).map fun current =>
          .ok (.conflict current) }⟩) ∨
      ∃ i, e = .write i ∧ (t.progress i).seen.isSome ∧ (t.progress i).result = none ∧
        v.ifMatchStep calls id t e = ⟨(v.reply id (calls i) t.vault).2, update t.progress i { t.progress i with
          replaced := some (v.readNoteIn t.vault (v.target (calls i)) id)
          result := some (writtenOf (v.reply id (calls i) t.vault).1) }⟩ := by
  cases e with
  | check i =>
    rw [ifMatchStep]
    split
    · exact .inl rfl
    · exact .inr (.inl ⟨i, rfl⟩)
  | write i =>
    rw [ifMatchStep]
    split
    · rename_i existing hseen hres
      exact .inr (.inr ⟨i, rfl, by rw [hseen]; rfl, hres, rfl⟩)
    · exact .inl rfl

theorem answered_step (h : ∀ j, Answered (calls j) (t.progress j)) (e : IfMatchEvent) :
    ∀ j, Answered (calls j) ((v.ifMatchStep calls id t e).progress j) := by
  rcases ifMatchStep_cases v calls id t e with hsame | ⟨i, hnext⟩ | ⟨i, -, -, hres, hnext⟩
  · rw [hsame]
    exact h
  · rw [hnext]
    refine (forall_update_iff t.progress fun j p => Answered (calls j) p).2 ⟨⟨?_, ?_, ?_⟩, fun j _ => h j⟩
    · intro current hconfl
      obtain ⟨current', hconflict', heq⟩ := map_eq_some_iff.1 hconfl
      cases heq
      obtain ⟨note, hnote, hcur, hne⟩ := IfMatchCall.conflict_eq_some_iff.1 hconflict'
      exact ⟨note, congrArg some hnote, hcur, hne⟩
    · intro hno note hseen
      apply IfMatchCall.conflict_eq_none_iff.1 _ note (Option.some.inj hseen)
      cases hconfl : (calls i).conflict (v.readNote t.vault id) with
      | none => rfl
      | some current => exact absurd (by rw [hconfl]; rfl) (hno current)
    · intro e hrefused
      obtain ⟨_, -, heq⟩ := map_eq_some_iff.1 hrefused
      cases heq
  · rw [hnext]
    refine (forall_update_iff t.progress fun j p => Answered (calls j) p).2 ⟨⟨?_, ?_, ?_⟩, fun j _ => h j⟩
    · intro current hconfl
      exact absurd (Option.some.inj hconfl) (writtenOf_ne_conflict _ current)
    · intro _
      apply (h i).passed
      intro current hconfl
      rw [hres] at hconfl
      cases hconfl
    · exact fun e hrefused => reply_error (Option.some.inj hrefused)

theorem answered_run (s : VaultState) (events : List IfMatchEvent) :
    ∀ j, Answered (calls j) ((run (v.ifMatchStep calls id) (.start s) events).progress j) := by
  have hstart : ∀ j, Answered (calls j) ((IfMatchState.start s).progress j) :=
    fun j => ⟨fun _ h => (by cases h), fun _ _ h => (by cases h), fun _ h => by cases h⟩
  let Inv (t : IfMatchState) : Prop := ∀ j, Answered (calls j) (t.progress j)
  have hstep : ∀ t e, Inv t → Inv (v.ifMatchStep calls id t e) := fun t e h => answered_step h e
  exact inv_run hstart hstep events

/-! ## 3. Calls that are not disturbed -/

def Undisturbed (v : Vault) (id : NoteId) (t : IfMatchState) : IfMatchEvent → Prop
  | .check _ => True
  | .write i => ∀ existing, (t.progress i).seen = some existing → (t.progress i).result = none →
      existing = v.readNote t.vault id

def ReplacesExpected (call : IfMatchCall) (p : IfMatchProgress) : Prop :=
  ∀ note, p.replaced = some (some note) → note.contentHash = call.expected

theorem passed_of_undisturbed (hansd : Answered (calls i) (t.progress i))
    (hundisturbed : Undisturbed v id t (.write i)) (hseen : (t.progress i).seen.isSome)
    (hres : (t.progress i).result = none) (hnote : v.readNote t.vault id = some note) :
    note.contentHash = (calls i).expected := by
  obtain ⟨existing, hex⟩ := isSome_iff_exists.1 hseen
  apply hansd.passed
  · intro current hconfl
    rw [hres] at hconfl
    cases hconfl
  · rw [hex, hundisturbed existing hex hres, hnote]

theorem replacesExpected_step (hserv : ∀ i, v.target (calls i) = v.vaultId)
    (hansd : ∀ j, Answered (calls j) (t.progress j))
    (h : ∀ j, ReplacesExpected (calls j) (t.progress j)) (he : Undisturbed v id t e) :
    ∀ j, ReplacesExpected (calls j) ((v.ifMatchStep calls id t e).progress j) := by
  rcases ifMatchStep_cases v calls id t e with hsame | ⟨i, hnext⟩ | ⟨i, rfl, hseen, hres, hnext⟩
  · rw [hsame]
    exact h
  · rw [hnext]
    exact (forall_update_iff t.progress fun j p => ReplacesExpected (calls j) p).2 ⟨h i, fun j _ => h j⟩
  · rw [hnext]
    refine (forall_update_iff t.progress fun j p => ReplacesExpected (calls j) p).2 ⟨?_, fun j _ => h j⟩
    intro note hnote
    have hread := Option.some.inj hnote
    rw [hserv i] at hread
    exact passed_of_undisturbed (hansd i) he hseen hres hread

def IsWritten (p : IfMatchProgress) : Prop := ∃ hash, p.result = some (.ok (.written hash))

structure OneWinner (v : Vault) (id : NoteId) (expected : ContentHash) (t : IfMatchState) : Prop where
  current : ∃ note row, v.readNote t.vault id = some note ∧ t.vault.notes ⟨v.vaultId, id⟩ = some row ∧
    row.contentHash = note.contentHash ∧ (note.contentHash = expected → ∀ i, ¬ IsWritten (t.progress i))
  unique : ∀ i j, IsWritten (t.progress i) → IsWritten (t.progress j) → i = j

/-- The vault stays as it is, and the call that moves has not written. -/
theorem OneWinner.keep (h : OneWinner v id expected t) (i : Nat) (hp : ¬ IsWritten p) :
    OneWinner v id expected ⟨t.vault, update t.progress i p⟩ := by
  have hold : ∀ j, IsWritten (update t.progress i p j) → IsWritten (t.progress j) :=
    (forall_update_iff t.progress fun j q => IsWritten q → IsWritten (t.progress j)).2
      ⟨fun hq => absurd hq hp, fun _ _ hq => hq⟩
  obtain ⟨note, row, hnote, hrow, hinst, hnone⟩ := h.current
  exact ⟨⟨note, row, hnote, hrow, hinst, fun hhash j hj => hnone hhash j (hold j hj)⟩,
    fun j k hj hk => h.unique j k (hold j hj) (hold k hk)⟩

theorem current_commit {note : Note}
    (hserv : v.target call = v.vaultId) (hrow : s.notes ⟨v.vaultId, id⟩ = some row)
    (hinst : row.contentHash = note.contentHash)
    (hfresh : (v.judged call.input call.frontmatter call.body id none s).note.contentHash ≠ note.contentHash) :
    let judged := v.judged call.input call.frontmatter call.body id none s
    v.readNote (v.commit call.input judged s) id = some judged.note ∧
      ∃ row', (v.commit call.input judged s).notes ⟨v.vaultId, id⟩ = some row' ∧
        row'.contentHash = judged.note.contentHash := by
  intro judged
  have hvault : judged.note.frontmatter.vaultId = v.vaultId := hserv
  have hnotes := commit_notes_self (v := v) call.input judged s
  rw [hvault] at hnotes
  constructor
  · have hread : FreshHash judged.note s → v.readNoteIn (v.commit call.input judged s)
        judged.note.frontmatter.vaultId judged.note.id = some judged.note := readNoteIn_commit call.input rfl
    rw [hvault] at hread
    apply hread
    intro old hold
    rw [hvault] at hold
    cases hold.symm.trans hrow
    rw [hinst]
    exact hfresh.symm
  · rw [show judged.note.id = id from rfl, hrow] at hnotes
    exact ⟨_, hnotes, rfl⟩

def WritesFresh (v : Vault) (calls : Nat → IfMatchCall) (id : NoteId) (expected : ContentHash) : Prop :=
  ∀ i s, (v.judged (calls i).input (calls i).frontmatter (calls i).body id none s).note.contentHash ≠ expected

theorem oneWinner_step (hserv : ∀ i, v.target (calls i) = v.vaultId)
    (hexp : ∀ i, (calls i).expected = expected) (hfresh : v.WritesFresh calls id expected)
    (hansd : ∀ j, Answered (calls j) (t.progress j)) (h : OneWinner v id expected t)
    (he : Undisturbed v id t e) : OneWinner v id expected (v.ifMatchStep calls id t e) := by
  rcases ifMatchStep_cases v calls id t e with hsame | ⟨i, hnext⟩ | ⟨i, rfl, hseen, hres, hnext⟩
  · rw [hsame]
    exact h
  · rw [hnext]
    apply h.keep
    rintro ⟨hash, hhash⟩
    obtain ⟨current, -, heq⟩ := map_eq_some_iff.1 hhash
    cases heq
  rw [hnext, reply]
  rcases writeNoteJudged_cases (v := v) (calls i).input (calls i).frontmatter (calls i).body id none
    t.vault with ⟨e, hreply⟩ | hreply
  · rw [hreply]
    apply h.keep
    rintro ⟨hash, hhash⟩
    cases hhash
  · -- the call has passed its check, so nothing has been written before
    obtain ⟨note, row, hnote, hrow, hinst, hnone⟩ := h.current
    have hhash : note.contentHash = expected := by
      rw [← hexp i]
      exact passed_of_undisturbed (hansd i) he hseen hres hnote
    have hnew := hfresh i t.vault
    obtain ⟨hread, row', hrow', hhash'⟩ := current_commit (hserv i) hrow hinst (by rw [hhash]; exact hnew)
    have honly : ∀ p j, IsWritten (update t.progress i p j) → j = i := fun p j hj => by
      by_contra hne
      rw [update_of_ne hne] at hj
      exact hnone hhash j hj
    rw [hreply]
    exact ⟨⟨_, row', hread, hrow', hhash', fun heq => absurd heq hnew⟩,
      fun j k hj hk => (honly _ j hj).trans (honly _ k hk).symm⟩

/-- A call that answers with a conflict saw, in the served vault, a note with another hash than it expects; one
that writes saw no note, or the one it expects.  If calls on the served vault are not disturbed between
their check and their write, the version that a call replaces is absent or has the hash it expects, and of
calls that expect the same hash of a note at most one writes; every other answer is a conflict, or the
refusal of a write that is to be masked. -/
theorem compareAndSwap (v : Vault) (calls : Nat → IfMatchCall) (id : NoteId) (s : VaultState)
    (events : List IfMatchEvent) :
    let t := run (v.ifMatchStep calls id) (.start s) events
    (∀ i, Answered (calls i) (t.progress i)) ∧
      ((∀ i, v.target (calls i) = v.vaultId) →
        EachStep (v.ifMatchStep calls id) (Undisturbed v id) (.start s) events →
          (∀ i, ReplacesExpected (calls i) (t.progress i)) ∧
            ∀ expected note row, (∀ i, (calls i).expected = expected) → v.WritesFresh calls id expected →
              v.readNote s id = some note → s.notes ⟨v.vaultId, id⟩ = some row →
              row.contentHash = note.contentHash →
              ∀ i j answer, IsWritten (t.progress i) → i ≠ j → (t.progress j).result = some answer →
                (∃ current, answer = .ok (.conflict current)) ∨ answer = .error .detectorUnavailable) := by
  intro t
  have hansd : ∀ events j, Answered (calls j)
      ((run (v.ifMatchStep calls id) (.start s) events).progress j) := answered_run s
  refine ⟨hansd events, fun hserv hsteps => ⟨?_, ?_⟩⟩
  · let Inv (t : IfMatchState) : Prop :=
      (∀ j, Answered (calls j) (t.progress j)) ∧ ∀ j, ReplacesExpected (calls j) (t.progress j)
    have hstart : Inv (.start s) := ⟨hansd [], fun _ _ hnote => by cases hnote⟩
    have hstep : ∀ t e, Inv t → Undisturbed v id t e → Inv (v.ifMatchStep calls id t e) := fun t e h he =>
      ⟨answered_step h.1 e, replacesExpected_step hserv h.1 h.2 he⟩
    exact (EachStep.inv_run hstart hstep hsteps).2
  · intro expected note row hexp hfresh hnote hrow hinst
    let Inv (t : IfMatchState) : Prop :=
      (∀ j, Answered (calls j) (t.progress j)) ∧ OneWinner v id expected t
    have hstart : Inv (.start s) := by
      refine ⟨hansd [], ⟨note, row, hnote, hrow, hinst, fun _ i hi => ?_⟩, fun i j hi => ?_⟩
      · obtain ⟨hash, hhash⟩ := hi
        cases hhash
      · obtain ⟨hash, hhash⟩ := hi
        cases hhash
    have hstep : ∀ t e, Inv t → Undisturbed v id t e → Inv (v.ifMatchStep calls id t e) := fun t e h he =>
      ⟨answered_step h.1 e, oneWinner_step hserv hexp hfresh h.1 h.2 he⟩
    have huniq := (EachStep.inv_run hstart hstep hsteps).2.unique
    intro i j answer hi hne hj
    cases answer with
    | error e => exact .inr (by rw [(hansd events j).refused e hj])
    | ok result =>
      cases result with
      | conflict current => exact .inl ⟨current, rfl⟩
      | written hash => exact absurd (huniq i j hi ⟨hash, hj⟩) hne

end Vault

/-- Calls that all expect the note as it was at time `0`. -/
def rivalCalls (i : Nat) : IfMatchCall := ⟨.at (i + 1), (plainNote 1 none "").frontmatter, toString i, 0⟩

/-- One after the other: the first call writes, the second one does not. -/
theorem compareAndSwap_serialCalls :
    let t := run (plainServer.vault.ifMatchStep rivalCalls 1) (.start (stateOf (plainNote 1 none "")))
      [.check 0, .write 0, .check 1, .write 1]
    Vault.IsWritten (t.progress 0) ∧ ∀ answer, (t.progress 1).result = some answer →
      (∃ current, answer = .ok (.conflict current)) ∨ answer = .error .detectorUnavailable := by
  intro t
  have hconfl : ((run (plainServer.vault.ifMatchStep rivalCalls 1) (.start (stateOf (plainNote 1 none "")))
      [.check 0, .write 0, .check 1]).progress 1).result.isSome = true := by decide +kernel
  have hsteps : EachStep (plainServer.vault.ifMatchStep rivalCalls 1) (Vault.Undisturbed plainServer.vault 1)
      (.start (stateOf (plainNote 1 none ""))) [.check 0, .write 0, .check 1, .write 1] := by
    refine ⟨trivial, fun existing hseen _ => (Option.some.inj hseen).symm, trivial,
      fun existing _ hres => ?_, trivial⟩
    cases hconfl.symm.trans (congrArg Option.isSome hres)
  have hfresh : plainServer.vault.WritesFresh rivalCalls 1 0 := by
    intro i s hhash
    have hstamp : ((i : Int) + 1).toNat = 0 := hhash
    omega
  have hfirst : Vault.IsWritten (t.progress 0) := ⟨1, rfl⟩
  have hothers := ((Vault.compareAndSwap plainServer.vault rivalCalls 1 (stateOf (plainNote 1 none ""))
    [.check 0, .write 0, .check 1, .write 1]).2 (fun _ => rfl) hsteps).2 0 (plainNote 1 none "") _
    (fun _ => rfl) hfresh rfl rfl rfl
  exact ⟨hfirst, fun answer hsecond => hothers 0 1 answer hfirst (by decide) hsecond⟩

def foreignCall : IfMatchCall :=
  ⟨.at 1, { (plainNote 1 none "").frontmatter with vaultId := "other" }, "", 7⟩

/-- A call is compared with no note at all, as the served vault has none. -/
theorem not_replacesExpected_foreignCall :
    ¬ (Vault.IsWritten ((run (plainServer.vault.ifMatchStep (fun _ => foreignCall) 1)
          (.start (stateOf ⟨1, foreignCall.frontmatter, "", 0⟩)) [.check 0, .write 0]).progress 0) →
      Vault.ReplacesExpected foreignCall ((run (plainServer.vault.ifMatchStep (fun _ => foreignCall) 1)
          (.start (stateOf ⟨1, foreignCall.frontmatter, "", 0⟩)) [.check 0, .write 0]).progress 0)) := by
  intro h
  have hrepl := h ⟨1, rfl⟩ _ rfl
  exact absurd hrepl (by decide)

end Gradatum.Notes
