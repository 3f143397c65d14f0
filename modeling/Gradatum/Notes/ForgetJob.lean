import Gradatum.Notes.Forget
import Gradatum.Notes.Text

/-!
# The forget job

`handle_forget` lists the notes of its scope, sets the protected ones aside, refuses to go on unless what
remains is what the caller confirmed, and takes those notes one by one.
-/

namespace Gradatum.Notes

open List Vault

/-! ## 1. Protected notes -/

def Section.protectedForget : List Section := [.agentIssues, .council, .projectMap, .identity]

def Section.identityPersonCarveout (title : String) : Bool := title.startsWith "identity/person/"

def Section.isForgetProtected (sec title : String) : Bool :=
  if sec = Section.identity.asStr then !Section.identityPersonCarveout title
  else Section.protectedForget.any fun s => s.asStr = sec

/-- The heading on the first line of a body. -/
def extractH1Title (body : String) : Option String :=
  match body.toList.takeWhile (· ≠ '\n') with
  | '#' :: ' ' :: rest => if trim rest = [] then none else some (String.ofList (trim rest))
  | _ => none

/-! ## 2. The job -/

structure ForgetSpec where
  dryRun : Bool
  confirmUlids : List NoteId
  forgottenBy : Option String

structure JobOutput where
  notesCreated : List NoteId := []
  notesModified : List NoteId
  resultNoteMd : String

def JobOutput.dryRun (wouldAffect : Nat) (description : String) : JobOutput where
  notesModified := []
  resultNoteMd := s!"## DRY-RUN — {description}\n\n" ++
    "**Simulation only — no writes performed.**\n\n" ++
    s!"Notes that would have been affected: {wouldAffect}\n"

structure HandlerError where
  message : String

/-- What a scope resolves to: one query over the rows of a vault, so no note is listed twice.  Each note
comes with what its turn takes from outside. -/
structure Candidates where
  turns : List (NoteId × ForgetInput)
  nodup : (turns.map Prod.fst).Nodup

structure ForgetCounts where
  forgotten : List NoteId
  skipped : Nat

namespace Server

variable (srv : Server)

def isProtected (vault : VaultId) (s : VaultState) (id : NoteId) : Bool :=
  match srv.vault.readNoteIn s (srv.readerVault vault) id with
  | none => true
  | some dto =>
    Section.isForgetProtected dto.frontmatter.section.asStr ((extractH1Title dto.body).getD "")

def eligible (vault : VaultId) (candidates : Candidates) (s : VaultState) :
    List (NoteId × ForgetInput) :=
  candidates.turns.filter fun turn => !srv.isProtected vault s turn.1

def forgetEach (vault : VaultId) (forgottenBy : Option String) :
    List (NoteId × ForgetInput) → VaultState → ForgetCounts × VaultState
  | [], s => (⟨[], 0⟩, s)
  | (id, input) :: rest, s =>
    let (counted, s) := srv.handleForgetNote input vault forgottenBy id s
    let (counts, s) := forgetEach vault forgottenBy rest s
    (if counted then { counts with forgotten := id :: counts.forgotten }
      else { counts with skipped := counts.skipped + 1 }, s)

/-- `dryRun` is the mode of the job; the spec can ask for a preview, too.  The lists are compared sorted,
that is, up to their order. -/
def handleForget (dryRun : Bool) (spec : ForgetSpec) (vault : VaultId) (candidates : Candidates)
    (s : VaultState) : Except HandlerError JobOutput × VaultState :=
  let eligible := srv.eligible vault candidates s
  let eligibleCount := eligible.length
  let excludedCount := candidates.turns.length - eligibleCount
  if dryRun || spec.dryRun then
    let description :=
      if eligibleCount = 0 then
        s!"forget dry-run — no eligible note (exclusions: {excludedCount})"
      else
        s!"forget dry-run — {eligibleCount} eligible note(s), {excludedCount} excluded"
    (.ok (.dryRun eligibleCount description), s)
  else if !(eligible.map Prod.fst).isPerm spec.confirmUlids then
    let provided := spec.confirmUlids.length
    (.error ⟨"forget: confirm_ulids does not match the resolved ULIDs — " ++
      s!"expected={eligibleCount}, provided={provided}. " ++
      "Re-run a preview and confirm the exact ULIDs."⟩, s)
  else
    let (counts, s) := srv.forgetEach vault spec.forgottenBy eligible s
    let forgottenCount := counts.forgotten.length
    let skipped := counts.skipped
    (.ok
      { notesModified := counts.forgotten
        resultNoteMd := s!"semantic forget: {forgottenCount} note(s) forgotten, " ++
          s!"{skipped} skipped, {excludedCount} excluded (protected sections)" }, s)

end Server

/-! ## 3. The loop -/

section Loop

variable (srv : Server) (vault : VaultId) (forgottenBy : Option String) {id : NoteId}

theorem sameNote_forgetEach (vault' : VaultId) (s : VaultState) (hturns : ∀ turn ∈ turns, turn.1 ≠ id) :
    SameNote vault' id s (srv.forgetEach vault forgottenBy turns s).2 := by
  induction turns generalizing s with
  | nil => exact .refl vault' id s
  | cons turn rest ih =>
    have hturn : SameNote vault' id s
        (srv.handleForgetNote turn.2 vault forgottenBy turn.1 s).2 :=
      sameNote_handleForgetNote vault' s (hturns turn mem_cons_self)
    exact hturn.trans (ih _ fun turn' hmem => hturns turn' (mem_cons_of_mem _ hmem))

variable {srv vault forgottenBy}

theorem mem_forgetEach_cons : id ∈ (srv.forgetEach vault forgottenBy (turn :: turns) s).1.forgotten ↔
      (id = turn.1 ∧ (srv.handleForgetNote turn.2 vault forgottenBy turn.1 s).1 = true) ∨
        id ∈ (srv.forgetEach vault forgottenBy turns
          (srv.handleForgetNote turn.2 vault forgottenBy turn.1 s).2).1.forgotten := by
  rw [Server.forgetEach]
  generalize srv.handleForgetNote turn.2 vault forgottenBy turn.1 s = turned
  cases hcntd : turned.1 with
  | true => simp [hcntd]
  | false => simp [hcntd]

theorem exists_turn_of_mem_forgetEach (h : id ∈ (srv.forgetEach vault forgottenBy turns s).1.forgotten) :
    ∃ input, (id, input) ∈ turns := by
  induction turns generalizing s with
  | nil => cases h
  | cons turn rest ih =>
    rcases mem_forgetEach_cons.1 h with ⟨rfl, -⟩ | hrest
    · exact ⟨turn.2, mem_cons_self⟩
    · obtain ⟨input, hmem⟩ := ih hrest
      exact ⟨input, mem_cons_of_mem _ hmem⟩

variable (srv vault forgottenBy)

theorem forgetEach_of_mem (s : VaultState) (hnodup : (turns.map Prod.fst).Nodup)
    (hmem : (id, input) ∈ turns) : ∃ s₁, (∀ vault', SameNote vault' id s s₁) ∧
      (∀ vault', SameNote vault' id (srv.handleForgetNote input vault forgottenBy id s₁).2
        (srv.forgetEach vault forgottenBy turns s).2) ∧
      (id ∈ (srv.forgetEach vault forgottenBy turns s).1.forgotten →
        (srv.handleForgetNote input vault forgottenBy id s₁).1 = true) := by
  induction turns generalizing s with
  | nil => cases hmem
  | cons turn rest ih =>
    rw [map_cons, nodup_cons] at hnodup
    obtain ⟨hnot, hrest⟩ := hnodup
    rcases mem_cons.1 hmem with rfl | hlater
    · -- its turn is the first, and no later one is about it
      refine ⟨s, fun vault' => .refl vault' id s, fun vault' => ?_, fun hcntd => ?_⟩
      · apply sameNote_forgetEach
        intro turn hturn heq
        have hmem := List.mem_map_of_mem (f := Prod.fst) hturn
        rw [heq] at hmem
        exact hnot hmem
      · rcases mem_forgetEach_cons.1 hcntd with ⟨-, htrue⟩ | hlater
        · exact htrue
        · obtain ⟨input', hturn⟩ := exists_turn_of_mem_forgetEach hlater
          exact absurd (List.mem_map_of_mem hturn) hnot
    · -- the first turn is another note's
      have hne : turn.1 ≠ id := by
        intro heq
        exact hnot (heq ▸ List.mem_map_of_mem hlater)
      obtain ⟨s₁, hbef, hafter, hcntd⟩ :=
        ih (srv.handleForgetNote turn.2 vault forgottenBy turn.1 s).2 hrest hlater
      refine ⟨s₁, fun vault' => ?_, hafter, fun h => ?_⟩
      · exact (sameNote_handleForgetNote vault' s hne).trans (hbef vault')
      rcases mem_forgetEach_cons.1 h with ⟨heq, -⟩ | hlater
      · exact absurd heq.symm hne
      · exact hcntd hlater

end Loop

/-! ## 4. Which notes are counted -/

def VaultState.isForgotten (s : VaultState) (key : NoteKey) : Bool := (s.notes key).any (·.forgotten)

/-- The turn of a note counts it if the file already says that it is forgotten, or the write of the new
version is not refused. -/
def Server.turnCounts (srv : Server) (vault : VaultId) (s : VaultState) (turn : NoteId × ForgetInput) :
    Bool :=
  match srv.vault.readNoteIn s (srv.readerVault vault) turn.1 with
  | none => false
  | some dto => dto.frontmatter.forgotten.getD false || !srv.vault.refuses turn.2.write none

section Counts

variable {srv : Server} {s : VaultState} {id : NoteId}

theorem isForgotten_setMark (hf : ∀ row, (f row).forgotten = true) (hrow : (s.notes ⟨vault, id⟩).isSome)
    (key : NoteKey) : (s.setMark vault id f).2.isForgotten key = true ↔
      s.isForgotten key = true ∨ key = ⟨vault, id⟩ := by
  obtain ⟨row, hrow⟩ := Option.isSome_iff_exists.1 hrow
  rw [setMark_of_row hrow]
  by_cases hkey : key = ⟨vault, id⟩
  · subst hkey
    simp [VaultState.isForgotten, hrow, hf row]
  · simp [VaultState.isForgotten, s.updateRow_of_ne f hkey, hkey]

theorem Vault.isForgotten_commit (v : Vault) (input : WriteInput) (judged : Judged) (key : NoteKey) :
    (v.commit input judged s).isForgotten key = s.isForgotten key := by
  unfold VaultState.isForgotten
  by_cases hkey : key = ⟨judged.note.frontmatter.vaultId, judged.note.id⟩
  · rw [hkey, commit_notes_self]
    cases s.notes ⟨judged.note.frontmatter.vaultId, judged.note.id⟩ with
    | none => rfl
    | some old => rfl
  · have hrow : (v.commit input judged s).notes key = s.notes key := Function.update_of_ne hkey _ _
    rw [hrow]

/-- A turn that does not count changes nothing; one that counts ends with a mark, and has touched no mark
before. -/
theorem handleForgetNote_turn (srv : Server) (input : ForgetInput) (vault : VaultId)
    (forgottenBy : Option String) (id : NoteId) (s : VaultState) :
    (srv.turnCounts vault s (id, input) = false ∧
        srv.handleForgetNote input vault forgottenBy id s = (false, s)) ∨
      (srv.turnCounts vault s (id, input) = true ∧ ∃ (s₁ : VaultState) (f : NoteRow → NoteRow),
          srv.handleForgetNote input vault forgottenBy id s = (true, (s₁.setMark vault id f).2) ∧
          (∀ row, (f row).forgotten = true) ∧ (∀ key, s₁.isForgotten key = s.isForgotten key) ∧
          ((s.notes ⟨vault, id⟩).isSome → (s₁.notes ⟨vault, id⟩).isSome)) := by
  unfold Server.handleForgetNote Server.turnCounts
  cases hread : srv.vault.readNoteIn s (srv.readerVault vault) id with
  | none => exact .inl ⟨rfl, rfl⟩
  | some dto =>
    dsimp only
    by_cases hforg : dto.frontmatter.forgotten.getD false = true
    · rw [if_pos hforg, hforg]
      exact .inr ⟨rfl, s, NoteRow.reassertForgotten, rfl, fun _ => rfl, fun _ => rfl, fun h => h⟩
    rw [if_neg hforg]
    rw [Bool.not_eq_true] at hforg
    rw [hforg, Bool.false_or]
    unfold Server.handlePersistForget
    simp only [Section.fromCanonicalStr_asStr, hread]
    generalize forgottenFrontmatter input dto.frontmatter.section forgottenBy dto.frontmatter =
      written
    -- the vault is checked against itself, so only the privacy policy can refuse
    simp only [writeNoteWithIdInternal, ne_eq, not_true_eq_false, and_false, if_false,
      writeNoteWithId, writeNoteJudged]
    cases hrefus : srv.vault.refuses input.write none with
    | true => exact .inl ⟨rfl, rfl⟩
    | false =>
      refine .inr ⟨rfl, _, _, rfl, fun _ => rfl, isForgotten_commit _ _ _, fun hrow => ?_⟩
      obtain ⟨row, hrow⟩ := Option.isSome_iff_exists.1 hrow
      obtain ⟨row', hrow'⟩ := exists_row_commit (v := srv.vault) hrow input.write
        (srv.vault.judged input.write written "" id none s)
      exact Option.isSome_of_eq_some hrow'

theorem handleForgetNote_counted (srv : Server) (input : ForgetInput) (vault : VaultId)
    (forgottenBy : Option String) (id : NoteId) (s : VaultState) :
    (srv.handleForgetNote input vault forgottenBy id s).1 = srv.turnCounts vault s (id, input) := by
  rcases handleForgetNote_turn srv input vault forgottenBy id s with
    ⟨hcnts, hturn⟩ | ⟨hcnts, s₁, f, hturn, -⟩
  · rw [hturn, hcnts]
  · rw [hturn, hcnts]

theorem isForgotten_handleForgetNote (srv : Server) (input : ForgetInput) (forgottenBy : Option String)
    (hrow : (s.notes ⟨vault, id⟩).isSome) (key : NoteKey) :
    (srv.handleForgetNote input vault forgottenBy id s).2.isForgotten key = true ↔
      s.isForgotten key = true ∨ (key = ⟨vault, id⟩ ∧ srv.turnCounts vault s (id, input) = true) := by
  rcases handleForgetNote_turn srv input vault forgottenBy id s with
    ⟨hcnts, hturn⟩ | ⟨hcnts, s₁, f, hturn, hmarks, hbef, hkeeps⟩
  · rw [hturn, hcnts]
    simp
  · rw [hturn, hcnts, isForgotten_setMark hmarks (hkeeps hrow), hbef]
    simp

theorem turnCounts_congr (h : ∀ vault', SameNote vault' turn.1 s s') :
    srv.turnCounts vault s' turn = srv.turnCounts vault s turn := by
  unfold Server.turnCounts
  rw [readNoteIn_of_sameNote (h _)]

variable {turns : List (NoteId × ForgetInput)}

theorem sameNote_of_later {turn later : NoteId × ForgetInput} (srv : Server)
    (forgottenBy : Option String) (hnot : turn.1 ∉ turns.map Prod.fst) (hlater : later ∈ turns)
    (vault' : VaultId) :
    SameNote vault' later.1 s (srv.handleForgetNote turn.2 vault forgottenBy turn.1 s).2 := by
  apply sameNote_handleForgetNote
  intro heq
  exact hnot (heq ▸ List.mem_map_of_mem hlater)

theorem forgotten_forgetEach (srv : Server) (vault : VaultId) (forgottenBy : Option String)
    (s : VaultState) (hnodup : (turns.map Prod.fst).Nodup) :
    (srv.forgetEach vault forgottenBy turns s).1.forgotten =
      (turns.filter (srv.turnCounts vault s)).map Prod.fst := by
  induction turns generalizing s with
  | nil => rfl
  | cons turn rest ih =>
    rw [map_cons, nodup_cons] at hnodup
    obtain ⟨hnot, hnodup⟩ := hnodup
    have hfilt : rest.filter (srv.turnCounts vault
          (srv.handleForgetNote turn.2 vault forgottenBy turn.1 s).2) =
        rest.filter (srv.turnCounts vault s) :=
      filter_congr fun later hlater =>
        turnCounts_congr (sameNote_of_later srv forgottenBy hnot hlater)
    unfold Server.forgetEach
    dsimp only
    rw [handleForgetNote_counted]
    cases hcnts : srv.turnCounts vault s turn with
    | false =>
      rw [filter_cons_of_neg (by simp [hcnts])]
      exact (ih _ hnodup).trans (by rw [hfilt])
    | true =>
      rw [filter_cons_of_pos hcnts, map_cons]
      exact congrArg (turn.1 :: ·) ((ih _ hnodup).trans (by rw [hfilt]))

theorem isForgotten_forgetEach (srv : Server) (forgottenBy : Option String)
    (hnodup : (turns.map Prod.fst).Nodup)
    (hrows : ∀ turn ∈ turns, (s.notes ⟨vault, turn.1⟩).isSome) (key : NoteKey) :
    (srv.forgetEach vault forgottenBy turns s).2.isForgotten key = true ↔ s.isForgotten key = true ∨
        (key.vault = vault ∧ key.id ∈ (srv.forgetEach vault forgottenBy turns s).1.forgotten) := by
  induction turns generalizing s with
  | nil => simp [Server.forgetEach]
  | cons turn rest ih =>
    rw [map_cons, nodup_cons] at hnodup
    obtain ⟨hnot, hnodup⟩ := hnodup
    have hlater : ∀ later ∈ rest, ((srv.handleForgetNote turn.2 vault forgottenBy turn.1
        s).2.notes ⟨vault, later.1⟩).isSome := by
      intro later hmem
      rw [(sameNote_of_later srv forgottenBy hnot hmem vault).row]
      exact hrows later (mem_cons_of_mem _ hmem)
    have hturn := isForgotten_handleForgetNote srv turn.2 forgottenBy
      (hrows turn mem_cons_self) key
    rw [mem_forgetEach_cons, handleForgetNote_counted]
    show (srv.forgetEach vault forgottenBy rest
      (srv.handleForgetNote turn.2 vault forgottenBy turn.1 s).2).2.isForgotten key = true ↔ _
    rw [ih hnodup hlater, hturn]
    cases key
    simp only [NoteKey.mk.injEq]
    tauto

end Counts

/-! ## 5. The whole job -/

theorem handleForget_cases (srv : Server) (dryRun : Bool) (spec : ForgetSpec) (vault : VaultId)
    (candidates : Candidates) (s : VaultState) :
    ((srv.handleForget dryRun spec vault candidates s).2 = s ∧
        ∀ out, (srv.handleForget dryRun spec vault candidates s).1 = .ok out → out.notesModified = []) ∨
      ((srv.handleForget dryRun spec vault candidates s).2 =
          (srv.forgetEach vault spec.forgottenBy (srv.eligible vault candidates s) s).2 ∧
        ∀ out, (srv.handleForget dryRun spec vault candidates s).1 = .ok out → out.notesModified =
            (srv.forgetEach vault spec.forgottenBy (srv.eligible vault candidates s) s).1.forgotten) := by
  unfold Server.handleForget
  dsimp only
  split
  · left
    refine ⟨rfl, fun out hout => ?_⟩
    cases hout
    rfl
  · split
    · left
      refine ⟨rfl, fun out hout => ?_⟩
      cases hout
    right
    refine ⟨rfl, fun out hout => ?_⟩
    cases hout
    rfl

theorem handleForget_confirmed (srv : Server) (forgottenBy : Option String) (vault : VaultId)
    (candidates : Candidates) (s : VaultState) : ∃ out, srv.handleForget false
        ⟨false, (srv.eligible vault candidates s).map Prod.fst, forgottenBy⟩ vault candidates s =
          (.ok out, (srv.forgetEach vault forgottenBy (srv.eligible vault candidates s) s).2) ∧
      out.notesModified =
        (srv.forgetEach vault forgottenBy (srv.eligible vault candidates s) s).1.forgotten := by
  unfold Server.handleForget
  have hperm : ((srv.eligible vault candidates s).map Prod.fst).isPerm
      ((srv.eligible vault candidates s).map Prod.fst) = true := isPerm_iff.2 (.refl _)
  simp only [hperm, Bool.or_self, Bool.false_eq_true, if_false, Bool.not_true]
  exact ⟨_, rfl, rfl⟩

section Transport

variable {id : NoteId}

theorem forgetSafe_congr (h : SameNote vault id s s₁) :
    ForgetSafe v vault input id s₁ ↔ ForgetSafe v vault input id s := by
  unfold ForgetSafe
  rw [readNoteIn_of_sameNote h, h.row]

theorem ForgetPreserves.congr (h : ForgetPreserves v vault id s s') (hbef : SameNote vault id s s₁)
    (hafter : SameNote vault id s' s₁') : ForgetPreserves v vault id s₁ s₁' := by
  have hunf : (vaultUnforgot vault id s₁').2.notes ⟨vault, id⟩ =
      (vaultUnforgot vault id s').2.notes ⟨vault, id⟩ := by
    rw [vaultUnforgot_notes, vaultUnforgot_notes, hafter.row]
  constructor
  · rw [readNoteIn_of_sameNote hbef, readNoteIn_of_sameNote hafter]
    exact h.file
  · rw [hbef.row, hafter.row]
    exact h.row
  · rw [hbef.row, hunf]
    exact h.unforgot

theorem ForgetsFresh.congr (h : ForgetsFresh v vault input forgottenBy id s)
    (hsame : ∀ vault', SameNote vault' id s s₁) : ForgetsFresh v vault input forgottenBy id s₁ := by
  intro note hnote
  rw [readNoteIn_of_sameNote (hsame vault)] at hnote
  have hwrite : v.forgetWrite input forgottenBy note id s₁ =
      v.forgetWrite input forgottenBy note id s := by
    unfold forgetWrite judged
    dsimp only
    rw [readNoteIn_of_sameNote (hsame _)]
  intro row hrow
  rw [hwrite, forgetWrite, judged_id, (hsame _).row] at hrow
  rw [hwrite]
  exact h note hnote row hrow

end Transport

/-- A note that the job counts as forgotten lost nothing just if its row carried no mark and its file was
not rewritten or was bare: forgetting erases the body of every other note. -/
theorem forgetPreserves_iff_forgetSafe (srv : Server) (tenant : Tenant srv) (dryRun : Bool)
    (spec : ForgetSpec) (candidates : Candidates) (s : VaultState) (out : JobOutput) (id : NoteId)
    (input : ForgetInput) (hmasks : srv.vault.privacy.policy.masks = false)
    (hout : (srv.handleForget dryRun spec tenant.id candidates s).1 = .ok out)
    (hcounted : id ∈ out.notesModified) (hturn : (id, input) ∈ candidates.turns)
    (hfresh : ForgetsFresh srv.vault tenant.id input spec.forgottenBy id s) :
    ForgetPreserves srv.vault tenant.id id s (srv.handleForget dryRun spec tenant.id candidates s).2 ↔
      ForgetSafe srv.vault tenant.id input id s := by
  rcases handleForget_cases srv dryRun spec tenant.id candidates s with
    ⟨-, hnone⟩ | ⟨hstate, hforg⟩
  · rw [hnone out hout] at hcounted
    cases hcounted
  rw [hforg out hout] at hcounted
  rw [hstate]
  -- the note's turn among the eligible ones is the candidate's
  have hsub : (srv.eligible tenant.id candidates s).Sublist candidates.turns := filter_sublist
  obtain ⟨input', helig⟩ := exists_turn_of_mem_forgetEach hcounted
  have hinput : input' = input := by
    have hpair := inj_on_of_nodup_map candidates.nodup (hsub.subset helig) hturn rfl
    cases hpair
    rfl
  rw [hinput] at helig
  obtain ⟨s₁, hbef, hafter, hturned⟩ := forgetEach_of_mem srv tenant.id
    spec.forgottenBy s (candidates.nodup.sublist (hsub.map Prod.fst)) helig
  have hiff := forgetPreserves_handleForgetNote_iff hmasks (hturned hcounted)
    (hfresh.congr hbef)
  rw [forgetSafe_congr (hbef tenant.id)] at hiff
  rw [← hiff]
  constructor
  · intro h
    exact h.congr (hbef tenant.id) (hafter tenant.id).symm
  · intro h
    exact h.congr (hbef tenant.id).symm (hafter tenant.id)

def oneCandidate : Candidates where
  turns := [(1, ⟨1, .at 1, 1⟩)]
  nodup := by decide

def forgetOne (s : VaultState) : Except HandlerError JobOutput × VaultState :=
  plainServer.handleForget false ⟨false, [1], none⟩ "main" oneCandidate s

/-- A note without a body keeps what it has. -/
theorem forgetPreserves_emptyNote :
    ForgetPreserves plainServer.vault "main" 1 (stateOf (plainNote 1 none ""))
      (forgetOne (stateOf (plainNote 1 none ""))).2 := by
  apply (forgetPreserves_iff_forgetSafe plainServer plainTenant false ⟨false, [1], none⟩ oneCandidate
    (stateOf (plainNote 1 none "")) _ 1 ⟨1, .at 1, 1⟩ rfl rfl mem_cons_self
    mem_cons_self ?_).2
  · intro note row hnote hrow
    cases hnote
    cases hrow
    exact ⟨⟨rfl, rfl, rfl⟩, .inr (.inr ⟨rfl, rfl, rfl, rfl⟩)⟩
  · intro note hnote row hrow
    cases hnote
    cases hrow
    decide

/-- A live note with a body loses it. -/
theorem not_forgetPreserves_liveNote :
    (∃ out, (forgetOne (stateOf (plainNote 1 none "text"))).1 = .ok out ∧ 1 ∈ out.notesModified) ∧
      ¬ ForgetPreserves plainServer.vault "main" 1 (stateOf (plainNote 1 none "text"))
        (forgetOne (stateOf (plainNote 1 none "text"))).2 := by
  refine ⟨⟨_, rfl, mem_cons_self⟩, fun h => ?_⟩
  obtain ⟨note', hnote', hbody, -⟩ := h.file _ rfl
  cases hnote'
  exact absurd hbody (by decide)

end Gradatum.Notes
