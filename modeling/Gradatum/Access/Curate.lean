import Gradatum.Access.Write

/-!
# The job of a write

`handle_curate` asks the curator for a section and a verdict and sends the note to `persist_curated`,
with the hash that the request expected.  A hint that names a section is the curator's answer.
-/

open Reasoning

namespace Gradatum.Access

open Notes ProjectMap Option

/-! ## 1. The curator -/

structure CuratorDecisions where
  canonicalSection : String
  tags : List String
  deriving DecidableEq

inductive CurateOutcome where
  | admitted (decisions : CuratorDecisions)
  | pending (decisions : CuratorDecisions)
  | rejected
  deriving DecidableEq

/-- `process_traced`.  `otherwise` is the outcome of the heuristics and of the model, which are asked where
there is no valid hint. -/
def curatorProcess (sectionHint : Option String) (otherwise : CurateOutcome) : CurateOutcome :=
  match sectionHint.filter fun hint => (Section.fromCanonicalStr hint).isSome with
  | some hint => .admitted ⟨hint, []⟩
  | none => otherwise

def CurateOutcome.stored : CurateOutcome → Option (CuratorDecisions × String)
  | admitted decisions => some (decisions, "live")
  | pending decisions => some (decisions, "pending-review")
  | rejected => none

/-! ## 2. The job -/

def parseAuthor (text : String) : Option AuthorRef :=
  if trim text.toList = [] then none
  else
    match splitOnce ':' text with
    | none => some ⟨.mainAgent, text, none⟩
    | some ("human", id) => some ⟨.human, id, none⟩
    | some ("main-agent", id) => some ⟨.mainAgent, id, none⟩
    | some ("sub-agent", id) => some ⟨.subAgent, id, none⟩
    | some ("system", id) => some ⟨.system, id, none⟩
    | some _ => none

def resolveProvenance (sectionHint : Option String) : String :=
  (sectionHint.filter fun hint => (trustFor hint).isSome).getD "agent-log"

/-- The worker serves `main` alone, or any vault with a well-formed name. -/
def ensureJobTenant (tenant : VaultId) (multiTenant : Bool) : Bool :=
  if multiTenant then (VaultId.parse tenant).toOption.isSome else tenant = "main"

inductive CurateError where
  | tenant (tenant : VaultId)
  | author (author : Option String)
  | persist (e : PersistError)
  deriving DecidableEq

structure CurateInput where
  outcome : CurateOutcome
  persist : CuratedInput

namespace WriteApi

variable (api : WriteApi)

def persistRequest (spec : CurateSpec) (author : Option AuthorRef) (decisions : CuratorDecisions)
    (status : String) : PersistCuratedRequest where
  noteId := spec.noteId
  tenantId := spec.tenantId
  title := spec.title
  body := spec.body
  «section» := decisions.canonicalSection
  tags := api.parseTags (spec.tags ++ decisions.tags.filter (!spec.tags.contains ·))
  author := author
  status := status
  trust := none
  expectedSha256 := spec.expectedSha256
  provenance := some (resolveProvenance spec.sectionHint)
  targetVault := none

def handleCurate (input : CurateInput) (spec : CurateSpec) (s : VaultState) :
    Except CurateError Unit × VaultState :=
  if ensureJobTenant spec.tenantId api.policy.multiTenant then
    match (curatorProcess spec.sectionHint input.outcome).stored with
    | none => (.ok (), s)
    | some (decisions, status) =>
      -- the author is parsed where the note is persisted
      if spec.author.any fun author => (parseAuthor author).isNone then (.error (.author spec.author), s)
      else
        match api.server.handlePersistCurated input.persist
            (api.persistRequest spec (spec.author.bind parseAuthor) decisions status) s with
        | (.error e, s) => (.error (.persist e), s)
        | (.ok (), s) => (.ok (), s)
  else (.error (.tenant spec.tenantId), s)

theorem served_of_ensureJobTenant (h : ensureJobTenant tenant api.policy.multiTenant = true) :
    api.server.multiTenant = false → tenant = api.server.vault.vaultId := by
  intro hsing
  rw [ensureJobTenant, api.sameMode, hsing, if_neg Bool.false_ne_true, decide_eq_true_eq] at h
  rw [h, api.servesMain]

def curated (input : CuratedInput) (sec : Section) (status : NoteStatus) (req : PersistCuratedRequest)
    (s : VaultState) : VaultState :=
  (api.server.vault.commit input.write
    (api.server.vault.curatedJudged req.tenantId input sec status req s) s).updateRow
      ⟨req.tenantId, req.noteId⟩ (NoteRow.setCurated req.title req.trust)

/-- A job changes nothing, or it stores the note in a section and under a status that follow from the
outcome. -/
theorem handleCurate_cases (input : CurateInput) (spec : CurateSpec) (s : VaultState) :
    (api.handleCurate input spec s).2 = s ∨ ∃ decisions statusText author sec status,
        (curatorProcess spec.sectionHint input.outcome).stored = some (decisions, statusText) ∧
        Section.fromCanonicalStr decisions.canonicalSection = some sec ∧
        parseStatus statusText = some status ∧ spec.tenantId ≠ "" ∧
        (api.server.multiTenant = false → spec.tenantId = api.server.vault.vaultId) ∧
        (api.handleCurate input spec s).2 =
          api.curated input.persist sec status (api.persistRequest spec author decisions statusText) s := by
  unfold handleCurate
  split
  · rename_i hten
    split
    · exact .inl rfl
    rename_i decisions statusText hstor
    split
    · exact .inl rfl
    rcases handlePersistCurated_cases api.server input.persist
      (api.persistRequest spec (spec.author.bind parseAuthor) decisions statusText) s with
      ⟨e, hreply⟩ | ⟨sec, status, hsec, hstat, hvault, hreply⟩
    · rw [hreply]
      exact .inl rfl
    rw [hreply]
    exact .inr ⟨decisions, statusText, _, sec, status, hstor, hsec, hstat, hvault,
      api.served_of_ensureJobTenant hten, rfl⟩
  · exact .inl rfl

/-! ## 3. What it stores -/

section Stored

variable {api} {input : CuratedInput} {sec : Section} {status : NoteStatus}
  {req : PersistCuratedRequest} {s : VaultState}

def curatedNote (api : WriteApi) (input : CuratedInput) (sec : Section) (status : NoteStatus)
    (req : PersistCuratedRequest) (s : VaultState) : Note :=
  (api.server.vault.curatedJudged req.tenantId input sec status req s).note

theorem curatedNote_id : (api.curatedNote input sec status req s).id = req.noteId := rfl

theorem curatedNote_vaultId (hvault : req.tenantId ≠ "") :
    (api.curatedNote input sec status req s).frontmatter.vaultId = req.tenantId :=
  fillVaultId_curatedFrontmatter hvault

theorem curatedNote_locus : (api.curatedNote input sec status req s).frontmatter.locus = none := by
  show (api.server.vault.judged input.write (curatedFrontmatter input req.tenantId sec status req)
    req.body req.noteId none s).note.frontmatter.locus = none
  rw [Vault.judged_frontmatter]
  rfl

section

variable (hvault : req.tenantId ≠ "")

include hvault

theorem sameNote_curated {id : NoteId}
    (hne : (⟨vault, id⟩ : NoteKey) ≠ ⟨req.tenantId, req.noteId⟩) :
    SameNote vault id s (api.curated input sec status req s) := by
  have hother : (api.curatedNote input sec status req s).frontmatter.vaultId ≠ vault ∨
      (api.curatedNote input sec status req s).id ≠ id := by
    rw [curatedNote_vaultId hvault, curatedNote_id]
    by_contra hboth
    rw [not_or, not_not, not_not] at hboth
    exact hne (by rw [hboth.1, hboth.2])
  have hwrite : SameNote vault id s (api.server.vault.commit input.write
      (api.server.vault.curatedJudged req.tenantId input sec status req s) s) :=
    Vault.sameNote_commit s hother
  refine ⟨?_, hwrite.files⟩
  rw [← hwrite.row]
  exact VaultState.updateRow_of_ne _ _ hne

theorem curated_notes_self :
    (api.curated input sec status req s).notes ⟨req.tenantId, req.noteId⟩ =
      some (NoteRow.setCurated req.title req.trust
        (match s.notes ⟨req.tenantId, req.noteId⟩ with
          | none => rowOfNote api.server.vault.rolesOfBody (api.curatedNote input sec status req s)
          | some old => old.onConflict
              (rowOfNote api.server.vault.rolesOfBody (api.curatedNote input sec status req s)))) := by
  have hself := Vault.commit_notes_self (v := api.server.vault) input.write
    (api.server.vault.curatedJudged req.tenantId input sec status req s) s
  have hid : (api.server.vault.curatedJudged req.tenantId input sec status req s).note.id =
      req.noteId := rfl
  have hvaultId : (api.server.vault.curatedJudged req.tenantId input sec status
      req s).note.frontmatter.vaultId = req.tenantId := curatedNote_vaultId hvault
  rw [hid, hvaultId] at hself
  rw [curated, VaultState.updateRow_self, hself, map_some]
  rfl

theorem curated_files (dir : Option String) :
    (api.curated input sec status req s).files ⟨req.tenantId, dir, req.noteId⟩ =
      if dir = none then some (api.curatedNote input sec status req s).file
      else s.files ⟨req.tenantId, dir, req.noteId⟩ := by
  have hpath : noteMdRelativePath (api.curatedNote input sec status req s) =
      ⟨req.tenantId, none, req.noteId⟩ := by
    rw [noteMdRelativePath, curatedNote_vaultId hvault, curatedNote_locus, curatedNote_id]
    rfl
  show Function.update s.files (noteMdRelativePath (api.curatedNote input sec status req s))
    (some (api.curatedNote input sec status req s).file) _ = _
  rw [hpath, Function.update_apply]
  cases dir <;> simp

/-- A read of the note finds the version, or what it found before: a row that had the hash of the version
already keeps its locus. -/
theorem readNoteIn_curated {w : Vault}
    (hhash : w.contentHash = api.server.vault.contentHash) :
    w.readNoteIn (api.curated input sec status req s) req.tenantId req.noteId =
        some (api.curatedNote input sec status req s) ∨
      w.readNoteIn (api.curated input sec status req s) req.tenantId req.noteId =
        w.readNoteIn s req.tenantId req.noteId := by
  have hroot : (api.curated input sec status req s).files ⟨req.tenantId, none, req.noteId⟩ =
      some (api.curatedNote input sec status req s).file := by
    rw [curated_files hvault, if_pos rfl]
  have hdirs : ∀ l, (api.curated input sec status req s).files ⟨req.tenantId, some l, req.noteId⟩ =
      s.files ⟨req.tenantId, some l, req.noteId⟩ := by
    intro l
    rw [curated_files hvault, if_neg (some_ne_none l)]
  -- the row is new or it has the locus of the version, unless its hash is that of the version
  by_cases hlocus : ∃ old l, s.notes ⟨req.tenantId, req.noteId⟩ = some old ∧ old.locus = some l ∧
      l ≠ "" ∧ old.contentHash = (api.curatedNote input sec status req s).contentHash ∧
      (s.files ⟨req.tenantId, some l, req.noteId⟩).isSome
  · obtain ⟨old, l, hold, hl, hne, hsame, hfile⟩ := hlocus
    obtain ⟨file, hfile⟩ := isSome_iff_exists.1 hfile
    right
    have hrow : (old.onConflict (rowOfNote api.server.vault.rolesOfBody
        (api.curatedNote input sec status req s))).locus = some l := by
      rw [← hl]
      exact if_neg (not_not.2 hsame)
    simp [Vault.readNoteIn, curated_notes_self hvault, hold, Vault.readNoteFromRecord, consultedPaths,
      consultedDirs, NoteRow.setCurated, hrow, hl, hne, Option.filter, hdirs, hfile]
  · left
    rw [Vault.readNoteIn, curated_notes_self hvault, bind_some]
    generalize hrow : NoteRow.setCurated req.title req.trust _ = row
    -- the file at a locus that the row kept is not there
    have hkept : ∀ l, row.locus = some l → l ≠ "" →
        (api.curated input sec status req s).files ⟨req.tenantId, some l, req.noteId⟩ = none := by
      intro l hl hne
      rw [← hrow] at hl
      rw [hdirs]
      by_contra hsome
      cases hold : s.notes ⟨req.tenantId, req.noteId⟩ with
      | none =>
        rw [hold] at hl
        simp [NoteRow.setCurated, rowOfNote, curatedNote_locus] at hl
      | some old =>
        rw [hold] at hl
        simp only [NoteRow.setCurated, NoteRow.onConflict, rowOfNote, curatedNote_locus,
          map_none] at hl
        split at hl
        · cases hl
        rename_i hsame
        exact hlocus ⟨old, l, hold, hl, hne, not_not.1 hsame,
          isSome_iff_ne_none.2 hsome⟩
    have hfound : (consultedPaths req.tenantId row req.noteId).findSome?
        (api.curated input sec status req s).files =
          some (api.curatedNote input sec status req s).file := by
      cases hl : row.locus with
      | none => simp [consultedPaths, consultedDirs, hl, hroot]
      | some l =>
        by_cases hne : l = ""
        · simp [consultedPaths, consultedDirs, hl, hne, hroot, Option.filter]
        · simp [consultedPaths, consultedDirs, hl, hne, hroot, Option.filter, hkept l hl hne]
    rw [Vault.readNoteFromRecord, hfound, map_some, hhash]
    rfl

end

end Stored

theorem handleCurate_rows (input : CurateInput) (spec : CurateSpec) (s : VaultState) (key : NoteKey)
    (row : NoteRow) (h : (api.handleCurate input spec s).2.notes key = some row) :
    (s.notes key).isSome ∨ key ∈ [spec.key] := by
  rcases api.handleCurate_cases input spec s with
    hsame | ⟨decisions, statusText, author, sec, status, -, -, -, hvault, -, hstor⟩
  · rw [hsame] at h
    exact .inl (isSome_of_eq_some h)
  by_cases hkey : key = spec.key
  · exact .inr (List.mem_singleton.2 hkey)
  have hother : SameNote key.vault key.id s (api.curated input.persist sec status
      (api.persistRequest spec author decisions statusText) s) := sameNote_curated hvault hkey
  rw [hstor, hother.row] at h
  exact .inl (isSome_of_eq_some h)

def afterCurate (v : IndexedVault) (input : CurateInput) (spec : CurateSpec) : IndexedVault :=
  v.update [spec.key] (api.handleCurate input spec v.state).2 (api.handleCurate_rows input spec v.state)

end WriteApi

end Gradatum.Access
