import Gradatum.Access.Curate
import Gradatum.Access.Update
import Gradatum.Notes.Layout
import Gradatum.Reasoning.Run

/-!
# Souls

A note of the section `identity` under the title `identity/<agent>` is the soul of that agent.  Four endpoints
look at the note that the request names, `vault_write` at the title and the hint of the request.
-/

open Reasoning

namespace Gradatum.Access

open Notes ProjectMap Option List

/-! ## 1. Requests and jobs -/

def foreignSoul (trust : TrustContext) (s : VaultState) (key : NoteKey) : Bool :=
  match trust with
  | .bearerToken sub scopes _ => !scopes.contains identityWriteScope &&
      (s.notes key).any fun row => ForeignSoul sub row.section.asStr row.title
  | _ => false

/-- A job that waits, with the souls that its caller was not to change when the request came in. -/
structure SoulJob where
  spec : CurateSpec
  souls : NoteKey → Bool

structure SoulSystem where
  vault : IndexedVault
  pending : List SoulJob

inductive SoulEvent where
  | vaultWrite (trust : TrustContext) (fresh : NoteId) (req : VaultWriteRequest)
  | curate (index : Nat) (input : CurateInput)
  | vaultRestore (trust : TrustContext) (input : WriteInput) (req : VaultRestoreRequest)
  | vaultDowngrade (trust : TrustContext) (now : Int) (req : VaultDowngradeRequest)
  | patchNote (trust : TrustContext) (input : PatchInput) (text : String) (body : NoteStatusPatch)
  | moveNoteLocus (trust : TrustContext) (input : WriteInput) (text : String) (locus : LocusId)

def SoulSystem.protects (s : SoulSystem) : SoulEvent → NoteKey → Bool
  | .curate index _, key => s.pending[index]?.any (·.souls key)
  | .vaultWrite trust _ _, key => foreignSoul trust s.vault.state key
  | .vaultRestore trust _ _, key => foreignSoul trust s.vault.state key
  | .vaultDowngrade trust _ _, key => foreignSoul trust s.vault.state key
  | .patchNote trust _ _ _, key => foreignSoul trust s.vault.state key
  | .moveNoteLocus trust _ _ _, key => foreignSoul trust s.vault.state key

structure SoulContent where
  body : Option String
  title : Option String
  «section» : Section
  status : RowStatus
  locus : Option String
  deriving DecidableEq

namespace WriteApi

variable (api : WriteApi)

def soulStep (s : SoulSystem) : SoulEvent → SoulSystem
  | .vaultWrite trust fresh req =>
    match api.vaultWrite s.vault trust .external fresh req with
    | .ok spec => { s with pending := s.pending ++ [⟨spec, foreignSoul trust s.vault.state⟩] }
    | .error _ => s
  | .curate index input =>
    match s.pending[index]? with
    | some job =>
      { vault := api.afterCurate s.vault input job.spec, pending := s.pending.eraseIdx index }
    | none => s
  | .vaultRestore trust input req => { s with vault := api.afterRestore s.vault trust input req }
  | .vaultDowngrade trust now req => { s with vault := api.afterDowngrade s.vault trust now req }
  | .patchNote trust input text body => { s with vault := api.afterPatch s.vault trust input text body }
  | .moveNoteLocus trust input text locus => { s with vault := api.afterMove s.vault trust input text locus }

def soulContent (s : VaultState) (key : NoteKey) : Option SoulContent :=
  (s.notes key).map fun row =>
    { body := (api.server.vault.readNoteIn s key.vault key.id).map (·.body)
      title := row.title
      «section» := row.section
      status := row.status
      locus := row.locus }

def SoulsHold (s : SoulSystem) (es : List SoulEvent) : Prop :=
  EachStep api.soulStep (fun s e => ∀ key, s.protects e key = true →
    api.soulContent (api.soulStep s e).vault.state key = api.soulContent s.vault.state key) s es

/-- The request names the note by the text that the index knows, or the note is no soul of another agent. -/
def guardedRef (trust : TrustContext) (s : VaultState) (ref : NoteRef) : Bool :=
  ref.isCanonical || trust.tenantId.all fun tenant => !foreignSoul trust s ⟨tenant, ref.id⟩

/-- An accepted `vault_write` does not name the soul of another agent, and the other accepted requests name a
soul by the text that its guard looks up.  `patch_note` looks up the text of the ULID itself. -/
def safeSoulStep (s : SoulSystem) : SoulEvent → Bool
  | .vaultWrite trust fresh req =>
    match api.vaultWrite s.vault trust .external fresh req with
    | .ok spec => !foreignSoul trust s.vault.state spec.key
    | .error _ => true
  | .curate _ _ => true
  | .vaultRestore trust _ req => !(api.restoreChecks s.vault trust req).isOk || trust.tenantId.all fun tenant =>
    (api.resolveNoteRefOpt s.vault.answers tenant req.noteId).all (guardedRef trust s.vault.state)
  | .vaultDowngrade trust _ req => !(api.downgradeChecks s.vault trust req).isOk ||
    (api.parseUlid req.noteId).all fun id => guardedRef trust s.vault.state ⟨req.noteId, id⟩
  | .patchNote _ _ _ _ => true
  | .moveNoteLocus trust _ text _ => !(api.moveChecks s.vault trust text).isOk ||
    (api.parseUlid text).all fun id => guardedRef trust s.vault.state ⟨text, id⟩

end WriteApi

section Guard

theorem not_foreignSoul_of_guard (hcanon : ref.isCanonical = true)
    (h : enforceIdentityWriteGuard trust (resolveTitleSectionFailclosed s tenant ref).2
      (resolveTitleSectionFailclosed s tenant ref).1 = .ok ()) :
    foreignSoul trust s ⟨tenant, ref.id⟩ = false := by
  rw [enforceIdentityWriteGuard, require_eq_ok_iff, resolveTitleSectionFailclosed, getTitleSection,
    if_pos hcanon] at h
  cases trust with
  | bearerToken sub scopes owner =>
    cases hrow : s.notes ⟨tenant, ref.id⟩ with
    | none => simp [foreignSoul, hrow]
    | some row =>
      rw [hrow, map_some, getD_some] at h
      by_cases hscope : identityWriteScope ∈ scopes
      · simp [foreignSoul, hscope]
      · have hown := not_foreignSoul_of_identityAllowed hscope h
        simp [foreignSoul, hrow, hown]
  | _ => rfl

theorem not_foreignSoul_of_guardedRef (hten : trust.tenantId = some tenant)
    (hguarded : WriteApi.guardedRef trust s ref = true)
    (h : enforceIdentityWriteGuard trust (resolveTitleSectionFailclosed s tenant ref).2
      (resolveTitleSectionFailclosed s tenant ref).1 = .ok ()) :
    foreignSoul trust s ⟨tenant, ref.id⟩ = false := by
  rw [WriteApi.guardedRef, Bool.or_eq_true, hten, all_some, Bool.not_eq_true'] at hguarded
  rcases hguarded with hcanon | hother
  · exact not_foreignSoul_of_guard hcanon h
  · exact hother

end Guard

/-! ## 2. Steps -/

/-- A step that keeps the layout and these notes. -/
structure Spares (souls : NoteKey → Bool) (s s' : VaultState) : Prop where
  filed : Filed s'
  same : ∀ key, souls key = true → SameNote key.vault key.id s s'

theorem Spares.of_eq (h : Filed s) (heq : s' = s) : Spares souls s s' := by
  rw [heq]
  exact ⟨h, fun key _ => .refl key.vault key.id s⟩

theorem Spares.of_confined (h : Confined key s s') (hkey : souls key = false) : Spares souls s s' where
  filed := h.filed
  same := by
    intro key' hsoul
    apply h.only
    rintro rfl
    rw [hkey] at hsoul
    cases hsoul

namespace WriteApi

section Steps

variable {api : WriteApi}

theorem confined_handleCurate (h : Filed s) (input : CurateInput) (spec : CurateSpec) :
    Confined spec.key s (api.handleCurate input spec s).2 := by
  rcases api.handleCurate_cases input spec s with
    hsame | ⟨decisions, statusText, author, sec, status, -, -, -, hvault, -, hnew⟩
  · exact .of_eq _ h hsame
  · rw [hnew]
    exact ⟨(Vault.filed_commit h _).updateRow _ _, fun vault id hne => sameNote_curated hvault hne⟩

theorem spares_vaultRestore (h : Filed v.state) (input : WriteInput) (req : VaultRestoreRequest)
    (hsafe : api.safeSoulStep ⟨v, jobs⟩ (.vaultRestore trust input req) = true) :
    Spares (foreignSoul trust v.state) v.state (api.vaultRestore v trust input req).2 := by
  unfold vaultRestore
  split
  · exact .of_eq h rfl
  rename_i tenant id hchks
  obtain ⟨hten, ref, href, hguard, rfl⟩ := restoreChecks_ok hchks
  rw [safeSoulStep, hchks, hten, all_some, href, all_some] at hsafe
  rw [ofMutation_snd]
  exact .of_confined (Vault.confined_historyRestore h tenant input ref.id req.tsMs)
    (not_foreignSoul_of_guardedRef hten hsafe hguard)

theorem spares_vaultDowngrade (h : Filed v.state) (now : Int) (req : VaultDowngradeRequest)
    (hsafe : api.safeSoulStep ⟨v, jobs⟩ (.vaultDowngrade trust now req) = true) :
    Spares (foreignSoul trust v.state) v.state (api.vaultDowngrade v trust now req).2 := by
  rcases api.vaultDowngrade_cases v trust now req with hsame | ⟨tenant, id, _, f, hchks, -, hnew⟩
  · exact .of_eq h hsame
  obtain ⟨hten, hguard, hid, -⟩ := downgradeChecks_ok hchks
  rw [safeSoulStep, hchks, hid, all_some] at hsafe
  rw [guardText, hid] at hguard
  rw [hnew]
  exact .of_confined (.updateRow h _ f) (not_foreignSoul_of_guardedRef hten hsafe hguard)

theorem spares_moveNoteLocus (h : Filed v.state) (input : WriteInput) (text : String) (locus : LocusId)
    (hsafe : api.safeSoulStep ⟨v, jobs⟩ (.moveNoteLocus trust input text locus) = true) :
    Spares (foreignSoul trust v.state) v.state (api.moveNoteLocus v trust input text locus).2 := by
  rcases api.moveNoteLocus_cases v trust input text locus with hsame | ⟨tenant, id, hid, hchks, rfl, hnew⟩
  · exact .of_eq h hsame
  obtain ⟨hten, hguard⟩ := moveChecks_ok hchks
  rw [safeSoulStep, hchks, hid, all_some] at hsafe
  rw [guardText, hid] at hguard
  rw [hnew]
  exact .of_confined (Vault.confined_moveLocus h input locus id)
    (not_foreignSoul_of_guardedRef hten hsafe hguard)

theorem confined_patchNoteStatus (h : Filed s) (vault : VaultId) (now : Int) (id : NoteId)
    (status : Option RowStatus) (reason : Option String) (replacedBy : Option NoteId) :
    Confined ⟨vault, id⟩ s (s.patchNoteStatus vault now id status reason replacedBy).2 := by
  rw [VaultState.patchNoteStatus, VaultState.updateExisting_snd]
  exact .updateRow h _ _

theorem confined_patchNoteImpl (h : Filed v.state) {id : NoteId}
    (hchks : api.patchChecks v trust id = .ok tenant) (input : PatchInput) (body : NoteStatusPatch) :
    Confined ⟨tenant, id⟩ v.state (api.patchNoteImpl v trust input id body).2 := by
  rcases api.patchNoteImpl_cases v trust input id body with hsame | ⟨found, s, hfound, hstat, hcols⟩
  · exact .of_eq _ h hsame
  cases hchks.symm.trans hfound
  have hfirst : Confined ⟨tenant, id⟩ v.state s := by
    rcases hstat with rfl | ⟨target, rfl⟩
    · exact .of_eq _ h rfl
    · exact Vault.confined_updateNoteStatus h tenant input.changed input.write target body.statusReason id
  rcases hcols with heq | ⟨reason, other, heq⟩
  · rw [heq]
    exact hfirst
  · rw [heq]
    exact hfirst.trans (confined_patchNoteStatus hfirst.filed tenant input.now id none reason other)

theorem spares_patchNote (hulid : ∀ text id, api.parseUlid text = some id →
      api.parseUlid (ulidText id) = some id) (h : Filed v.state) (input : PatchInput) (text : String)
    (body : NoteStatusPatch) :
    Spares (foreignSoul trust v.state) v.state (api.patchNote v trust input text body).2 := by
  rcases api.patchNote_cases v trust input text body with hsame | ⟨id, hid, hpatch⟩
  · exact .of_eq h hsame
  cases hchks : api.patchChecks v trust id with
  | error e =>
    have himpl : api.patchNoteImpl v trust input id body = (.error (.api e), v.state) := by
      rw [patchNoteImpl, hchks]
    rw [himpl] at hpatch
    rcases hpatch with hsame | ⟨_, _, _, hok, _⟩
    · exact .of_eq h hsame
    · cases hok
  | ok tenant =>
    obtain ⟨hten, hguard⟩ := patchChecks_ok hchks
    rw [guardText, hulid text id hid] at hguard
    have hother : foreignSoul trust v.state ⟨tenant, id⟩ = false :=
      not_foreignSoul_of_guard (NoteRef.isCanonical_ofId id) hguard
    have himpl := confined_patchNoteImpl h hchks input body
    rcases hpatch with heq | ⟨owner, tags, howner, -, heq⟩
    · rw [heq]
      exact .of_confined himpl hother
    cases hten.symm.trans howner
    rw [heq]
    exact .of_confined (himpl.trans (Vault.confined_addTags himpl.filed tenant input.tags tags id)) hother

end Steps

/-! ## 3. Runs -/

section Runs

variable {api : WriteApi} {s : SoulSystem} {e : SoulEvent} {es : List SoulEvent}

structure SoulsGuarded (s : SoulSystem) : Prop where
  filed : Filed s.vault.state
  jobs : ∀ job ∈ s.pending, job.souls job.spec.key = false

theorem soulContent_eq {s s' : VaultState} (h : SameNote key.vault key.id s s') :
    api.soulContent s' key = api.soulContent s key := by
  have hrow : s'.notes key = s.notes key := h.row
  rw [soulContent, soulContent, hrow, Vault.readNoteIn_of_sameNote h]

theorem spares_soulStep (hulid : ∀ text id, api.parseUlid text = some id →
      api.parseUlid (ulidText id) = some id) (hs : SoulsGuarded s) (he : api.safeSoulStep s e = true) :
    Spares (s.protects e) s.vault.state (api.soulStep s e).vault.state := by
  cases e with
  | vaultWrite trust fresh req =>
    refine .of_eq hs.filed ?_
    rw [soulStep]
    split <;> rfl
  | curate index input =>
    rw [soulStep]
    split
    · rename_i job hjob
      refine .of_confined (confined_handleCurate hs.filed input job.spec) ?_
      rw [SoulSystem.protects, hjob, any_some]
      exact hs.jobs job (mem_of_getElem? hjob)
    · exact .of_eq hs.filed rfl
  | vaultRestore trust input req => exact spares_vaultRestore hs.filed input req he
  | vaultDowngrade trust now req => exact spares_vaultDowngrade hs.filed now req he
  | patchNote trust input text body => exact spares_patchNote hulid hs.filed input text body
  | moveNoteLocus trust input text locus => exact spares_moveNoteLocus hs.filed input text locus he

theorem soulsGuarded_soulStep (hulid : ∀ text id, api.parseUlid text = some id →
      api.parseUlid (ulidText id) = some id) (hs : SoulsGuarded s) (he : api.safeSoulStep s e = true) :
    SoulsGuarded (api.soulStep s e) where
  filed := (spares_soulStep hulid hs he).filed
  jobs := by
    cases e with
    | vaultWrite trust fresh req =>
      rw [soulStep]
      split
      · rename_i spec hspec
        intro job hjob
        rcases mem_append.1 hjob with hold | hnew
        · exact hs.jobs job hold
        · rw [mem_singleton.1 hnew]
          rw [safeSoulStep, hspec, Bool.not_eq_true'] at he
          exact he
      · exact hs.jobs
    | curate index input =>
      rw [soulStep]
      split
      · exact fun job hjob => hs.jobs job (mem_of_mem_eraseIdx hjob)
      · exact hs.jobs
    | vaultRestore | vaultDowngrade | patchNote | moveNoteLocus => exact hs.jobs

/-- In a run of safe steps no soul is changed by a request of another agent. -/
theorem soulsHold_of_safe (hulid : ∀ text id, api.parseUlid text = some id →
      api.parseUlid (ulidText id) = some id) (v : IndexedVault) (hv : Filed v.state)
    (hsafe : EachStep api.soulStep (fun s e => api.safeSoulStep s e = true) ⟨v, []⟩ es) :
    api.SoulsHold ⟨v, []⟩ es := by
  have hs : SoulsGuarded ⟨v, []⟩ := ⟨hv, fun _ hjob => absurd hjob not_mem_nil⟩
  apply hsafe.imp_of_inv hs fun _ _ => soulsGuarded_soulStep hulid
  intro s e hs he key hkey
  exact soulContent_eq ((spares_soulStep hulid hs he).same key hkey)

end Runs

end WriteApi

/-! ## 4. The soul of an agent -/

def soulBody : String := "## INVARIANTS\nINV-CANARY\n## GATES\nNone.\n## NARRATIVE\nI am other."

def writesSoul : List SoulEvent :=
  [.vaultWrite (.bearerToken "other" ["write"] "main") 1
      { title := "identity/other", body := soulBody, sectionHint := some "identity" },
    .curate 0 ⟨.rejected, 0, .at 7⟩]

/-- Another agent is refused the soul and its status. -/
theorem soulsHold_writesSoul :
    plainWriteApi.SoulsHold ⟨.empty, []⟩ (writesSoul ++
      [.vaultWrite (bearerOf "main") 2
          { title := "identity/other", body := soulBody, sectionHint := some "identity",
            noteId := some (ulidText 1), expectedSha256 := some (hexText 7) },
        .vaultDowngrade (bearerOf "main") 8 { noteId := ulidText 1, reason := "gone" }]) := by
  apply WriteApi.soulsHold_of_safe
  · intro text id hid
    have hfound : (List.range 4).find? (fun id => ulidText id = text) = some id := hid
    have htext := find?_some hfound
    rw [of_decide_eq_true htext]
    exact hid
  · exact ⟨fun _ _ hfile => (some_ne_none _ hfile.symm).elim, fun _ _ _ hmem => by cases hmem⟩
  · exact ⟨by decide +kernel, by decide +kernel, by decide +kernel, by decide +kernel, trivial⟩

def overwritesSoul : List SoulEvent :=
  [.vaultWrite (bearerOf "main") 2
      { title := "Notes", body := "Other was here.", sectionHint := some "debug",
        noteId := some (ulidText 1), expectedSha256 := some (hexText 7) },
    .curate 0 ⟨.rejected, 0, .at 8⟩]

/-- `vault_write` does not look at the note that it replaces. -/
theorem not_soulsHold_overwritesSoul :
    ¬ plainWriteApi.SoulsHold ⟨.empty, []⟩ (writesSoul ++ overwritesSoul) := by
  intro h
  have hlast := eachStep_iff_forall_append.1 h (writesSoul ++ overwritesSoul.take 1)
    (.curate 0 ⟨.rejected, 0, .at 8⟩) prefix_rfl ⟨"main", 1⟩ (by decide +kernel)
  have hbody := congrArg (fun content => content.map (·.body)) hlast
  revert hbody
  decide +kernel

end Gradatum.Access
