import Gradatum.Access.Tracks

/-!
# Runs of track events

Downgrades and patches beside the writes, and the property that no track is left without its structure card:
when every step keeps it, and a vault in which a step does not.
-/

open Reasoning

namespace Gradatum.Access

open Notes ProjectMap List Option Function WriteApi

namespace WriteApi

/-! ## 1. Downgrades -/

section Downgrades

variable {api : WriteApi} {id : NoteId}

theorem boardOf_updateRow_downgraded (hf : ∀ row, (f row).status = .downgraded) :
    boardOf (s.updateRow key f) = update (boardOf s) key none := by
  rw [boardOf_eq_update fun key' hne => s.updateRow_of_ne f hne]
  congr 1
  rw [boardOf, VaultState.updateRow_self]
  cases s.notes key with
  | none => rfl
  | some row => simp [cardOf, isListedCard, hf row]

theorem mayReplace_of_restrictChildren (hsound : SoundBoard api.parseUlid (boardOf v.state))
    (hfile : (boardOf v.state ⟨tenant, id⟩).all (fun card => api.fileBody v tenant id = some card.body &&
      (api.standsFor card.body).all fun version => !isCarrier api.parseUlid v tenant version) = true)
    (h : api.restrictChildren v tenant id = .ok ()) :
    api.mayReplace v ⟨tenant, id⟩ none = true := by
  rw [mayReplace, Option.all_eq_true]
  intro card hcard
  rw [List.all_eq_true]
  intro version hver
  rw [hcard, all_some, Bool.and_eq_true, decide_eq_true_eq, fileBody, map_eq_some_iff,
    List.all_eq_true] at hfile
  obtain ⟨⟨note, hnote, hbody⟩, hcarrier⟩ := hfile
  have hbodySound := (hsound _ _ hcard).body
  -- the versions of a structure card are its one identity, for both readers
  have hidentity : structureCardIdentity api.parseUlid card.body = some version := by
    unfold standsFor at hver
    split at hver
    · rename_i hstruct
      obtain ⟨kind, project, hvalid⟩ := validateCardBody_ok hbodySound.valid
      obtain ⟨found, facts, -, hvers, -⟩ := structureFacts_of_valid hbodySound.valid hstruct
      obtain ⟨-, hplainVersions, hplainKinds⟩ := plainLinks_iff.1 hbodySound.plain
      rw [isStructureBody, hvalid.kinds] at hstruct
      rw [hvers, mem_singleton] at hver
      have hkind : (kindsOf (bodyLinks api.parseUlid card.body)).any KindKind.isStructure = true := by
        rw [hplainKinds, hvalid.kinds, any_cons, Bool.or_eq_true]
        exact .inl hstruct
      rw [structureCardIdentity, hplainVersions, hvers, hver]
      exact if_pos hkind
    · cases hver
  rw [restrictChildren, hnote] at h
  dsimp only at h
  rw [hbody, hidentity] at h
  dsimp only at h
  rw [require_eq_ok_iff] at h
  simp only [any_none, all_none, Bool.and_true, Bool.false_or, Bool.and_eq_true]
  exact ⟨h, hcarrier version hver⟩

theorem attached_downgrade (hs : api.Attached v)
    (hsafe : api.safeTrackStep v (.downgrade trust now req) = true) :
    api.Attached (api.trackStep v (.downgrade trust now req)) := by
  have hstate : (api.trackStep v (.downgrade trust now req)).state =
      (api.vaultDowngrade v trust now req).2 := rfl
  rcases api.vaultDowngrade_cases v trust now req with
    hsame | ⟨tenant, id, replacedBy, f, hchks, hf, hnew⟩
  · constructor
    · rw [hstate, hsame]
      exact hs.sound
    · rw [hstate, hsame]
      exact hs.intact
  · obtain ⟨hten, -, hid, hrestrict⟩ := downgradeChecks_ok hchks
    rw [safeTrackStep, hten, all_some, hid, all_some] at hsafe
    have hmay := mayReplace_of_restrictChildren hs.sound hsafe hrestrict
    have hboard : boardOf (api.trackStep v (.downgrade trust now req)).state =
        update (boardOf v.state) ⟨tenant, id⟩ none := by
      rw [hstate, hnew, boardOf_updateRow_downgraded hf]
    constructor
    · rw [hboard]
      exact soundBoard_update hs.sound fun card heq => by cases heq
    · rw [hboard]
      exact intact_remove hs.sound hs.intact hmay

end Downgrades

/-! ## 2. Patches -/

section Patches

variable {api : WriteApi} {s : VaultState} {id : NoteId} {outcomes : List (Option PassOutcome)}

theorem agrees_iff : api.agrees outcomes note row = true ↔
    (api.server.vault.fillVaultId note.frontmatter).vaultId = api.server.vault.vaultId ∧
      note.frontmatter.section = row.section ∧ note.body = row.bodyText ∧
      (row.section = .projectMap → row.status ≠ .downgraded) ∧
      ∀ outcome ∈ outcomes, (api.server.vault.privacy.maskedBody note.body outcome).1 = note.body := by
  simp only [agrees, Bool.and_eq_true, Bool.not_eq_true', decide_eq_true_eq, List.all_eq_true,
    Bool.and_eq_false_iff, decide_eq_false_iff_not, and_assoc, ← imp_iff_not_or, ne_eq]

def Agreeing (api : WriteApi) (outcomes : List (Option PassOutcome)) (id : NoteId) (s : VaultState) :
    Prop :=
  ∀ note row, api.server.vault.readNote s id = some note →
    s.notes ⟨api.server.vault.vaultId, id⟩ = some row → api.agrees outcomes note row = true

theorem boardOf_updateRow (hf : ∀ row, cardOf (f row) = cardOf row) :
    boardOf (s.updateRow key f) = boardOf s := by
  rw [boardOf_eq_update fun key' hne => s.updateRow_of_ne f hne]
  have hself : boardOf (s.updateRow key f) key = boardOf s key := by
    rw [boardOf, boardOf, VaultState.updateRow_self]
    cases s.notes key with
    | none => rfl
    | some row => exact hf row
  rw [hself, update_eq_self]

structure Rewrites (api : WriteApi) (id : NoteId) (s s' : VaultState) (note written : Note)
    (row : NoteRow) : Prop where
  before : s.notes ⟨api.server.vault.vaultId, id⟩ = some row
  after : s'.notes ⟨api.server.vault.vaultId, id⟩ =
    some (row.onConflict (rowOfNote api.server.vault.rolesOfBody written))
  others : ∀ key, key ≠ ⟨api.server.vault.vaultId, id⟩ → s'.notes key = s.notes key
  vault : written.frontmatter.vaultId = api.server.vault.vaultId
  «section» : written.frontmatter.section = row.section
  body : written.body = row.bodyText
  read : ∀ found, api.server.vault.readNote s' id = some found → found = written ∨ found = note

theorem rewrites_commit (hnote : api.server.vault.readNote s id = some note)
    (hrow : s.notes ⟨api.server.vault.vaultId, id⟩ = some row)
    (hagree : api.agrees outcomes note row = true)
    (hvault : frontmatter.vaultId = note.frontmatter.vaultId)
    (hsect : frontmatter.section = note.frontmatter.section) (hout : input.outcome ∈ outcomes) :
    api.Rewrites id s
      (api.server.vault.commit input (api.server.vault.judged input frontmatter note.body id none s) s)
      note (api.server.vault.judged input frontmatter note.body id none s).note row := by
  obtain ⟨hfil, hsec, hbody, -, hmask⟩ := agrees_iff.1 hagree
  generalize hwrit : api.server.vault.judged input frontmatter note.body id none s = written
  have hid : written.note.id = id := by
    rw [← hwrit, Vault.judged_id]
  have hwrittenVault : written.note.frontmatter.vaultId = api.server.vault.vaultId := by
    rw [← hfil, ← hwrit, Vault.judged_vaultId, Vault.fillVaultId_vaultId, Vault.fillVaultId_vaultId,
      hvault]
  have hwrittenSection : written.note.frontmatter.section = row.section := by
    rw [← hsec, ← hsect, ← hwrit, Vault.judged_frontmatter]
  have hhash : written.note.contentHash =
      api.server.vault.contentHash written.note.frontmatter written.note.body := by
    rw [← hwrit]
    rfl
  have hself := Vault.commit_notes_self (v := api.server.vault) input written s
  have hcases : s.notes ⟨written.note.frontmatter.vaultId, written.note.id⟩ = some row →
      row.section = written.note.frontmatter.section → _ := Vault.readNoteIn_commit_cases input hhash
  rw [hwrittenVault, hid] at hself hcases
  refine ⟨hrow, ?_, fun key hne => ?_, hwrittenVault, hwrittenSection, ?_, fun found hfound => ?_⟩
  · rw [hself, hrow]
  · apply update_of_ne
    rw [hwrittenVault, hid]
    exact hne
  · rw [← hbody, ← hwrit]
    exact hmask _ hout
  · rcases hcases hrow hwrittenSection.symm with hnew | hold
    · exact .inl (Option.some.inj (hfound.symm.trans hnew))
    · exact .inr (Option.some.inj (hfound.symm.trans (hold.trans hnote)))

section Rewrites

theorem boardOf_rewrites (h : api.Rewrites id s s' note written row)
    (hsound : SoundBoard api.parseUlid (boardOf s)) (hagree : api.agrees outcomes note row = true) :
    boardOf s' = boardOf s := by
  obtain ⟨-, -, -, hcard, -⟩ := agrees_iff.1 hagree
  have hstor := api.cardOf_stored written (some row)
  have hself : boardOf s' ⟨api.server.vault.vaultId, id⟩ = boardOf s ⟨api.server.vault.vaultId, id⟩ := by
    rw [boardOf, h.after, bind_some, hstor, h.section, h.body]
    by_cases hprojectMap : row.section = .projectMap
    · have hlist : cardOf row = some ⟨row.bodyText, row.roleKind⟩ := by
        simp [cardOf, isListedCard, hprojectMap, hcard hprojectMap]
      have hboard : boardOf s ⟨api.server.vault.vaultId, id⟩ = some ⟨row.bodyText, row.roleKind⟩ := by
        rw [boardOf, h.before, bind_some, hlist]
      have hkind : row.roleKind = (rolesOfBody api.parseUlid row.bodyText).kind :=
        (hsound _ _ hboard).roleKind
      rw [if_pos hprojectMap, hboard, cardOfBody, hkind]
    · rw [if_neg hprojectMap, boardOf, h.before, bind_some]
      simp [cardOf, isListedCard, hprojectMap]
  rw [boardOf_eq_update h.others, hself, update_eq_self]

theorem agreeing_rewrites (h : api.Rewrites id s s' note written row)
    (hagree : api.agrees outcomes note row = true) : api.Agreeing outcomes id s' := by
  obtain ⟨hfil, hsec, hbody, -, hmask⟩ := agrees_iff.1 hagree
  intro found row' hfound hrow'
  cases h.after.symm.trans hrow'
  have hlive : (row.onConflict (rowOfNote api.server.vault.rolesOfBody written)).status ≠ .downgraded :=
    fun heq => by cases heq
  apply agrees_iff.2
  rcases h.read found hfound with rfl | rfl
  · refine ⟨?_, rfl, rfl, fun _ => hlive, fun outcome hout => ?_⟩
    · rw [Vault.fillVaultId_vaultId, h.vault]
      split <;> rfl
    · rw [h.body, ← hbody]
      exact hmask outcome hout
  · exact ⟨hfil, hsec.trans h.section.symm, hbody.trans h.body.symm, fun _ => hlive, hmask⟩

end Rewrites

theorem board_of_cases (hsound : SoundBoard api.parseUlid (boardOf s))
    (hagree : api.Agreeing outcomes id s)
    (h : s' = s ∨ ∃ note frontmatter input, api.server.vault.readNote s id = some note ∧
      s' = api.server.vault.commit input
        (api.server.vault.judged input frontmatter note.body id none s) s ∧
      frontmatter.vaultId = note.frontmatter.vaultId ∧
      frontmatter.section = note.frontmatter.section ∧ input.outcome ∈ outcomes) :
    boardOf s' = boardOf s ∧ api.Agreeing outcomes id s' := by
  rcases h with rfl | ⟨note, frontmatter, input, hnote, rfl, hvault, hsec, hout⟩
  · exact ⟨rfl, hagree⟩
  obtain ⟨row, hrow⟩ := Vault.exists_row_of_readNoteIn hnote
  have hboth := hagree note row hnote hrow
  have hrewrites := rewrites_commit hnote hrow hboth hvault hsec hout
  exact ⟨boardOf_rewrites hrewrites hsound hboth, agreeing_rewrites hrewrites hboth⟩

theorem board_patchNoteStatus (hagree : api.Agreeing outcomes id s) :
    boardOf (s.patchNoteStatus tenant now id none reason other).2 = boardOf s ∧
      api.Agreeing outcomes id (s.patchNoteStatus tenant now id none reason other).2 := by
  rw [VaultState.patchNoteStatus, VaultState.updateExisting_snd]
  refine ⟨boardOf_updateRow fun row => rfl, ?_⟩
  intro note row' hnote hrow'
  rw [Vault.readNote] at hnote
  have hbef := (Vault.readNoteIn_updateRow (by intro row; rfl) s _ _ _).symm.trans hnote
  by_cases hkey : (⟨api.server.vault.vaultId, id⟩ : NoteKey) = ⟨tenant, id⟩
  · rw [hkey, VaultState.updateRow_self, map_eq_some_iff] at hrow'
    obtain ⟨row, hrow, rfl⟩ := hrow'
    rw [← hkey] at hrow
    exact hagree note row hbef hrow
  · rw [VaultState.updateRow_of_ne _ _ hkey] at hrow'
    exact hagree note row' hbef hrow'

theorem board_patchNoteImpl (hsound : SoundBoard api.parseUlid (boardOf v.state))
    (hagree : api.Agreeing [input.write.outcome, input.tags.outcome] id v.state) :
    boardOf (api.patchNoteImpl v trust input id body).2 = boardOf v.state ∧
      api.Agreeing [input.write.outcome, input.tags.outcome] id
        (api.patchNoteImpl v trust input id body).2 := by
  rcases api.patchNoteImpl_cases v trust input id body with hsame | ⟨tenant, s, -, hstat, hcols⟩
  · rw [hsame]
    exact ⟨rfl, hagree⟩
  have hfirst : boardOf s = boardOf v.state ∧
      api.Agreeing [input.write.outcome, input.tags.outcome] id s := by
    apply board_of_cases hsound hagree
    rcases hstat with rfl | ⟨target, rfl⟩
    · exact .inl rfl
    refine (updateNoteStatus_cases tenant input.changed input.write target body.statusReason id
      v.state).imp_right ?_
    rintro ⟨note, hnote, -, hnew⟩
    exact ⟨note, _, input.write, hnote, hnew, rfl, rfl, mem_cons_self⟩
  rcases hcols with hsame | ⟨reason, other, hnew⟩
  · rw [hsame]
    exact hfirst
  · rw [hnew, ← hfirst.1]
    exact board_patchNoteStatus hfirst.2

theorem boardOf_patchNote (hsound : SoundBoard api.parseUlid (boardOf v.state))
    (hsafe : api.safeTrackStep v (.patch trust input text body) = true) :
    boardOf (api.patchNote v trust input text body).2 = boardOf v.state := by
  rcases api.patchNote_cases v trust input text body with hsame | ⟨id, hid, hpatch⟩
  · rw [hsame]
  have hagree : api.Agreeing [input.write.outcome, input.tags.outcome] id v.state := by
    intro note row hnote hrow
    rw [safeTrackStep, hid, all_some, hnote, all_some, hrow] at hsafe
    exact hsafe
  have hfirst : boardOf (api.patchNoteImpl v trust input id body).2 = boardOf v.state ∧ _ :=
    board_patchNoteImpl hsound hagree
  obtain ⟨hboard, hagree'⟩ := hfirst
  rcases hpatch with hsame | ⟨tenant, tags, -, -, htags⟩
  · rw [hsame, hboard]
  have hlast := board_of_cases (hboard ▸ hsound) hagree'
    ((addTags_cases tenant input.tags tags id (api.patchNoteImpl v trust input id body).2).imp_right
      fun ⟨note, hnote, _, hnew⟩ =>
        ⟨note, _, input.tags, hnote, hnew, rfl, rfl, mem_cons_of_mem _ mem_cons_self⟩)
  rw [htags, hlast.1, hboard]

end Patches

/-! ## 3. Runs -/

section Runs

variable (api : WriteApi) (v : IndexedVault)

def CardBodies (vault : VaultId) (bodies : List String) : Prop :=
  ∀ body, body ∈ bodies ↔ ∃ id card, boardOf v.state ⟨vault, id⟩ = some card ∧ card.body = body

/-- Every track of a work card points at a structure card and resolves, a write of a card is accepted only
if its tracks do, and a structure card that is tracked stays. -/
structure TracksHold (v : IndexedVault) (es : List TrackEvent) : Prop where
  resolved : Always api.trackStep (fun v => ∀ i,
    Pointed (CardTracks api.parseUlid) (boardOf v.state) i →
      Provided (CardProvides api.parseUlid) (boardOf v.state) i ∧
        ∀ bodies, CardBodies v i.vault bodies → ∃ target,
          (StructureIndex.fromBodies api.parseUlid bodies).resolveTrack i.identity.1 i.identity.2 =
            .ok target) v es
  refused : EachStep api.trackStep (fun v e => ∀ spec input, api.trackJob v e = some (spec, input) →
    spec.sectionHint = some Section.projectMap.asStr →
      ∀ track ∈ tracksOf (structuralLinks api.parseUlid spec.body),
        Provided (CardProvides api.parseUlid) (boardOf v.state) ⟨spec.tenantId, track⟩) v es
  kept : EachStep api.trackStep (fun v e => ∀ i,
    Provided (CardProvides api.parseUlid) (boardOf v.state) i →
      Pointed (CardTracks api.parseUlid) (boardOf (api.trackStep v e).state) i →
        Provided (CardProvides api.parseUlid) (boardOf (api.trackStep v e).state) i) v es

variable {api v} {es : List TrackEvent} {e : TrackEvent}

theorem trackJob_safe (h : api.trackJob v e = some (spec, input)) (hsafe : api.safeTrackStep v e = true) :
    ∃ trust authority fresh req, api.vaultWrite v trust authority fresh req = .ok spec ∧
      api.safeTrackWrite v spec.tenantId fresh req input = true := by
  have hten : ∀ trust authority fresh req, api.vaultWrite v trust authority fresh req = .ok spec →
      trust.tenantId = some spec.tenantId := fun trust authority fresh req hwrite => by
    obtain ⟨prepared, hacc⟩ := vaultWrite_ok hwrite
    exact effectiveWriteVault_tenantId hacc.tenant
  cases e with
  | write trust authority fresh req input' =>
    rw [trackJob, map_eq_some_iff] at h
    obtain ⟨spec', hspec, heq⟩ := h
    cases heq
    have hwrite := toOption_eq_some_iff.1 hspec
    rw [safeTrackStep, hten trust authority fresh req hwrite] at hsafe
    exact ⟨trust, authority, fresh, req, hwrite, hsafe⟩
  | mutateRole trust tenantId item input' =>
    rw [trackJob] at h
    split at h
    · rename_i spec' hqueued
      cases h
      obtain ⟨req, hreq, hwrite⟩ := mutateRole_queued hqueued
      rw [safeTrackStep, hten trust .external 0 req hwrite, all_some, hreq] at hsafe
      exact ⟨trust, .external, 0, req, hwrite, hsafe⟩
    · cases h
  | downgrade | patch => cases h

theorem trackStep_of_trackJob (h : api.trackJob v e = some (spec, input)) :
    api.trackStep v e = api.afterCurate v input spec := by
  cases e with
  | write | mutateRole => rw [trackStep, h, runJob]
  | downgrade | patch => cases h

theorem attached_trackStep (hs : api.Attached v) (hsafe : api.safeTrackStep v e = true) :
    api.Attached (api.trackStep v e) := by
  cases hjob : api.trackJob v e with
  | some job =>
    obtain ⟨spec, input⟩ := job
    obtain ⟨trust, authority, fresh, req, hwrite, hsafeWrite⟩ := trackJob_safe hjob hsafe
    rw [trackStep_of_trackJob hjob]
    exact attached_afterCurate hs hwrite hsafeWrite
  | none =>
    cases e with
    | write | mutateRole =>
      rw [trackStep, hjob, runJob]
      exact hs
    | downgrade trust now req => exact attached_downgrade hs hsafe
    | patch trust input text body =>
      have hboard : boardOf (api.trackStep v (.patch trust input text body)).state = boardOf v.state :=
        boardOf_patchNote hs.sound hsafe
      constructor
      · rw [hboard]
        exact hs.sound
      · rw [hboard]
        exact hs.intact

theorem structureFacts_of_provided (hsound : SoundBoard api.parseUlid (boardOf v.state))
    (hbod : CardBodies v i.vault bodies)
    (h : Provided (CardProvides api.parseUlid) (boardOf v.state) i) :
    ∃ body ∈ bodies, ∃ facts, structureFacts api.parseUlid body = some (identityText i.identity, facts) := by
  obtain ⟨⟨vault, id⟩, card, hcard, hvault, hstruct, -, hver⟩ := h
  cases (hvault : vault = i.vault)
  obtain ⟨version, facts, -, hvers, hfacts⟩ :=
    structureFacts_of_valid (hsound _ _ hcard).body.valid hstruct
  rw [hvers, mem_singleton] at hver
  rw [← hver] at hfacts
  exact ⟨card.body, (hbod card.body).2 ⟨id, card, hcard, rfl⟩, facts, hfacts⟩

theorem resolves_of_provided (hs : api.Attached v) (hbod : CardBodies v i.vault bodies)
    (h : Provided (CardProvides api.parseUlid) (boardOf v.state) i) :
    ∃ target, (StructureIndex.fromBodies api.parseUlid bodies).resolveTrack i.identity.1 i.identity.2 =
      .ok target := by
  obtain ⟨body, hbody, facts, hfacts⟩ := structureFacts_of_provided hs.sound hbod h
  refine resolveTrack_ok hbody hfacts fun body hbody carrier hcarrier => ?_
  obtain ⟨id, card, hcard, rfl⟩ := (hbod body).1 hbody
  exact structureFacts_of_provided (i := ⟨i.vault, carrier⟩) hs.sound hbod
    (hs.intact _ ⟨⟨i.vault, id⟩, card, hcard, .inr ⟨rfl, hcarrier⟩⟩)

theorem Attached.provided (hs : api.Attached v)
    (h : Pointed (CardTracks api.parseUlid) (boardOf v.state) i) :
    Provided (CardProvides api.parseUlid) (boardOf v.state) i := by
  obtain ⟨key, card, hcard, htrack⟩ := h
  exact hs.intact i ⟨key, card, hcard, .inl htrack⟩

theorem tracksHold_of_safe (hs : api.Attached v)
    (hsafe : EachStep api.trackStep (fun v e => api.safeTrackStep v e = true) v es) :
    api.TracksHold v es := by
  have hstep : ∀ v e, api.Attached v → api.safeTrackStep v e = true → api.Attached (api.trackStep v e) :=
    fun v e hs he => attached_trackStep hs he
  refine ⟨fun pre hpre i hpoint => ?_, ?_, ?_⟩
  · have hattached : api.Attached (run api.trackStep v pre) := hsafe.always hs hstep pre hpre
    have hprovided := hattached.provided hpoint
    exact ⟨hprovided, fun bodies hbod => resolves_of_provided hattached hbod hprovided⟩
  · apply hsafe.imp_of_inv hs hstep
    intro v e hs he spec input hjob hhint
    obtain ⟨trust, authority, fresh, req, hwrite, hsafeWrite⟩ := trackJob_safe hjob he
    obtain ⟨prepared, hacc⟩ := vaultWrite_ok hwrite
    have hcard : isCardHint req = true := by
      rw [isCardHint, ← (prepare_keeps hacc.prepares).2, decide_eq_true_eq, ← hhint,
        congrArg CurateSpec.sectionHint hacc.job]
      rfl
    exact (card_of_safeTrackWrite hs hcard hwrite hsafeWrite).2.2
  · apply hsafe.imp_of_inv hs hstep
    intro v e hs he i _ hpoint
    exact (attached_trackStep hs he).provided hpoint

end Runs

end WriteApi

/-! ## 4. A backlog and a task -/

/-- A card of the vault `main`, in a version with the hash 7. -/
def cardNote (id : NoteId) (body : String) : Note :=
  let card := plainNote id none body
  { card with
    frontmatter := { card.frontmatter with «section» := .projectMap, updated := some 7 }, contentHash := 7 }

def backlogBody (version : String) : String :=
  "[[project:g]] [[status:OPEN]] [[kind:BACKLOG]] [[version:g/" ++ version ++ "]]"

def taskBody : String := "[[project:g]] [[status:OPEN]] [[kind:TASK]] [[track:g/b]]"

def writesTask : List TrackEvent :=
  [("Backlog", backlogBody "b"), ("Task", taskBody)].mapIdx fun i card =>
    .write (bearerOf "main") .external (i + 1)
      { title := card.1, body := card.2, sectionHint := some "project-map" } ⟨.rejected, 0, .at 7⟩

theorem tracksHold_writesTask : plainWriteApi.TracksHold .empty writesTask := by
  apply tracksHold_of_safe
  · refine ⟨fun _ _ hcard => (by cases hcard), ?_⟩
    rintro i ⟨key, card, hcard, -⟩
    cases hcard
  · exact ⟨by decide +kernel, by decide +kernel, trivial⟩

def trackedBacklog : IndexedVault :=
  let roles := plainWriteApi.server.vault.rolesOfBody
  (IndexedVault.empty.add roles (cardNote 1 (backlogBody "b"))).add roles (cardNote 2 taskBody)

def renamesBacklog : TrackEvent :=
  .write (bearerOf "main") .external 3
    { title := "Backlog", body := backlogBody "c", sectionHint := some "project-map",
      noteId := some (ulidText 1), expectedSha256 := some (hexText 7) }
    ⟨.rejected, 0, .at 8⟩

/-- The check of the children stands before a downgrade alone: a write gives the backlog another version, and
the track of the task points at nothing. -/
theorem not_tracksHold_renamesBacklog : ¬ plainWriteApi.TracksHold trackedBacklog [renamesBacklog] := by
  intro h
  -- the task still has its track, and no card has the version
  have hboard : (∃ task ∈ boardOf (run plainWriteApi.trackStep trackedBacklog [renamesBacklog]).state ⟨"main", 2⟩,
      isWorkBody plainWriteApi.parseUlid task.body = true ∧
        ("g", "b") ∈ tracksOf (structuralLinks plainWriteApi.parseUlid task.body)) ∧
      ∀ key ∈ (run plainWriteApi.trackStep trackedBacklog [renamesBacklog]).keys,
        ∀ card ∈ boardOf (run plainWriteApi.trackStep trackedBacklog [renamesBacklog]).state key,
          ("g", "b") ∉ versionsOf (structuralLinks plainWriteApi.parseUlid card.body) := by
    decide +kernel
  obtain ⟨⟨task, htask, hwork, htrack⟩, hgone⟩ := hboard
  obtain ⟨⟨key, card, hcard, -, -, -, hver⟩, -⟩ := h.resolved [renamesBacklog] prefix_rfl
    ⟨"main", ("g", "b")⟩ ⟨⟨"main", 2⟩, task, htask, rfl, hwork, htrack⟩
  obtain ⟨row, hrow, -⟩ := bind_eq_some_iff.1 hcard
  exact hgone key (IndexedVault.covers _ key row hrow) card hcard hver

end Gradatum.Access
