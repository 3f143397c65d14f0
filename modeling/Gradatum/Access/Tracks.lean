import Gradatum.Access.Board
import Gradatum.Access.Curate
import Gradatum.Access.Update
import Gradatum.Reasoning.Run

/-!
# Tracks

A card is attached to a structure card by its track.  This module says what each endpoint does to the board
and when no track is left without its structure card.
-/

open Reasoning

namespace Gradatum.Access

open Notes ProjectMap Function Bool List

namespace WriteApi

variable {api : WriteApi}

/-! ## 1. What a write does to the board -/

def cardOfBody (api : WriteApi) (body : String) : Card := ⟨body, (rolesOfBody api.parseUlid body).kind⟩

def storedSection (hint : Option String) (outcome : CurateOutcome) : Option Section :=
  (curatorProcess hint outcome).stored.bind fun (decisions, _) =>
    Section.fromCanonicalStr decisions.canonicalSection

theorem storedSection_cardHint (outcome : CurateOutcome) :
    storedSection (some Section.projectMap.asStr) outcome = some .projectMap := rfl

variable (api) in
theorem cardOf_stored (note : Note) (old : Option NoteRow) :
    cardOf (match old with
      | none => rowOfNote api.server.vault.rolesOfBody note
      | some old => old.onConflict (rowOfNote api.server.vault.rolesOfBody note)) =
        if note.frontmatter.section = .projectMap then some (api.cardOfBody note.body) else none := by
  have hroles : (rolesOf api.server.vault.rolesOfBody .projectMap note.body).kind =
      (rolesOfBody api.parseUlid note.body).kind := by
    rw [api.rolesOfBody_eq]
    rfl
  by_cases hsection : note.frontmatter.section = .projectMap
  · cases old with
    | none => simp [cardOf, isListedCard, rowOfNote, hsection, hroles, cardOfBody]
    | some old => simp [cardOf, isListedCard, NoteRow.onConflict, rowOfNote, hsection, hroles, cardOfBody]
  cases old with
  | none => simp [cardOf, isListedCard, rowOfNote, hsection]
  | some old => simp [cardOf, isListedCard, NoteRow.onConflict, rowOfNote, hsection]

theorem boardOf_eq_update (h : ∀ key', key' ≠ key → s'.notes key' = s.notes key') :
    boardOf s' = update (boardOf s) key (boardOf s' key) := by
  funext key'
  by_cases hkey : key' = key
  · rw [hkey, update_self]
  · rw [update_of_ne hkey, boardOf, boardOf, h key' hkey]

theorem boardOf_afterCurate : boardOf (api.afterCurate v input spec).state = boardOf v.state ∨
      ∃ sec, storedSection spec.sectionHint input.outcome = some sec ∧
        boardOf (api.afterCurate v input spec).state = update (boardOf v.state) spec.key
          (if sec = .projectMap then some (api.cardOfBody
            (api.server.vault.privacy.maskedBody spec.body input.persist.write.outcome).1) else none) := by
  have hafter : (api.afterCurate v input spec).state = (api.handleCurate input spec v.state).2 := rfl
  rw [hafter]
  rcases api.handleCurate_cases input spec v.state with
    hsame | ⟨decisions, statusText, author, sec, status, hstor, hsec, -, hvault, -, hnew⟩
  · rw [hsame]
    exact .inl rfl
  right
  have hstoredSection : storedSection spec.sectionHint input.outcome = some sec := by
    rw [storedSection, hstor]
    exact hsec
  refine ⟨sec, hstoredSection, ?_⟩
  let req := api.persistRequest spec author decisions statusText
  have hother : ∀ key', key' ≠ spec.key →
      (api.curated input.persist sec status req v.state).notes key' = v.state.notes key' :=
    fun key' hne => (sameNote_curated hvault hne).row
  have hself : (api.curated input.persist sec status req v.state).notes spec.key = _ :=
    curated_notes_self hvault
  have hsect : (api.curatedNote input.persist sec status req v.state).frontmatter.section = sec := by
    show (api.server.vault.judged input.persist.write
      (curatedFrontmatter input.persist req.tenantId sec status req) req.body req.noteId none
        v.state).note.frontmatter.section = sec
    rw [Vault.judged_frontmatter]
    rfl
  rw [hnew, boardOf_eq_update hother]
  congr 1
  rw [boardOf, hself, Option.bind_some]
  have hcard := api.cardOf_stored
    (api.curatedNote input.persist sec status req v.state) (v.state.notes spec.key)
  rw [hsect] at hcard
  exact hcard

/-! ## 2. Steps -/

end WriteApi

/-- A request with all it takes from outside.  The job of a write runs with it. -/
inductive TrackEvent where
  | write (trust : TrustContext) (authority : FeatureWriteAuthority) (fresh : NoteId)
      (req : VaultWriteRequest) (input : CurateInput)
  | mutateRole (trust : TrustContext) (tenantId : Option VaultId) (item : MutateRoleItem)
      (input : CurateInput)
  | downgrade (trust : TrustContext) (now : Int) (req : VaultDowngradeRequest)
  | patch (trust : TrustContext) (input : PatchInput) (text : String) (body : NoteStatusPatch)

namespace WriteApi

variable (api : WriteApi) (v : IndexedVault)

def trackJob : TrackEvent → Option (CurateSpec × CurateInput)
  | .write trust authority fresh req input =>
    (api.vaultWrite v trust authority fresh req).toOption.map fun spec => (spec, input)
  | .mutateRole trust tenantId item input =>
    match api.mutateRole v trust tenantId item with
    | .ok (.queued spec) => some (spec, input)
    | _ => none
  | _ => none

def runJob : Option (CurateSpec × CurateInput) → IndexedVault
  | some (spec, input) => api.afterCurate v input spec
  | none => v

def trackStep (v : IndexedVault) (e : TrackEvent) : IndexedVault :=
  match e with
  | .write _ _ _ _ _ | .mutateRole _ _ _ _ => api.runJob v (api.trackJob v e)
  | .downgrade trust now req => api.afterDowngrade v trust now req
  | .patch trust input text body => api.afterPatch v trust input text body

/-! ## 3. When tracks hold -/

def standsFor (body : String) : List (String × String) :=
  if isStructureBody api.parseUlid body then versionsOf (structuralLinks api.parseUlid body) else []

/-- What the card at `key` stands for, the new body stands for too or nothing needs.  `none` takes the card
off the board. -/
def mayReplace (key : NoteKey) (body : Option String) : Bool :=
  (boardOf v.state key).all fun old => (api.standsFor old.body).all fun version =>
    body.any (version ∈ api.standsFor ·) ||
      !structureHasChildren api.parseUlid v key.vault (identityText version) &&
        !isCarrier api.parseUlid v key.vault version && body.all fun new =>
          version ∉ tracksOf (structuralLinks api.parseUlid new) && carrierOf api.parseUlid new ≠ some version

/-- The card that carries on for the body is on the board. -/
def carried (vault : VaultId) (body : String) : Bool :=
  (carrierOf api.parseUlid body).all fun carrier => anyCard v vault none fun other =>
    carrier ∈ api.standsFor other

/-- A body in which the two readers agree, that is carried, that masking keeps and that may take the place of
the card that is there. -/
def safeBody (key : NoteKey) (body : String) (outcome : Option PassOutcome) : Bool :=
  plainLinks api.parseUlid body && api.carried v key.vault body &&
    (api.server.vault.privacy.maskedBody body outcome).1 = body && api.mayReplace v key (some body)

def safeTrackWrite (tenant : VaultId) (fresh : NoteId) (req : VaultWriteRequest) (input : CurateInput) :
    Bool :=
  match api.preallocatedId fresh req with
  | .error _ => true
  | .ok id =>
    if isCardHint req then
      req.body.toList.getLast? ≠ some '\r' &&
        api.safeBody v ⟨tenant, id⟩ (api.injectTrack v tenant req.body) input.persist.write.outcome
    else
      storedSection req.sectionHint input.outcome ≠ some .projectMap &&
        api.mayReplace v ⟨tenant, id⟩ none

def fileBody (tenant : VaultId) (id : NoteId) : Option String :=
  ((api.readBackReader tenant).toOption.bind fun reader => reader.readNote v.state id).map (·.body)

def agrees (outcomes : List (Option PassOutcome)) (note : Note) (row : NoteRow) : Bool :=
  (api.server.vault.fillVaultId note.frontmatter).vaultId = api.server.vault.vaultId &&
    note.frontmatter.section = row.section && note.body = row.bodyText &&
    !(row.section = .projectMap && row.status = .downgraded) &&
    outcomes.all fun outcome => (api.server.vault.privacy.maskedBody note.body outcome).1 = note.body

def safeTrackStep : TrackEvent → Bool
  | .write trust _ fresh req input =>
    trust.tenantId.all fun tenant => api.safeTrackWrite v tenant fresh req input
  | .mutateRole trust _ item input => trust.tenantId.all fun tenant =>
    match api.roleWrite v tenant item with
    | .ok req => api.safeTrackWrite v tenant 0 req input
    | .error _ => true
  | .downgrade trust _ req => trust.tenantId.all fun tenant => (api.parseUlid req.noteId).all fun id =>
    (boardOf v.state ⟨tenant, id⟩).all fun card => api.fileBody v tenant id = some card.body &&
      (api.standsFor card.body).all fun version => !isCarrier api.parseUlid v tenant version
  | .patch _ input text _ => (api.parseUlid text).all fun id =>
    (api.server.vault.readNote v.state id).all fun note =>
      (v.state.notes ⟨api.server.vault.vaultId, id⟩).all
        (api.agrees [input.write.outcome, input.tags.outcome] note)

/-! ## 4. What a step does to the board -/

section Boards

variable {api} {v}

theorem mem_standsFor (h : CardProvides api.parseUlid key card i) :
    i.identity ∈ api.standsFor card.body := by
  rw [standsFor, if_pos h.2.1]
  exact h.2.2.2

theorem cardProvides_of_mem_standsFor (hvalid : validateCardBody api.parseUlid card.body = .ok ())
    (hvault : key.vault = i.vault) (h : i.identity ∈ api.standsFor card.body) :
    CardProvides api.parseUlid key card i := by
  unfold standsFor at h
  split at h
  · rename_i hstruct
    obtain ⟨version, facts, hprojs, hvers, -⟩ := structureFacts_of_valid hvalid hstruct
    refine ⟨hvault, hstruct, ?_, h⟩
    rw [hvers, mem_singleton] at h
    rw [hprojs, h]
    exact mem_cons_self
  · cases h

theorem provided_of_carried (hsound : SoundBoard api.parseUlid (boardOf v.state))
    (h : api.carried v vault body = true) (hcarrier : carrierOf api.parseUlid body = some carrier) :
    Provided (CardProvides api.parseUlid) (boardOf v.state) ⟨vault, carrier⟩ := by
  rw [carried, hcarrier, Option.all_some] at h
  obtain ⟨id, card, hcard, -, hstands⟩ := anyCard_iff_board.1 h
  exact ⟨⟨vault, id⟩, card, hcard,
    cardProvides_of_mem_standsFor (hsound _ _ hcard).body.valid rfl (of_decide_eq_true hstands)⟩

theorem mayReplace_iff (h : api.mayReplace v key new = true) (hold : boardOf v.state key = some old)
    (hver : version ∈ api.standsFor old.body) :
    (∃ body, new = some body ∧ version ∈ api.standsFor body) ∨
      (structureHasChildren api.parseUlid v key.vault (identityText version) = false ∧
        isCarrier api.parseUlid v key.vault version = false) ∧ ∀ body, new = some body →
          version ∉ tracksOf (structuralLinks api.parseUlid body) ∧
            carrierOf api.parseUlid body ≠ some version := by
  rw [mayReplace, hold, Option.all_some, all_eq_true] at h
  have hmay := h version hver
  simp only [or_eq_true, and_eq_true, not_eq_true', Option.any_eq_true,
    decide_eq_true_eq, Option.all_eq_true] at hmay
  exact hmay

theorem intact_put (hsound : SoundBoard api.parseUlid (boardOf v.state))
    (hintact : Intact (CardProvides api.parseUlid) (CardNeeds api.parseUlid) (boardOf v.state))
    (hvalid : validateCardBody api.parseUlid body = .ok ())
    (hmay : api.mayReplace v key (some body) = true) (hcarry : api.carried v key.vault body = true)
    (htrks : ∀ track ∈ tracksOf (structuralLinks api.parseUlid body),
      Provided (CardProvides api.parseUlid) (boardOf v.state) ⟨key.vault, track⟩) :
    Intact (CardProvides api.parseUlid) (CardNeeds api.parseUlid)
      (update (boardOf v.state) key (some (api.cardOfBody body))) := by
  apply hintact.put
  · rintro ⟨vault, version⟩ (⟨hvault, -, htrack⟩ | ⟨hvault, hcarrier⟩)
    · cases (hvault : key.vault = vault)
      exact htrks version htrack
    · cases (hvault : key.vault = vault)
      exact provided_of_carried hsound hcarry hcarrier
  rintro old ⟨vault, version⟩ hold hprov
  cases (hprov.1 : key.vault = vault)
  rcases mayReplace_iff hmay hold (mem_standsFor hprov) with ⟨_, heq, hagain⟩ | ⟨⟨hchil, hcarrier⟩, hnot⟩
  · cases heq
    exact .inl (cardProvides_of_mem_standsFor hvalid rfl hagain)
  · refine .inr ⟨not_pointed_of_structureHasChildren hsound hchil hcarrier, ?_⟩
    rintro (htrack | hnamed)
    · exact (hnot body rfl).1 htrack.2.2
    · exact (hnot body rfl).2 hnamed.2

theorem intact_remove (hsound : SoundBoard api.parseUlid (boardOf v.state))
    (hintact : Intact (CardProvides api.parseUlid) (CardNeeds api.parseUlid) (boardOf v.state))
    (hmay : api.mayReplace v key none = true) :
    Intact (CardProvides api.parseUlid) (CardNeeds api.parseUlid)
      (update (boardOf v.state) key none) := by
  apply hintact.remove
  rintro old ⟨vault, version⟩ hold hprov
  cases (hprov.1 : key.vault = vault)
  rcases mayReplace_iff hmay hold (mem_standsFor hprov) with ⟨_, heq, -⟩ | ⟨⟨hchil, hcarrier⟩, -⟩
  · cases heq
  · exact not_pointed_of_structureHasChildren hsound hchil hcarrier

theorem soundBoard_update (hsound : SoundBoard api.parseUlid board)
    (hnew : ∀ card, new = some card → SoundCard api.parseUlid card) :
    SoundBoard api.parseUlid (update board key new) := by
  intro key' card hcard
  by_cases hkey : key' = key
  · rw [hkey, update_self] at hcard
    exact hnew card hcard
  · rw [update_of_ne hkey] at hcard
    exact hsound key' card hcard

end Boards

/-! ## 5. Writes -/

section Writes

variable {api} {v}

theorem eq_singleton_of_mem (hlen : tracks.length ≤ 1) (hmem : track ∈ tracks) : tracks = [track] := by
  cases tracks with
  | nil => cases hmem
  | cons first rest =>
    rw [length_cons] at hlen
    rw [eq_nil_of_length_eq_zero (by omega : rest.length = 0)] at hmem ⊢
    rw [mem_singleton.1 hmem]

theorem derivableTrackTarget_eq_some (h : derivableTrackTarget api.parseUlid body = some want) :
    ∃ version, versionsOf (structuralLinks api.parseUlid body) = [version] ∧
      tracksOf (structuralLinks api.parseUlid body) = [] ∧ want = identityText version := by
  unfold derivableTrackTarget at h
  dsimp only at h
  split at h
  · rename_i version hvers
    split at h
    · rename_i hcard
      rw [and_eq_true, List.isEmpty_iff] at hcard
      exact ⟨version, hvers, hcard.1, (Option.some.inj h).symm⟩
    · cases h
  · cases h

/-- The tracks of a body that the write path lets pass point at structure cards: an explicit one is checked,
and one that is injected was looked up. -/
theorem provided_of_injectTrack (hsound : SoundBoard api.parseUlid (boardOf v.state))
    (hend : body.toList.getLast? ≠ some '\r')
    (hplain : plainLinks api.parseUlid (api.injectTrack v tenant body) = true)
    (hvalid : validateCardBody api.parseUlid (api.injectTrack v tenant body) = .ok ())
    (hexpl : api.hasExplicitTrack body = true → enforceExplicitTrack api.parseUlid v tenant
      (bodyLinks api.parseUlid (api.injectTrack v tenant body)) = .ok ())
    (htrack : track ∈ tracksOf (structuralLinks api.parseUlid (api.injectTrack v tenant body))) :
    Provided (CardProvides api.parseUlid) (boardOf v.state) ⟨tenant, track⟩ := by
  have hpair : IsPair track := isPair_of_mem_tracksOf htrack
  apply provided_of_isStructureTarget hpair hsound
  have htrks := (plainLinks_iff.1 hplain).1
  by_cases hhas : api.hasExplicitTrack body = true
  · -- a card has at most one track, so the first one is this one
    obtain ⟨kind, project, hcard⟩ := validateCardBody_ok hvalid
    have hone : tracksOf (structuralLinks api.parseUlid (api.injectTrack v tenant body)) = [track] :=
      eq_singleton_of_mem hcard.tracks htrack
    have hhead : (tracksOf (bodyLinks api.parseUlid (api.injectTrack v tenant body))).head? =
        some track := by
      rw [htrks, hone]
      rfl
    exact (enforceExplicitTrack_ok hhead (hexpl hhas)).2
  · -- without a track that is injected the body has none
    have hkept : api.injectTrack v tenant body = body → False := by
      intro hsame
      rw [hsame] at htrks htrack
      have hnone : tracksOf (bodyLinks api.parseUlid body) = [] := by
        rw [hasExplicitTrack, not_eq_true, not_eq_false', List.isEmpty_iff] at hhas
        exact hhas
      rw [← htrks, hnone] at htrack
      cases htrack
    cases hwant : derivableTrackTarget api.parseUlid body with
    | none =>
      refine (hkept ?_).elim
      rw [injectTrack, if_neg hhas, hwant]
    | some want =>
      by_cases htgt : isStructureTarget api.parseUlid v tenant want = true
      · have hinj : api.injectTrack v tenant body = body ++ "\n\n[[track:" ++ want ++ "]]" := by
          rw [injectTrack, if_neg hhas, hwant]
          exact if_pos htgt
        obtain ⟨version, hvers, hnone, rfl⟩ := derivableTrackTarget_eq_some hwant
        have hver : IsPair version := by
          apply isPair_of_mem_versionsOf
          rw [← structuralLinks, hvers]
          exact mem_cons_self
        rw [hinj] at htrack
        rcases mem_tracksOf_injected hver hend htrack with hold | hnew
        · rw [hnone] at hold
          cases hold
        · rw [hnew]
          exact htgt
      · refine (hkept ?_).elim
        rw [injectTrack, if_neg hhas, hwant]
        exact if_neg htgt

structure Attached (api : WriteApi) (v : IndexedVault) : Prop where
  sound : SoundBoard api.parseUlid (boardOf v.state)
  intact : Intact (CardProvides api.parseUlid) (CardNeeds api.parseUlid) (boardOf v.state)

theorem card_of_safeTrackWrite (hs : api.Attached v) (hcard : isCardHint req = true)
    (h : api.vaultWrite v trust authority fresh req = .ok spec)
    (hsafe : api.safeTrackWrite v spec.tenantId fresh req input = true) :
    validateCardBody api.parseUlid spec.body = .ok () ∧
      api.safeBody v spec.key spec.body input.persist.write.outcome = true ∧
      ∀ track ∈ tracksOf (structuralLinks api.parseUlid spec.body),
        Provided (CardProvides api.parseUlid) (boardOf v.state) ⟨spec.tenantId, track⟩ := by
  obtain ⟨prepared, hacc⟩ := vaultWrite_ok h
  rw [safeTrackWrite, hacc.preallocated] at hsafe
  dsimp only at hsafe
  rw [if_pos hcard, and_eq_true, decide_eq_true_eq] at hsafe
  obtain ⟨hend, hbodySafe⟩ := hsafe
  have hprep : api.prepareCard v spec.tenantId req = .ok prepared := by
    rcases prepare_ok hacc.prepares with ⟨-, hprep⟩ | ⟨hnot, -⟩
    · exact hprep
    · rw [hcard] at hnot
      cases hnot
  obtain ⟨heq, hvalid, hexpl⟩ := prepareCard_ok hprep
  have hbody : spec.body = api.injectTrack v spec.tenantId req.body := by
    rw [congrArg CurateSpec.body hacc.job, buildCurateJob, heq]
  rw [hbody]
  have hplain : plainLinks api.parseUlid (api.injectTrack v spec.tenantId req.body) = true := by
    simp only [safeBody, and_eq_true] at hbodySafe
    exact hbodySafe.1.1.1
  exact ⟨hvalid, hbodySafe, fun track htrack =>
    provided_of_injectTrack hs.sound hend hplain hvalid hexpl htrack⟩

theorem attached_afterCurate (hs : api.Attached v)
    (h : api.vaultWrite v trust authority fresh req = .ok spec)
    (hsafe : api.safeTrackWrite v spec.tenantId fresh req input = true) :
    api.Attached (api.afterCurate v input spec) := by
  obtain ⟨prepared, hacc⟩ := vaultWrite_ok h
  have hhint : spec.sectionHint = req.sectionHint := by
    rw [congrArg CurateSpec.sectionHint hacc.job, buildCurateJob]
    exact (prepare_keeps hacc.prepares).2
  have hboard : boardOf (api.afterCurate v input spec).state = boardOf v.state ∨ _ := boardOf_afterCurate
  rcases hboard with hsame | ⟨sec, hsec, hnew⟩
  · exact ⟨hsame ▸ hs.sound, hsame ▸ hs.intact⟩
  rw [hhint] at hsec
  by_cases hcard : isCardHint req = true
  · obtain ⟨hvalid, hbodySafe, htrks⟩ := card_of_safeTrackWrite hs hcard h hsafe
    simp only [safeBody, and_eq_true, decide_eq_true_eq] at hbodySafe
    obtain ⟨⟨⟨hplain, hcarry⟩, hmask⟩, hmay⟩ := hbodySafe
    have hprojectMap : sec = .projectMap := by
      rw [of_decide_eq_true hcard, storedSection_cardHint] at hsec
      exact (Option.some.inj hsec).symm
    rw [if_pos hprojectMap, hmask] at hnew
    constructor
    · rw [hnew]
      apply soundBoard_update hs.sound
      intro card heq
      cases heq
      exact ⟨⟨hvalid, hplain⟩, rfl⟩
    · rw [hnew]
      exact intact_put hs.sound hs.intact hvalid hmay hcarry htrks
  · rw [safeTrackWrite, hacc.preallocated] at hsafe
    dsimp only at hsafe
    rw [if_neg hcard, and_eq_true, decide_eq_true_eq] at hsafe
    have hother : sec ≠ .projectMap := by
      rintro rfl
      exact hsafe.1 hsec
    rw [if_neg hother] at hnew
    constructor
    · rw [hnew]
      exact soundBoard_update hs.sound fun card heq => by cases heq
    · rw [hnew]
      exact intact_remove hs.sound hs.intact hsafe.2

end Writes

end WriteApi

end Gradatum.Access
