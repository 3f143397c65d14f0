import Gradatum.Context.Assemble

/-!
# What a context discloses

Every piece of a response carries the id of the note that it was made from.  The guard takes the notes that
the caller may not read off the candidates; this module follows the other ways into a response.
-/

open Reasoning

namespace Gradatum.Context

open Notes List
open Access (Policy TrustContext ApiError isSentinel carriesTag isIdentityPrivileged)

/-! ## 1. The notes behind a response -/

def ContextText.sources : ContextText → List String
  | raw parts => parts.map Prod.fst
  | assembled skills _ notes references =>
    skills.map SkillEntry.ulid ++ (notes.map Selected.noteId ++ references.map Stub.ulid)

/-- The ids of the notes that the response has a body, a title, a snippet or the id of. -/
def VaultContextResponse.sources (resp : VaultContextResponse) : List String :=
  resp.text.sources ++ (resp.included.map IncludedNote.ulid ++ resp.references.map Stub.ulid)

theorem mem_sources_assembled (resp : VaultContextResponse)
    (htext : resp.text = .assembled skills query selected stubs)
    (hincluded : resp.included = selected.map includedOf) (hstubs : resp.references = stubs) (id : String) :
    id ∈ resp.sources ↔ (∃ skill ∈ skills, skill.ulid = id) ∨ (∃ s ∈ selected, s.noteId = id) ∨
      ∃ stub ∈ stubs, stub.ulid = id := by
  have hid : IncludedNote.ulid ∘ includedOf = Selected.noteId := rfl
  simp only [VaultContextResponse.sources, htext, hincluded, hstubs, ContextText.sources, map_map, hid,
    mem_append, mem_map]
  exact or_iff_left_of_imp .inr

theorem sources_emptyResponse (embedFallback : Bool) : (emptyResponse embedFallback).sources = [] := rfl

section Guard

variable {state : AppState}

theorem mem_hiddenCandidates {ids hidden : List String}
    (h : state.hiddenCandidates trust ids = .ok hidden) (id : String) :
    id ∈ hidden ↔ id ∈ ids ∧ state.withheld trust id = true := by
  unfold AppState.hiddenCandidates at h
  split at h
  · rename_i hnone
    cases h
    refine ⟨fun hmem => absurd hmem not_mem_nil, ?_⟩
    rintro ⟨hid, hheld⟩
    rcases hnone with rfl | hallow
    · exact hid
    · simp [AppState.withheld, Policy.hidesTags, hallow] at hheld
  · rename_i hsome
    have hden : state.policy.allowsClassified trust state.vault = false := by
      simpa using fun hallow => hsome (.inr hallow)
    split at h
    · cases h
    cases h
    simp only [mem_map, Table.select, mem_filter, Bool.and_eq_true, contains_eq_mem,
      decide_eq_true_eq, Bool.not_eq_true', AppState.withheld, Option.any_eq_true, Policy.hidesTags,
      hden, Bool.not_false, true_and]
    constructor
    · rintro ⟨r, ⟨hmem, ⟨hid, hnamed⟩, htag⟩, rfl⟩
      exact ⟨hid, hnamed, r, Table.find?_of_mem hmem, htag⟩
    rintro ⟨hid, hnamed, r, hfind, htag⟩
    obtain ⟨hmem, rfl⟩ := Table.find?_eq_some_iff.1 hfind
    exact ⟨r, ⟨hmem, ⟨hid, hnamed⟩, htag⟩, rfl⟩

theorem mem_visible_iff (h : state.visible trust candidates = .ok left) (c : Candidate) :
    c ∈ left ↔ c ∈ candidates ∧ state.withheld trust c.noteId = false := by
  unfold AppState.visible at h
  obtain ⟨hidden, hhid, hleft⟩ := bind_eq_ok_iff.1 h
  rw [pure_eq_ok_iff] at hleft
  rw [← hleft, mem_filter]
  constructor
  · rintro ⟨hc, hnot⟩
    refine ⟨hc, ?_⟩
    rw [Bool.not_eq_true', contains_eq_mem, decide_eq_false_iff_not,
      mem_hiddenCandidates hhid] at hnot
    rw [← Bool.not_eq_true]
    exact fun hheld => hnot ⟨mem_map_of_mem hc, hheld⟩
  · rintro ⟨hc, hseen⟩
    refine ⟨hc, ?_⟩
    rw [Bool.not_eq_true', contains_eq_mem, decide_eq_false_iff_not, mem_hiddenCandidates hhid]
    rintro ⟨-, hheld⟩
    rw [hseen] at hheld
    cases hheld

end Guard

/-! ## 2. Stubs -/

variable {stubs acc : List Stub} {id : String}

theorem foldl_orInsert_subset (h : s ∈ stubs.foldl orInsert acc) : s ∈ acc ∨ s ∈ stubs := by
  induction stubs generalizing acc with
  | nil => exact .inl h
  | cons first stubs ih =>
    rcases ih h with hacc | hmem
    · unfold orInsert at hacc
      split at hacc
      · exact .inl hacc
      rcases mem_append.1 hacc with hold | hnew
      · exact .inl hold
      · exact .inr (mem_cons.2 (.inl (mem_singleton.1 hnew)))
    · exact .inr (mem_cons_of_mem _ hmem)

theorem foldl_orInsert_covers (h : (∃ s ∈ acc, s.ulid = id) ∨ ∃ s ∈ stubs, s.ulid = id) :
    ∃ s ∈ stubs.foldl orInsert acc, s.ulid = id := by
  induction stubs generalizing acc with
  | nil =>
    rcases h with hacc | ⟨s, hs, -⟩
    · exact hacc
    · cases hs
  | cons first stubs ih =>
    apply ih
    have hkeep : ∀ s ∈ acc, s ∈ orInsert acc first := by
      intro s hs
      unfold orInsert
      split
      · exact hs
      · exact mem_append_left _ hs
    have hfirst : ∃ s ∈ orInsert acc first, s.ulid = first.ulid := by
      unfold orInsert
      split
      · rename_i hany
        obtain ⟨s, hs, hid⟩ := any_eq_true.1 hany
        exact ⟨s, hs, of_decide_eq_true hid⟩
      · exact ⟨first, by simp, rfl⟩
    rcases h with ⟨s, hs, hid⟩ | ⟨s, hs, hid⟩
    · exact .inl ⟨s, hkeep s hs, hid⟩
    rcases mem_cons.1 hs with rfl | hs
    · left
      rw [← hid]
      exact hfirst
    · exact .inr ⟨s, hs, hid⟩

theorem mem_of_mem_stubMap (h : s ∈ stubMap stubs) : s ∈ stubs := by
  rw [stubMap, mem_insertionSort] at h
  exact (foldl_orInsert_subset h).resolve_left not_mem_nil

theorem exists_mem_stubMap (h : s ∈ stubs) : ∃ s' ∈ stubMap stubs, s'.ulid = s.ulid := by
  obtain ⟨s', hs', hid⟩ := foldl_orInsert_covers (.inr ⟨s, h, rfl⟩)
  exact ⟨s', by rwa [stubMap, mem_insertionSort], hid⟩

theorem freezeSnippet_ulid (sent : SentMap) (stub : Stub) : (freezeSnippet sent stub).ulid = stub.ulid := by
  unfold freezeSnippet
  split <;> rfl

/-- The ids of the stubs of the compact mode: those of the selection, and of all that was sent and is not
quoted. -/
theorem exists_mem_compactStubs_iff :
    (∃ stub ∈ compactStubs sent selected stubs, stub.ulid = id) ↔ (∃ stub ∈ stubs, stub.ulid = id) ∨
        (∃ entry ∈ sent.rows, entry.ulid = id) ∧ ∀ s ∈ selected, s.noteId ≠ id := by
  constructor
  · rintro ⟨stub, hstub, rfl⟩
    rcases mem_append.1 (mem_of_mem_stubMap hstub) with hfroz | hsent
    · obtain ⟨s, hs, rfl⟩ := mem_map.1 hfroz
      exact .inl ⟨s, hs, (freezeSnippet_ulid sent s).symm⟩
    obtain ⟨entry, hentry, rfl⟩ := mem_map.1 hsent
    obtain ⟨hrow, hunq⟩ := mem_filter.1 hentry
    refine .inr ⟨⟨entry, hrow, rfl⟩, fun s hs hid => ?_⟩
    rw [Bool.not_eq_true', any_eq_false] at hunq
    exact hunq s hs (decide_eq_true hid)
  · rintro (⟨stub, hstub, rfl⟩ | ⟨⟨entry, hrow, rfl⟩, hunq⟩)
    · obtain ⟨s, hs, hid⟩ := exists_mem_stubMap
        (mem_append_left _ (mem_map_of_mem (f := freezeSnippet sent) hstub))
      exact ⟨s, hs, hid.trans (freezeSnippet_ulid sent stub)⟩
    have hentry : entry ∈ sent.rows.filter fun e => !selected.any (·.noteId = e.ulid) := by
      refine mem_filter.2 ⟨hrow, ?_⟩
      rw [Bool.not_eq_true', any_eq_false]
      exact fun s hs hid => hunq s hs (of_decide_eq_true hid)
    exact exists_mem_stubMap (mem_append_right _ (mem_map_of_mem (f := minimalStub) hentry))

section Raw

variable {state : AppState}

theorem mem_of_mem_rawNotes (h : entry ∈ rawNotes tools index privileged maxTokens used ids) :
    entry.1.ulid ∈ ids := by
  induction ids generalizing used with
  | nil => cases h
  | cons id rest ih =>
    rw [rawNotes] at h
    split at h
    · cases h
    split at h
    · exact mem_cons_of_mem _ (ih h)
    rename_i record hrec
    split at h
    · exact mem_cons_of_mem _ (ih h)
    rcases mem_cons.1 h with rfl | hmem
    · exact mem_cons.2 (.inl (id_of_getNote hrec))
    · exact mem_cons_of_mem _ (ih hmem)

theorem assembleRaw_sources (h : state.assembleRaw trust req = .ok resp)
    (hid : id ∈ resp.sources) : state.withheld trust id = false := by
  unfold AppState.assembleRaw at h
  obtain ⟨ids?, -, h⟩ := bind_eq_ok_iff.1 h
  cases ids? with
  | none =>
    rw [← pure_eq_ok_iff.1 h, sources_emptyResponse] at hid
    cases hid
  | some ids =>
    obtain ⟨hidden, hhid, h⟩ := bind_eq_ok_iff.1 h
    rw [← pure_eq_ok_iff.1 h] at hid
    have hnote : ∃ entry ∈ rawNotes state.tools state.index (isIdentityPrivileged trust)
        (max 1 (min 8000 (req.maxTokens.getD 2000))) 0 (ids.filter fun id => !hidden.contains id),
        entry.1.ulid = id := by
      simpa [VaultContextResponse.sources, ContextText.sources] using hid
    obtain ⟨entry, hentry, rfl⟩ := hnote
    obtain ⟨hasked, hkept⟩ := mem_filter.1 (mem_of_mem_rawNotes hentry)
    rw [Bool.not_eq_true', contains_eq_mem, decide_eq_false_iff_not,
      mem_hiddenCandidates hhid] at hkept
    rw [← Bool.not_eq_true]
    exact fun hheld => hkept ⟨hasked, hheld⟩

end Raw

/-! ## 3. The notes of a selection -/

section Split

variable {state : AppState} {trust : TrustContext} {req : VaultContextRequest}
  {candidates : List Candidate}

def FromCandidates (candidates : List Candidate) (split : List Selected × List Stub) : Prop :=
  (∀ s ∈ split.1, ∃ c ∈ candidates, c.noteId = s.noteId) ∧
    ∀ s ∈ split.2, ∃ c ∈ candidates, c.noteId = s.ulid

theorem selectBudgetAware_fromCandidates (tools : Toolkit) (index : SearchIndex)
    (score : Candidate → Option ℚ) (candidates : List Candidate) (budget stubBudget : Nat) :
    FromCandidates candidates ((selectBudgetAware tools index score candidates budget stubBudget).1,
        (selectBudgetAware tools index score candidates budget stubBudget).2.1) :=
  ⟨fun _ => @exists_candidate_of_inline tools index budget stubBudget score candidates _,
    fun _ => exists_candidate_of_stub⟩

theorem FromCandidates.withoutSouls (privileged : Bool) (h : FromCandidates candidates (selected, stubs)) :
    FromCandidates candidates (withoutSouls privileged selected stubs) := by
  unfold Context.withoutSouls
  split
  · exact h
  · exact ⟨fun s hs => h.1 s (mem_filter.1 hs).1, fun s hs => h.2 s (mem_filter.1 hs).1⟩

theorem FromCandidates.withoutRepromotion (sent : SentMap)
    (h : FromCandidates candidates (selected, stubs)) :
    FromCandidates candidates (withoutRepromotion sent selected stubs) := by
  refine ⟨fun s hs => h.1 s (mem_filter.1 hs).1, fun s hs => ?_⟩
  rcases mem_append.1 (mem_of_mem_stubMap hs) with hforced | hfroz
  · obtain ⟨quoted, hquot, hstub⟩ := mem_filterMap.1 hforced
    obtain ⟨entry, -, rfl⟩ := Option.map_eq_some_iff.1 hstub
    exact h.1 quoted hquot
  obtain ⟨stub, hstub, rfl⟩ := mem_map.1 hfroz
  rw [freezeSnippet_ulid]
  exact h.2 stub hstub

variable (state trust req candidates)

theorem splitAssembled_fromCandidates :
    FromCandidates candidates (state.splitAssembled trust req candidates) := by
  unfold AppState.splitAssembled
  apply FromCandidates.withoutSouls
  cases state.sessionSent req with
  | none => apply selectBudgetAware_fromCandidates
  | some sent =>
    apply FromCandidates.withoutRepromotion
    apply selectBudgetAware_fromCandidates

theorem splitCompact_fromCandidates (sent : SentMap) :
    FromCandidates candidates (state.splitCompact trust req sent candidates) := by
  have hid : ∀ id : String, (∃ c ∈ candidates.map fun c =>
      { c with rrfScore := compactScore state.nowMs sent c.noteId }, c.noteId = id) →
      ∃ c ∈ candidates, c.noteId = id := by
    rintro id ⟨c, hc, hid⟩
    obtain ⟨candidate, hcand, rfl⟩ := mem_map.1 hc
    exact ⟨candidate, hcand, hid⟩
  unfold AppState.splitCompact
  apply FromCandidates.withoutSouls
  have hscor := selectBudgetAware_fromCandidates state.tools state.index state.score
    (candidates.map fun c => { c with rrfScore := compactScore state.nowMs sent c.noteId })
    (state.budget req) state.config.stubBudgetTokens
  exact ⟨fun s hs => hid _ (hscor.1 s hs), fun s hs => hid _ (hscor.2 s hs)⟩

variable {state trust candidates}

theorem FromCandidates.not_withheld (h : FromCandidates candidates split)
    (hleft : state.visible trust asked = .ok candidates) :
    (∀ s ∈ split.1, state.withheld trust s.noteId = false) ∧
      ∀ s ∈ split.2, state.withheld trust s.ulid = false := by
  have hc : ∀ c ∈ candidates, state.withheld trust c.noteId = false := fun c hmem =>
    ((mem_visible_iff hleft c).1 hmem).2
  refine ⟨fun s hs => ?_, fun s hs => ?_⟩
  · obtain ⟨c, hmem, hid⟩ := h.1 s hs
    exact hid ▸ hc c hmem
  · obtain ⟨c, hmem, hid⟩ := h.2 s hs
    exact hid ▸ hc c hmem

end Split

/-! ## 4. When nothing that is withheld gets in -/

section Discreet

variable (state : AppState) (trust : TrustContext) (req : VaultContextRequest)

/-- The two ways past the guard are closed.  The skills of the header are read from their section, not from
the candidates; a note that the session was sent before gets its reference back after the guard. -/
def Discreet : Prop :=
  match req.mode with
  | .raw => True
  | .assembled => ∀ outcome, state.retrieval = .ok outcome → state.visible trust outcome.candidates ≠ .ok [] →
      ∀ skill ∈ (state.skillsHeader req outcome.queryEmbedding).1, state.withheld trust skill.ulid = false
  | .compact => ∀ sid outcome, req.sessionId = some sid → state.retrieval = .ok outcome →
      state.visible trust (unionSent outcome.candidates (state.sentOrEmpty sid)) ≠ .ok [] →
      ∀ entry ∈ (state.sentOrEmpty sid).rows, state.withheld trust entry.ulid = false

variable {state trust req}

theorem assembleAssembled_sources (h : state.assembleAssembled trust req = .ok assembly) :
    (∀ id ∈ assembly.response.sources, state.withheld trust id = false) ↔
      ∀ outcome, state.retrieval = .ok outcome → state.visible trust outcome.candidates ≠ .ok [] →
        ∀ skill ∈ (state.skillsHeader req outcome.queryEmbedding).1,
          state.withheld trust skill.ulid = false := by
  unfold AppState.assembleAssembled at h
  obtain ⟨-, -, h⟩ := bind_eq_ok_iff.1 h
  obtain ⟨outcome, hout, h⟩ := bind_eq_ok_iff.1 h
  obtain ⟨candidates, hleft, h⟩ := bind_eq_ok_iff.1 h
  rw [hout]
  split at h
  · rename_i hnone
    rw [← pure_eq_ok_iff.1 h, sources_emptyResponse]
    refine iff_of_true (fun _ hid => absurd hid not_mem_nil) ?_
    rintro found ⟨⟩ hsome
    exact absurd (hnone ▸ hleft) hsome
  · rename_i hsome
    have hasked : state.visible trust outcome.candidates ≠ .ok [] := fun hnone =>
      hsome (Except.ok.inj (hleft.symm.trans hnone))
    obtain ⟨hquot, hstubs⟩ := (splitAssembled_fromCandidates state trust req candidates).not_withheld hleft
    have hsrcs := mem_sources_assembled assembly.response
      (by rw [← pure_eq_ok_iff.1 h]) (by rw [← pure_eq_ok_iff.1 h]) (by rw [← pure_eq_ok_iff.1 h])
    constructor
    · rintro hall found ⟨⟩ - skill hskill
      exact hall _ ((hsrcs _).2 (.inl ⟨skill, hskill, rfl⟩))
    intro hskills id hid
    rcases (hsrcs id).1 hid with ⟨skill, hskill, rfl⟩ | ⟨s, hs, rfl⟩ | ⟨s, hs, rfl⟩
    · exact hskills outcome rfl hasked skill hskill
    · exact hquot s hs
    · exact hstubs s hs

theorem assembleCompact_sources (h : state.assembleCompact trust req = .ok resp) :
    (∀ id ∈ resp.sources, state.withheld trust id = false) ↔
      ∀ sid outcome, req.sessionId = some sid → state.retrieval = .ok outcome →
        state.visible trust (unionSent outcome.candidates (state.sentOrEmpty sid)) ≠ .ok [] →
        ∀ entry ∈ (state.sentOrEmpty sid).rows, state.withheld trust entry.ulid = false := by
  unfold AppState.assembleCompact at h
  obtain ⟨sid, hsid, h⟩ := bind_eq_ok_iff.1 h
  rw [present_eq_ok_iff] at hsid
  obtain ⟨-, -, h⟩ := bind_eq_ok_iff.1 h
  obtain ⟨outcome, hout, h⟩ := bind_eq_ok_iff.1 h
  obtain ⟨candidates, hleft, h⟩ := bind_eq_ok_iff.1 h
  rw [hsid, hout]
  split at h
  · rename_i hnone
    rw [← pure_eq_ok_iff.1 h, sources_emptyResponse]
    refine iff_of_true (fun _ hid => absurd hid not_mem_nil) ?_
    rintro _ _ ⟨⟩ ⟨⟩ hsome
    exact absurd (hnone ▸ hleft) hsome
  · rename_i hsome
    have hasked : state.visible trust (unionSent outcome.candidates (state.sentOrEmpty sid)) ≠ .ok [] :=
      fun hnone => hsome (Except.ok.inj (hleft.symm.trans hnone))
    obtain ⟨hquot, hstubs⟩ :=
      (splitCompact_fromCandidates state trust req candidates (state.sentOrEmpty sid)).not_withheld hleft
    have hsrcs := mem_sources_assembled resp
      (by rw [← pure_eq_ok_iff.1 h]) (by rw [← pure_eq_ok_iff.1 h]) (by rw [← pure_eq_ok_iff.1 h])
    constructor
    · rintro hall _ _ ⟨⟩ ⟨⟩ - entry hentry
      by_cases hunq : ∀ s ∈ (state.splitCompact trust req (state.sentOrEmpty sid) candidates).1,
          s.noteId ≠ entry.ulid
      · apply hall
        refine (hsrcs _).2 (.inr (.inr ?_))
        exact exists_mem_compactStubs_iff.2 (.inr ⟨⟨entry, hentry, rfl⟩, hunq⟩)
      push Not at hunq
      obtain ⟨s, hs, hid⟩ := hunq
      rw [← hid]
      exact hquot s hs
    · intro hsent id hid
      rcases (hsrcs id).1 hid with ⟨skill, hskill, rfl⟩ | ⟨s, hs, rfl⟩ | hstub
      · cases hskill
      · exact hquot s hs
      · rcases exists_mem_compactStubs_iff.1 hstub with ⟨s, hs, rfl⟩ | ⟨⟨entry, hentry, rfl⟩, -⟩
        · exact hstubs s hs
        · exact hsent sid outcome rfl rfl hasked entry hentry

/-- No note that is withheld from the caller is behind any part of the response, unless it comes in by one
of the two ways past the guard. -/
theorem assembleContext_discloses_iff {resp : VaultContextResponse}
    (h : state.assembleContext trust req = .ok resp) :
    (∀ id ∈ resp.sources, state.withheld trust id = false) ↔ Discreet state trust req := by
  unfold AppState.assembleContext at h
  unfold Discreet
  cases hmode : req.mode with
  | raw =>
    rw [hmode] at h
    exact iff_of_true (fun _ => assembleRaw_sources h) trivial
  | assembled =>
    rw [hmode] at h
    obtain ⟨assembly, hassembly, rfl⟩ := map_eq_ok_iff.1 h
    exact assembleAssembled_sources hassembly
  | compact =>
    rw [hmode] at h
    exact assembleCompact_sources h

/-- An unmarked note, and a marked one of the section `skills`. -/
def plainNote : NoteRecord := ⟨"a", some "A", "reference", 0, "body", none⟩

def markedSkill : NoteRecord := ⟨"b", some "B", "skills", 0, "how to", some "personal-classified"⟩

/-- A server whose policy file denies marked notes only, and whose session was sent one note. -/
def twoNotes (sent : String) : AppState where
  tools := ⟨fun _ => 1, fun _ => none, fun _ => "0.00", fun _ _ => 0⟩
  policy := ⟨false, fun _ _ locus => locus ≠ "v/personal-classified", fun _ => none, fun _ => none⟩
  vault := "v"
  index := ⟨⟨[plainNote, markedSkill], by decide⟩, fun _ => false, none⟩
  config := ⟨1000, 100, 3, 1 / 10, 0⟩
  nowMs := 0
  rawLookup := .blank
  retrieval := .ok ⟨[⟨"a", 1⟩], some [1], false⟩
  score := fun _ => some 1
  sessionTrace := some fun _ => some ⟨[⟨sent, "seen before", 0⟩], by simp⟩
  skillsIndex := none
  skillRecords := .ok [markedSkill]
  embedBatch := fun texts => some (texts.map fun _ => [1])

def reader : TrustContext := Access.bearerOf "v"

def inMode (mode : ContextMode) : VaultContextRequest :=
  ⟨"q", none, none, mode, true, true, some "01ARZ3NDEKTSV4RRFFQ69G5FAV"⟩

/-- A session that was sent the unmarked note. -/
theorem assembleContext_discloses_iff_twoNotes :
    ∃ resp, (twoNotes "a").assembleContext reader (inMode .compact) = .ok resp ∧
      ((∀ id ∈ resp.sources, (twoNotes "a").withheld reader id = false) ↔
        Discreet (twoNotes "a") reader (inMode .compact)) := by
  have hok : ((twoNotes "a").assembleContext reader (inMode .compact)).toOption.isSome := by
    decide +kernel
  obtain ⟨resp, hresp⟩ := Option.isSome_iff_exists.1 hok
  rw [toOption_eq_some_iff] at hresp
  exact ⟨resp, hresp, assembleContext_discloses_iff hresp⟩

/-- The reference to a marked note comes back with its session, and a marked note of the section `skills` is
in the header. -/
theorem assembleContext_discloses_marked :
    (∃ resp, (twoNotes "b").assembleContext reader (inMode .compact) = .ok resp ∧
      "b" ∈ resp.sources ∧ (twoNotes "b").withheld reader "b" = true) ∧
    ∃ resp, (twoNotes "a").assembleContext reader (inMode .assembled) = .ok resp ∧
      "b" ∈ resp.sources ∧ (twoNotes "a").withheld reader "b" = true := by
  have hfound : ∀ {state : AppState} {req : VaultContextRequest},
      (state.assembleContext reader req).toOption.any (fun resp => "b" ∈ resp.sources) = true →
      state.withheld reader "b" = true →
      ∃ resp, state.assembleContext reader req = .ok resp ∧ "b" ∈ resp.sources ∧
        state.withheld reader "b" = true := by
    intro state req h hheld
    obtain ⟨resp, hresp, hmem⟩ := (Option.any_eq_true _ _).1 h
    exact ⟨resp, toOption_eq_some_iff.1 hresp, of_decide_eq_true hmem, hheld⟩
  exact ⟨hfound (by decide +kernel) (by decide +kernel), hfound (by decide +kernel) (by decide +kernel)⟩

end Discreet

end Gradatum.Context
