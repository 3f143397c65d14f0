import Gradatum.Access.Curate

/-!
# The section that the curator picks

Without a valid hint, `process_traced` takes the section of the heuristics, or that of the model where
the heuristics are unsure.  Four sections are not in the table of the heuristics.
-/

namespace Gradatum.Access

open Notes Option

/-! ## 1. The heuristics -/

def sections : List String :=
  ["decisions", "council", "architecture", "debug", "reasoning", "feedback", "lessons-learned",
    "retrospectives", "experiments", "agent-issues", "reference"]

/-- The regular expressions of the two tables, by section, and `to_lowercase`. -/
structure RouteTables where
  prefixMatches : String → String → Bool
  keywordCount : String → String → Nat
  toLowercase : String → String

def heuristicRoute (tables : RouteTables) (title body : String) : String × Rat :=
  match sections.find? (tables.prefixMatches · title) with
  | some sec => (sec, 1)
  | none =>
    let text := tables.toLowercase (title ++ "\n" ++ body)
    let scores := (sections.map fun sec => (sec, tables.keywordCount sec text)).mergeSort
      fun a b => decide (b.2 ≤ a.2)
    let total := max (scores.map Prod.snd).sum 1
    match scores with
    | [] => ("reference", 0)
    | (top, score) :: rest =>
      let second := (rest.head?.map Prod.snd).getD 0
      let confidence := (score : Rat) / total
      if 3 ≤ score ∧ 3 * second ≤ 2 * score then (top, confidence) else ("reference", confidence)

theorem heuristicRoute_mem (tables : RouteTables) (title body : String) :
    (heuristicRoute tables title body).1 ∈ sections := by
  have hreference : "reference" ∈ sections := by decide
  unfold heuristicRoute
  split
  · rename_i sec hfind
    exact List.mem_of_find?_eq_some hfind
  dsimp only
  split
  · exact hreference
  rename_i top score rest hscores
  have hmem : (top, score) ∈ (top, score) :: rest := List.mem_cons_self
  rw [← hscores, List.mem_mergeSort] at hmem
  obtain ⟨sec, hsec, heq⟩ := List.mem_map.mp hmem
  cases heq
  split
  · exact hsec
  · exact hreference

/-! ## 2. The pipeline -/

inductive FallbackStrategy where
  | reject
  | pendingReviewFallback
  | admitPendingReview
  deriving DecidableEq

structure CuratorNote where
  title : String
  body : String
  sectionHint : Option String
  deriving DecidableEq

def CuratorNote.bodyTruncated (note : CuratorNote) : String := String.ofList (note.body.toList.take 500)

def CuratorNote.userPrompt (note : CuratorNote) : String :=
  "Classify this note.\nTitle: " ++ note.title ++ "\nBody (truncated to 500 chars): " ++
    note.bodyTruncated ++
    (note.sectionHint.map ("\nHint (caller-provided section): " ++ ·)).getD ""

def CuratorNote.hinted (note : CuratorNote) : Bool :=
  note.sectionHint.any fun hint => (Section.fromCanonicalStr hint).isSome

structure CuratorPipeline where
  heuristicAdmitThreshold : Rat
  confidenceThreshold : Rat
  llmReviewEnabled : Bool
  fallback : FallbackStrategy
  tables : RouteTables
  /-- The answer of the backend to the prompt. -/
  classify : String → Except String CuratorDecisions

namespace CuratorPipeline

variable (pipeline : CuratorPipeline) (note : CuratorNote)

def route : String × Rat := heuristicRoute pipeline.tables note.title note.bodyTruncated

def review : CurateOutcome :=
  let (sec, confidence) := pipeline.route note
  if pipeline.heuristicAdmitThreshold ≤ confidence then .admitted ⟨sec, []⟩
  else if !pipeline.llmReviewEnabled || decide (pipeline.confidenceThreshold < confidence) then
    .pending ⟨sec, []⟩
  else
    match pipeline.classify note.userPrompt with
    | .ok decision => .admitted decision
    | .error _ =>
      match pipeline.fallback with
      | .reject => .rejected
      | .pendingReviewFallback | .admitPendingReview => .pending ⟨sec, []⟩

def process : CurateOutcome := curatorProcess note.sectionHint (pipeline.review note)

/-- The heuristics are unsure enough for the model to be asked. -/
def consults : Bool :=
  decide ((pipeline.route note).2 < pipeline.heuristicAdmitThreshold) && pipeline.llmReviewEnabled &&
    decide ((pipeline.route note).2 ≤ pipeline.confidenceThreshold)

/-- The section that a note without a valid hint is stored in. -/
def reviewed : Option String :=
  if pipeline.consults note then
    match pipeline.classify note.userPrompt with
    | .ok decision => some decision.canonicalSection
    | .error _ => if pipeline.fallback = .reject then none else some (pipeline.route note).1
  else some (pipeline.route note).1

theorem stored_review :
    (pipeline.review note).stored.map (·.1.canonicalSection) = pipeline.reviewed note := by
  unfold review reviewed consults
  dsimp only
  by_cases hadmit : pipeline.heuristicAdmitThreshold ≤ (pipeline.route note).2
  · rw [if_pos hadmit]
    simp [CurateOutcome.stored, Rat.not_lt.mpr hadmit]
  rw [if_neg hadmit]
  have hlt := Rat.not_le.mp hadmit
  by_cases huns : pipeline.llmReviewEnabled = true ∧
      (pipeline.route note).2 ≤ pipeline.confidenceThreshold
  · rw [if_neg (by simpa [huns.1] using Rat.not_lt.mpr huns.2),
      if_pos (by simp [hlt, huns])]
    cases pipeline.classify note.userPrompt with
    | ok decision => rfl
    | error e => cases pipeline.fallback <;> rfl
  · rw [if_pos (by simpa [Rat.not_le, or_iff_not_imp_left] using huns),
      if_neg (by simpa [hlt] using huns)]
    rfl

theorem stored_process :
    (pipeline.process note).stored.map (·.1.canonicalSection) =
      if note.hinted then note.sectionHint else pipeline.reviewed note := by
  unfold process curatorProcess CuratorNote.hinted
  rw [← stored_review]
  cases note.sectionHint with
  | none => rfl
  | some hint =>
    cases hsec : (Section.fromCanonicalStr hint).isSome <;>
      simp [Option.filter, hsec, CurateOutcome.stored]

end CuratorPipeline

/-! ## 3. The job -/

structure ReadNote where
  «section» : String
  body : String
  tags : List String

/-- A job with a title and a body writes the note; another one classifies again the note that is read. -/
inductive CurateJob where
  | write (spec : CurateSpec)
  | reclassify (id : NoteId) (tenant : VaultId) (dto : ReadNote)

namespace CurateJob

def tenantId : CurateJob → VaultId
  | write spec => spec.tenantId
  | reclassify _ tenant _ => tenant

def curatorNote : CurateJob → Option CuratorNote
  | write spec => some ⟨spec.title, spec.body, spec.sectionHint⟩
  | reclassify _ _ dto =>
    if dto.section = "identity" then none
    else some ⟨(extractH1Title dto.body).getD dto.section, dto.body, none⟩

variable (api : WriteApi)

def persistRequest (decisions : CuratorDecisions) (status : String) : CurateJob → PersistCuratedRequest
  | write spec => api.persistRequest spec (spec.author.bind parseAuthor) decisions status
  | reclassify id tenant dto =>
    { noteId := id, tenantId := tenant
      title := (extractH1Title dto.body).getD decisions.canonicalSection, body := dto.body
      «section» := decisions.canonicalSection
      tags := api.parseTags (dto.tags ++ decisions.tags.filter (!dto.tags.contains ·))
      author := none, status := status, trust := none, expectedSha256 := none, provenance := none
      targetVault := none }

def admitted (job : CurateJob) : Option CuratorNote :=
  if ensureJobTenant job.tenantId api.policy.multiTenant then job.curatorNote else none

def request (pipeline : CuratorPipeline) (job : CurateJob) : Option PersistCuratedRequest := do
  let note ← job.admitted api
  let (decisions, status) ← (pipeline.process note).stored
  return job.persistRequest api decisions status

theorem section_request (pipeline : CuratorPipeline) (job : CurateJob) :
    (job.request api pipeline).map (·.section) = (job.admitted api).bind fun note =>
        if note.hinted then note.sectionHint else pipeline.reviewed note := by
  unfold request
  cases job.admitted api with
  | none => rfl
  | some note =>
    simp only [bind_eq_bind, bind_some]
    rw [← pipeline.stored_process]
    cases (pipeline.process note).stored with
    | none => rfl
    | some stored => cases job <;> rfl

end CurateJob

/-! ## 4. The four sections -/

def hintOnly : List String := ["project-map", "identity", "snapshot", "messaging"]

/-- No request puts a note without a valid hint into one of the four sections, and none takes a
classified note out of them. -/
structure HintOnlyClosed (api : WriteApi) (pipeline : CuratorPipeline) (job : CurateJob) : Prop where
  entry : ∀ note, job.admitted api = some note → note.hinted = false →
    ∀ req, job.request api pipeline = some req → req.section ∉ hintOnly
  exit : ∀ id tenant dto, job = .reclassify id tenant dto → dto.section ∈ hintOnly →
    ∀ req, job.request api pipeline = some req →
      Section.fromCanonicalStr req.section = none ∨ req.section = dto.section

section

variable {pipeline : CuratorPipeline} {job : CurateJob} {note : CuratorNote}

theorem request_eq_some_iff (hnote : job.admitted api = some note) (hhint : note.hinted = false)
    (sec : String) : (∃ req, job.request api pipeline = some req ∧ req.section = sec) ↔
      pipeline.reviewed note = some sec := by
  have hsec := job.section_request api pipeline
  rw [hnote, bind_some, hhint, if_neg Bool.false_ne_true] at hsec
  rw [← hsec, map_eq_some_iff]

theorem hinted_reclassify {id : NoteId}
    (hnote : (CurateJob.reclassify id tenant dto).admitted api = some note) : note.hinted = false := by
  simp only [CurateJob.admitted, CurateJob.curatorNote, ite_none_right_eq_some,
    ite_none_left_eq_some, Option.some.injEq] at hnote
  rw [← hnote.2.2]
  rfl

variable (pipeline note) in
/-- The section of the heuristics is a section, and none of the four. -/
theorem route_section :
    (pipeline.route note).1 ∉ hintOnly ∧ Section.fromCanonicalStr (pipeline.route note).1 ≠ none := by
  have hsections : ∀ sec ∈ sections, sec ∉ hintOnly ∧ Section.fromCanonicalStr sec ≠ none := by
    decide +kernel
  exact hsections _ (heuristicRoute_mem _ _ _)

end

/-- The model answers none of the four sections.  Where the note is in one of them, the model is asked, and
its answer is not a section or its failure rejects the note. -/
structure ReviewKeeps (pipeline : CuratorPipeline) (job : CurateJob) (note : CuratorNote) : Prop where
  answer : pipeline.consults note = true → ∀ decision,
    pipeline.classify note.userPrompt = .ok decision → decision.canonicalSection ∉ hintOnly
  «protected» : ∀ id tenant dto, job = .reclassify id tenant dto → dto.section ∈ hintOnly →
    pipeline.consults note = true ∧
      match pipeline.classify note.userPrompt with
      | .ok decision => Section.fromCanonicalStr decision.canonicalSection = none
      | .error _ => pipeline.fallback = .reject

theorem hintOnlyClosed_iff (api : WriteApi) (pipeline : CuratorPipeline) (job : CurateJob) :
    HintOnlyClosed api pipeline job ↔
      ∀ note, job.admitted api = some note → note.hinted = false → ReviewKeeps pipeline job note := by
  constructor
  · intro h note hnote hhint
    have hentry : ∀ sec, pipeline.reviewed note = some sec → sec ∉ hintOnly := by
      intro sec hsec
      obtain ⟨req, hreq, rfl⟩ := (request_eq_some_iff hnote hhint sec).mpr hsec
      exact h.entry note hnote hhint req hreq
    refine ⟨fun hcons decision hans => hentry _ ?_, fun id tenant dto hjob hmem => ?_⟩
    · rw [CuratorPipeline.reviewed, if_pos hcons, hans]
    have hexit : ∀ sec, pipeline.reviewed note = some sec → Section.fromCanonicalStr sec = none := by
      intro sec hsec
      have hsame : sec ≠ dto.section := fun heq => hentry sec hsec (heq ▸ hmem)
      obtain ⟨req, hreq, rfl⟩ := (request_eq_some_iff hnote hhint sec).mpr hsec
      exact (h.exit id tenant dto hjob hmem req hreq).resolve_right hsame
    -- the heuristics always move the note
    have hroute : pipeline.reviewed note ≠ some (pipeline.route note).1 :=
      fun hsec => (route_section pipeline note).2 (hexit _ hsec)
    unfold CuratorPipeline.reviewed at hexit hroute
    cases hcons : pipeline.consults note with
    | false => simp [hcons] at hroute
    | true =>
      refine ⟨rfl, ?_⟩
      rw [if_pos hcons] at hexit hroute
      cases hans : pipeline.classify note.userPrompt with
      | ok decision => exact hexit _ (by rw [hans])
      | error e =>
        by_contra hfallback
        exact hroute (by rw [hans]; exact if_neg hfallback)
  · intro h
    constructor
    · intro note hnote hhint req hreq
      have hsec := (request_eq_some_iff hnote hhint _).mp ⟨req, hreq, rfl⟩
      unfold CuratorPipeline.reviewed at hsec
      split at hsec
      · rename_i hcons
        split at hsec
        · rename_i decision hans
          exact Option.some.inj hsec ▸ (h note hnote hhint).answer hcons decision hans
        · rw [ite_none_left_eq_some] at hsec
          exact Option.some.inj hsec.2 ▸ (route_section pipeline note).1
      · exact Option.some.inj hsec ▸ (route_section pipeline note).1
    · rintro id tenant dto rfl hmem req hreq
      cases hnote : (CurateJob.reclassify id tenant dto).admitted api with
      | none => simp [CurateJob.request, hnote] at hreq
      | some note =>
        have hhint := hinted_reclassify hnote
        have hsec := (request_eq_some_iff hnote hhint _).mp ⟨req, hreq, rfl⟩
        obtain ⟨hcons, hans⟩ := (h note hnote hhint).protected id tenant dto rfl hmem
        rw [CuratorPipeline.reviewed, if_pos hcons] at hsec
        split at hsec
        · rename_i decision hok
          rw [hok] at hans
          exact .inl (Option.some.inj hsec ▸ hans)
        rename_i e herror
        rw [herror] at hans
        rw [if_pos hans] at hsec
        cases hsec

/-- The defaults of the pipeline, with a title of the form `[DEBUG] …`. -/
def debugPipeline : CuratorPipeline where
  heuristicAdmitThreshold := 8 / 10
  confidenceThreshold := 7 / 10
  llmReviewEnabled := false
  fallback := .pendingReviewFallback
  tables := ⟨fun sec title => sec = "debug" && title.startsWith "[DEBUG]", fun _ _ => 0, id⟩
  classify := fun _ => .error "no backend"

def debugCard : CurateJob := .reclassify 7 "main" ⟨"project-map", "# [DEBUG] a card", []⟩

/-- A card of the project map moves to `debug` when it is classified again. -/
theorem not_hintOnlyClosed_debugCard : ¬ HintOnlyClosed plainWriteApi debugPipeline debugCard := by
  intro h
  have hnote : debugCard.admitted plainWriteApi = some ⟨"[DEBUG] a card", "# [DEBUG] a card", none⟩ := by
    decide +kernel
  have hsec : debugPipeline.reviewed ⟨"[DEBUG] a card", "# [DEBUG] a card", none⟩ = some "debug" := by
    decide +kernel
  obtain ⟨req, hreq, hdebug⟩ := (request_eq_some_iff hnote rfl _).mpr hsec
  have hexit := h.exit 7 "main" _ rfl (by decide) req hreq
  rw [hdebug] at hexit
  revert hexit
  decide +kernel

end Gradatum.Access
