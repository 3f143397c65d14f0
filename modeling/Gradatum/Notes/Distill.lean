import Mathlib.Algebra.Order.Field.Rat
import Mathlib.Data.List.Perm.Basic
import Gradatum.Queue.Job
import Gradatum.Notes.ForgetJob
import Gradatum.Notes.Query

/-!
# Distillation

`handle_distill` groups the notes of a scope by the similarity of their embeddings.  The validation of a group
stores the synthesis and sends one request per source, which is to mark the source as processed.
-/

namespace Gradatum.Notes

open List

open Queue (JobScope)

/-! ## 1. Clusters -/

section Clusters

/-- The root of `x` among `n` elements.  Path compression changes no root. -/
def findRoot (n : Nat) (parent : Nat → Nat) (x : Nat) : Nat := parent^[n] x

def unionRoots (n : Nat) (parent : Nat → Nat) (a b : Nat) : Nat → Nat :=
  let ra := findRoot n parent a
  let rb := findRoot n parent b
  if ra ≠ rb then Function.update parent ra rb else parent

variable {E : Type} (reaches : E → E → Bool)

def cosineForest (embeddings : List E) : Nat → Nat :=
  let indices := List.range embeddings.length
  let pairs := indices.flatMap fun i => (indices.filter (i < ·)).map fun j => (i, j)
  pairs.foldl (fun parent (i, j) =>
    match embeddings[i]?, embeddings[j]? with
    | some a, some b =>
      if reaches a b then unionRoots embeddings.length parent i j else parent
    | _, _ => parent) id

def clusterByCosine (embeddings : List E) : List (List Nat) :=
  let indices := List.range embeddings.length
  let root := findRoot embeddings.length (cosineForest reaches embeddings)
  let least := indices.filter fun i => indices.all fun j => !(j < i && root j = root i)
  least.map fun i => indices.filter fun j => root j = root i

theorem exists_cluster_zero (hne : embeddings ≠ []) :
    ∃ cluster ∈ clusterByCosine reaches embeddings, 0 ∈ cluster := by
  have hzero : 0 ∈ List.range embeddings.length :=
    mem_range.2 (length_pos_iff.2 hne)
  refine ⟨_, List.mem_map.2 ⟨0, mem_filter.2 ⟨hzero, ?_⟩, rfl⟩, mem_filter.2 ⟨hzero, ?_⟩⟩
  · simp
  · simp

end Clusters

/-! ## 2. The job -/

structure Synthesis where
  title : String
  body : String

/-- `mode` has one value that is implemented; `window` and the fields of the other modes are not read. -/
structure DistillSource where
  scope : JobScope
  batchLimit : Nat
  /-- `none` where the float is not finite. -/
  confidenceThreshold : Option Rat

structure ValidateSpec where
  noteId : NoteId
  tenantId : VaultId
  title : String
  body : String
  sourceIds : List NoteId
  sourceTexts : List String
  sourceTrusts : List Rat
  baseTrust : Rat
  threshold : Rat

/-- What the two jobs take from outside.  Scores are taken as rationals. -/
structure Distiller (E : Type) where
  /-- The stored vector of a note for the embedder of the worker. -/
  embedding : VaultId → NoteId → Option E
  /-- `cosine_similarity` reaches a threshold. -/
  reaches : Rat → E → E → Bool
  synthesize : List (String × String) → Except String Synthesis
  /-- The id that `NoteId::new` draws for the synthesis of each cluster in turn. -/
  synthId : Nat → NoteId
  /-- `compute_quality`; `none` where the embedder fails. -/
  quality : ValidateSpec → Option Rat
  /-- A float printed with a number of decimals. -/
  fixed : Nat → Rat → String
  /-- An answer that is no success, as the client prints it. -/
  clientText : PersistError → String

def maxDistillBatch : Nat := 2000

/-- The longest text of a scope that the listing handlers take. -/
def maxScopeBytes : Nat := 512

def clampUnit (x : Rat) : Rat := max 0 (min x 1)

/-- Without a known trust the synthesis gets the neutral one. -/
def computeDistillTrust (trusts : List Rat) (confidence : Rat) : Rat :=
  if trusts = [] then 1 / 2 else clampUnit (trusts.sum / trusts.length * confidence)

/-- A note that will be a source. -/
structure Candidate (E : Type) where
  id : NoteId
  title : String
  body : String
  embedding : E

/-- The mark of a source. -/
def Note.processed (note : Note) : Bool :=
  match note.frontmatter.extra "processed" with
  | some (.scalar (.boolean b)) => b
  | _ => false

def tooLong (parameter text : String) : Option String :=
  let bytes := text.utf8ByteSize
  if maxScopeBytes < bytes then
    some (s!"Server error 400: parameter `{parameter}` too long ({bytes} > {maxScopeBytes} bytes)")
  else none

def refuseScope : JobScope → Except HandlerError Unit
  | .vaultWide => .error ⟨"distill: JobScope::VaultWide rejected outside dry-run — " ++
      "Section, Locus or Notes scope required (R3)"⟩
  | .locus path =>
    if trim path.toList = [] then
      .error ⟨"distill: empty/whitespace JobScope::Locus refused outside dry-run " ++
        "(would match the whole vault — bypasses R3)"⟩
    else .ok ()
  | .section name =>
    if trim name.toList = [] then
      .error ⟨"distill: empty/whitespace JobScope::Section refused outside dry-run " ++
        "(no consolidation target — bypasses R3)"⟩
    else .ok ()
  | _ => .ok ()

def resolveDistillScope {s : VaultState} (index : Answers s) (vault : VaultId) :
    JobScope → Except HandlerError (List NoteId)
  | .locus path =>
    match tooLong "prefix" path with
    | some e => .error ⟨s!"distill: list_notes_by_locus: {e}"⟩
    | none => .ok (index.select vault fun row => row.locus.any (likeStart path) && !row.forgotten)
  | .section name =>
    match tooLong "section" name with
    | some e => .error ⟨s!"distill: list_notes_by_section: {e}"⟩
    | none => .ok (index.select vault fun row => row.section.asStr = name && !row.forgotten)
  | .notes ids => .ok ids
  | .vaultWide => .ok <| [NoteStatus.live, .pendingReview, .staging].flatMap fun status =>
    index.select vault fun row => row.status = status
  | .session _ => .error ⟨"distill: JobScope::Session not supported"⟩
  | .vault _ => .error ⟨"distill: JobScope variant not supported"⟩

namespace Server

variable (srv : Server) {E : Type} (d : Distiller E)

/-- What the loop over the notes of the scope makes of one of them. -/
def candidate? (vault : VaultId) (s : VaultState) (id : NoteId) : Option (Candidate E) :=
  (srv.vault.readNoteIn s (srv.readerVault vault) id).bind fun dto =>
    if dto.frontmatter.forgotten.getD false then none
    else if dto.frontmatter.status = .garbage then none
    else if dto.processed then none
    else (d.embedding vault id).map fun embedding =>
      ⟨id, (extractH1Title dto.body).getD "", dto.body, embedding⟩

def candidates (spec : DistillSource) (vault : VaultId) (s : VaultState) (ids : List NoteId) :
    List (Candidate E) :=
  (ids.filterMap (srv.candidate? d vault s)).take (min spec.batchLimit maxDistillBatch)

end Server

def DistillSource.threshold (spec : DistillSource) : Rat :=
  match spec.confidenceThreshold with
  | some t => clampUnit t
  | none => 75 / 100

section Job

variable {E : Type} (d : Distiller E)

def validateSpec (vault : VaultId) (confidence : Rat) (s : VaultState) (members : List (Candidate E))
    (synthesis : Synthesis) (noteId : NoteId) : ValidateSpec :=
  let trusts := members.map fun c => (s.notes ⟨vault, c.id⟩).bind (·.trust)
  { noteId := noteId
    tenantId := vault
    title := synthesis.title
    body := synthesis.body
    sourceIds := members.map (·.id)
    sourceTexts := members.map (·.body)
    sourceTrusts := trusts.map (·.getD (6 / 10))
    baseTrust := computeDistillTrust (trusts.filterMap id) confidence
    threshold := 75 / 100 }

/-- The loop over the clusters; what was enqueued before a failure stays. -/
def synthesizeEach (vault : VaultId) (confidence : Rat) (s : VaultState)
    (candidates : List (Candidate E)) :
    Nat → List (List Nat) → Except HandlerError Unit × List ValidateSpec
  | _, [] => (.ok (), [])
  | turn, cluster :: rest =>
    let members := cluster.filterMap (candidates[·]?)
    match d.synthesize (members.map fun c => (c.title, c.body)) with
    | .error e => (.error ⟨s!"distill: cluster synthesis failed: {e}"⟩, [])
    | .ok synthesis =>
      let spec := validateSpec vault confidence s members synthesis (d.synthId turn)
      let (reply, specs) := synthesizeEach vault confidence s candidates (turn + 1) rest
      (reply, spec :: specs)

def Server.handleDistill (srv : Server) (dryRun : Bool) (spec : DistillSource) (vault : VaultId)
    {s : VaultState} (index : Answers s) : Except HandlerError JobOutput × List ValidateSpec :=
  match if dryRun then .ok () else refuseScope spec.scope with
  | .error e => (.error e, [])
  | .ok () =>
    match resolveDistillScope index vault spec.scope with
    | .error e => (.error e, [])
    | .ok ids =>
      let candidates := srv.candidates d spec vault s ids
      let clusters := clusterByCosine (d.reaches spec.threshold) (candidates.map (·.embedding))
      let candidateCount := candidates.length
      let clusterCount := clusters.length
      if dryRun then
        let threshold := d.fixed 2 spec.threshold
        (.ok (.dryRun clusterCount (s!"distill dry-run — {candidateCount} candidate note(s), " ++
          s!"{clusterCount} cluster(s) (cosine threshold {threshold})")), [])
      else
        match synthesizeEach d vault spec.threshold s candidates 0 clusters with
        | (.error e, specs) => (.error e, specs)
        | (.ok (), specs) =>
          let enqueuedCount := specs.length
          (.ok
            { notesCreated := specs.map (·.noteId)
              notesModified := []
              resultNoteMd := s!"distill: {clusterCount} cluster(s) → " ++
                s!"{enqueuedCount} synthesis/es enqueued for validation" }, specs)

end Job

/-! ## 3. The validation -/

structure PersistDistillRequest where
  noteId : NoteId
  tenantId : VaultId
  title : String
  body : String
  «section» : String
  trust : Option Rat := none
  derivedFrom : List String := []
  tags : List Tag := []
  markProcessed : Bool := false
  derivedInto : Option String := none

/-- The reading of the clock in the handler, and what its write takes from outside. -/
structure DistillInput where
  created : Instant
  write : WriteInput

def synthesisFrontmatter (input : DistillInput) (sec : Section) (req : PersistDistillRequest) :
    Frontmatter where
  schemaVersion := 1
  vaultId := req.tenantId
  locus := none
  «section» := sec
  status := .pendingReview
  statusReason := some "distilled — en attente de revue"
  statusChanged := none
  tags := req.tags
  author := some ⟨.system, "vault-distiller", none⟩
  created := input.created
  updated := none
  extra :=
    if req.derivedFrom = [] then .empty
    else ExtraFields.insert .empty "derived-from" (.array (req.derivedFrom.map .text))
  provenance := some "distilled"
  forgotten := none
  forgottenAt := none
  forgottenBy := none

def Frontmatter.mark (frontmatter : Frontmatter) (derivedInto : Option String) : Frontmatter :=
  let extra := frontmatter.extra.insert "processed" (.scalar (.boolean true))
  { frontmatter with
    extra := match derivedInto with
      | some into => extra.insert "derived-into" (.text into)
      | none => extra }

def VaultState.upsertNoteTitle (s : VaultState) (key : NoteKey) (title : String) : VaultState :=
  s.updateRow key fun row => { row with title := some title }

def VaultState.setNoteTrust (s : VaultState) (key : NoteKey) (trust : Rat) : VaultState :=
  s.updateRow key fun row => { row with trust := some trust }

namespace Server

variable (srv : Server)

def distillFrontmatter (input : DistillInput) (sec : Section) (req : PersistDistillRequest)
    (s : VaultState) : Frontmatter :=
  let frontmatter :=
    match srv.vault.readNoteIn s (srv.readerVault req.tenantId) req.noteId with
    | some existing => { existing.frontmatter with «section» := sec }
    | none => synthesisFrontmatter input sec req
  if req.markProcessed then frontmatter.mark req.derivedInto else frontmatter

def handlePersistDistill (input : DistillInput) (req : PersistDistillRequest) (s : VaultState) :
    Except PersistError Unit × VaultState :=
  match Section.fromCanonicalStr req.section with
  | none => (.error (.invalidSection req.section), s)
  | some sec =>
    let frontmatter := srv.distillFrontmatter input sec req s
    match srv.vault.writeNoteWithIdInternal frontmatter.vaultId input.write frontmatter req.body
        req.noteId s with
    | (.error e, s) => (.error (.writeFailed e), s)
    | (.ok note, s) =>
      let key : NoteKey := ⟨note.frontmatter.vaultId, note.id⟩
      let s := s.upsertNoteTitle key req.title
      (.ok (), match req.trust with
        | some trust => s.setNoteTrust key trust
        | none => s)

def markRequest (spec : ValidateSpec) (source : NoteId) : PersistDistillRequest where
  noteId := source
  tenantId := spec.tenantId
  title := ""
  body := ""
  «section» := ""
  markProcessed := true
  derivedInto := some (ulidText spec.noteId)

/-- The loop over the sources; a refusal is logged and passed over. -/
def markEach (input : Nat → DistillInput) (spec : ValidateSpec) :
    Nat → List NoteId → VaultState → List NoteId × VaultState
  | _, [], s => ([], s)
  | turn, source :: rest, s =>
    match srv.handlePersistDistill (input turn) (markRequest spec source) s with
    | (.error _, s) => markEach input spec (turn + 1) rest s
    | (.ok (), s) =>
      let (modified, s) := markEach input spec (turn + 1) rest s
      (source :: modified, s)

def ensureJobTenant (tenantId : VaultId) : Except HandlerError Unit :=
  if !srv.multiTenant then
    if tenantId ≠ "main" then
      .error ⟨s!"unsupported tenant (mono-vault): '{tenantId}' ≠ 'main'"⟩
    else .ok ()
  else
    match VaultId.parse tenantId with
    | .error e =>
      let reason := e.quote
      .error ⟨s!"invalid job tenant '{tenantId}': invalid vault_id: {reason}"⟩
    | .ok _ => .ok ()

variable {E : Type} (d : Distiller E)

/-- The request that stores the synthesis.  Below the threshold it gets less trust and a tag. -/
def synthesisRequest (spec : ValidateSpec) (quality : Rat) : PersistDistillRequest where
  noteId := spec.noteId
  tenantId := spec.tenantId
  title := spec.title
  body := spec.body
  «section» := "reference"
  trust := some (if spec.threshold ≤ quality then spec.baseTrust
    else clampUnit (spec.baseTrust * quality))
  derivedFrom := spec.sourceIds.map ulidText
  tags := if spec.threshold ≤ quality then [] else ["quality-low"]

def handleValidate (input : Nat → DistillInput) (spec : ValidateSpec) (s : VaultState) :
    Except HandlerError JobOutput × VaultState :=
  match srv.ensureJobTenant spec.tenantId with
  | .error e => (.error e, s)
  | .ok () =>
    -- a failing embedder counts as full quality
    let quality := (d.quality spec).getD 1
    match srv.handlePersistDistill (input 0) (synthesisRequest spec quality) s with
    | (.error e, s) =>
      let answer := d.clientText e
      (.error ⟨s!"validate: persist synthesis: {answer}"⟩, s)
    | (.ok (), s) =>
      let (modified, s) := srv.markEach input spec 1 spec.sourceIds s
      let note := ulidText spec.noteId
      let score := d.fixed 3 quality
      let disposition := if spec.threshold ≤ quality then "accept" else "degrade(quality-low)"
      (.ok
        { notesCreated := [spec.noteId]
          notesModified := modified
          resultNoteMd := s!"validate: note {note} — score {score} → {disposition}" }, s)

/-- The enqueued validations, run one after the other. -/
def validateAll (inputs : ValidateSpec → Nat → DistillInput) (jobs : List ValidateSpec)
    (s : VaultState) : VaultState :=
  jobs.foldl (fun s spec => (srv.handleValidate d (inputs spec) spec s).2) s

end Server

/-! ## 4. What the jobs leave alone -/

theorem sameNote_handlePersistDistill {srv : Server} {id : NoteId} (vault : VaultId)
    (s : VaultState) (input : DistillInput) (req : PersistDistillRequest) (hne : req.noteId ≠ id) :
    SameNote vault id s (srv.handlePersistDistill input req s).2 := by
  unfold Server.handlePersistDistill
  cases Section.fromCanonicalStr req.section with
  | none => exact .refl vault id s
  | some sec =>
    dsimp only
    generalize srv.distillFrontmatter input sec req s = frontmatter
    rcases Vault.writeNoteWithIdInternal_cases (v := srv.vault) frontmatter.vaultId input.write
        frontmatter req.body req.noteId s with ⟨e, hreply⟩ | hreply
    · rw [hreply]
      exact .refl vault id s
    rw [hreply]
    have hwrite : SameNote vault id s (srv.vault.commit input.write
        (srv.vault.judged input.write frontmatter req.body req.noteId none s) s) :=
      Vault.sameNote_commit s (.inr hne)
    apply hwrite.trans
    have htitle : SameNote vault id _ (VaultState.updateRow _
        ⟨(srv.vault.fillVaultId frontmatter).vaultId, req.noteId⟩ _) :=
      sameNote_updateRow vault
        (srv.vault.commit input.write
          (srv.vault.judged input.write frontmatter req.body req.noteId none s) s)
        (fun row => { row with title := some req.title }) hne
    cases req.trust with
    | none => exact htitle
    | some trust => exact htitle.trans (sameNote_updateRow vault _ _ hne)

theorem handlePersistDistill_markRequest (srv : Server) (input : DistillInput) (spec : ValidateSpec)
    (source : NoteId) (s : VaultState) :
    srv.handlePersistDistill input (Server.markRequest spec source) s =
      (.error (.invalidSection ""), s) := rfl

theorem markEach_eq (srv : Server) (input : Nat → DistillInput) (spec : ValidateSpec) (turn : Nat)
    (sources : List NoteId) (s : VaultState) : srv.markEach input spec turn sources s = ([], s) := by
  induction sources generalizing turn with
  | nil => rfl
  | cons source rest ih =>
    rw [Server.markEach, handlePersistDistill_markRequest]
    exact ih (turn + 1)

section Frame

variable {srv : Server} {E : Type} {id : NoteId}

theorem sameNote_handleValidate (vault : VaultId) (s : VaultState) (input : Nat → DistillInput)
    (spec : ValidateSpec) (hne : spec.noteId ≠ id) :
    SameNote vault id s (srv.handleValidate d input spec s).2 := by
  unfold Server.handleValidate
  cases srv.ensureJobTenant spec.tenantId with
  | error e => exact .refl vault id s
  | ok _ =>
    dsimp only
    generalize hreq : Server.synthesisRequest spec ((d.quality spec).getD 1) = req
    have hid : req.noteId ≠ id := by
      rw [← hreq]
      exact hne
    have hpers : SameNote vault id s (srv.handlePersistDistill (input 0) req s).2 :=
      sameNote_handlePersistDistill vault s (input 0) req hid
    cases hreply : srv.handlePersistDistill (input 0) req s with
    | mk reply s₁ =>
      rw [hreply] at hpers
      cases reply with
      | error e => exact hpers
      | ok _ =>
        dsimp only
        rw [markEach_eq]
        exact hpers

theorem sameNote_validateAll (vault : VaultId) (s : VaultState)
    (inputs : ValidateSpec → Nat → DistillInput) (jobs : List ValidateSpec)
    (hne : ∀ spec ∈ jobs, spec.noteId ≠ id) :
    SameNote vault id s (srv.validateAll d inputs jobs s) := by
  induction jobs generalizing s with
  | nil => exact .refl vault id s
  | cons spec rest ih =>
    have hfirst : SameNote vault id s (srv.handleValidate d (inputs spec) spec s).2 :=
      sameNote_handleValidate vault s (inputs spec) spec (hne spec mem_cons_self)
    exact hfirst.trans (ih _ fun spec' hmem => hne spec' (mem_cons_of_mem _ hmem))

end Frame

/-! ## 5. Convergence -/

def IsSource (specs : List ValidateSpec) (id : NoteId) : Prop := ∃ spec ∈ specs, id ∈ spec.sourceIds

structure DistillConverges (srv : Server) (E : Type) (vault : VaultId) (scope : JobScope)
    (specs : List ValidateSpec) (s s' : VaultState) : Prop where
  marked : ∀ id, IsSource specs id → ∃ note, srv.vault.readNoteIn s' vault id = some note ∧
    note.processed = true ∧ ∃ spec ∈ specs, id ∈ spec.sourceIds ∧
      note.frontmatter.extra "derived-into" = some (.text (ulidText spec.noteId))
  keptFile : ∀ id, IsSource specs id → ∀ note, srv.vault.readNoteIn s vault id = some note →
    ∃ note', srv.vault.readNoteIn s' vault id = some note' ∧ note'.body = note.body ∧
      note'.frontmatter.section = note.frontmatter.section
  keptRow : ∀ id, IsSource specs id → ∀ row, s.notes ⟨vault, id⟩ = some row →
    ∃ row', s'.notes ⟨vault, id⟩ = some row' ∧ row'.title = row.title ∧ row'.section = row.section
  /-- Any later job over the scope leaves the sources out. -/
  again : ∀ (d' : Distiller E) (dryRun' : Bool) (spec' : DistillSource) (index' : Answers s'),
    spec'.scope = scope → ∀ id, IsSource specs id →
      ¬ IsSource (srv.handleDistill d' dryRun' spec' vault index').2 id

/-- The filters of the job let the note through. -/
def Distillable (srv : Server) {E : Type} (d : Distiller E) (vault : VaultId) (s : VaultState)
    (id : NoteId) : Prop :=
  ∃ note, srv.vault.readNoteIn s vault id = some note ∧ note.frontmatter.forgotten ≠ some true ∧
    note.frontmatter.status ≠ .garbage ∧ note.processed = false ∧ (d.embedding vault id).isSome

def NothingToDistill (srv : Server) {E : Type} (d : Distiller E) (dryRun : Bool)
    (spec : DistillSource) (vault : VaultId) {s : VaultState} (index : Answers s) : Prop :=
  dryRun = true ∨ spec.batchLimit = 0 ∨
    ∀ ids, resolveDistillScope index vault spec.scope = .ok ids →
      ∀ id ∈ ids, ¬ Distillable srv d vault s id

section Candidates

variable {srv : Server} {E : Type}

theorem candidate?_isSome_iff (tenant : Tenant srv) (id : NoteId) :
    (srv.candidate? d tenant.id s id).isSome ↔ Distillable srv d tenant.id s id := by
  unfold Server.candidate? Distillable
  rw [Server.readerVault_tenant]
  cases srv.vault.readNoteIn s tenant.id id with
  | none => simp
  | some note =>
    have hforg : note.frontmatter.forgotten.getD false = true ↔
        note.frontmatter.forgotten = some true := by
      cases note.frontmatter.forgotten <;> simp
    by_cases hmark : note.frontmatter.forgotten = some true
    · simp [hmark]
    by_cases hgarb : note.frontmatter.status = .garbage
    · simp [hforg, hmark, hgarb]
    · cases hproc : note.processed <;> simp [hforg, hmark, hgarb, hproc]

theorem candidate?_id {id : NoteId} (h : srv.candidate? d vault s id = some c) : c.id = id := by
  obtain ⟨note, -, hc⟩ := Option.bind_eq_some_iff.1 h
  repeat (split at hc; · cases hc)
  obtain ⟨_, -, rfl⟩ := Option.map_eq_some_iff.1 hc
  rfl

theorem distillable_of_mem_candidates {tenant : Tenant srv}
    (hc : c ∈ srv.candidates d spec tenant.id s ids) : Distillable srv d tenant.id s c.id := by
  obtain ⟨id, -, hid⟩ := mem_filterMap.1 (mem_of_mem_take hc)
  rw [candidate?_id hid, ← candidate?_isSome_iff, hid]
  rfl

theorem candidates_eq_nil_iff {tenant : Tenant srv} : srv.candidates d spec tenant.id s ids = [] ↔
      spec.batchLimit = 0 ∨ ∀ id ∈ ids, ¬ Distillable srv d tenant.id s id := by
  have hlimit : min spec.batchLimit maxDistillBatch = 0 ↔ spec.batchLimit = 0 := by
    unfold maxDistillBatch
    omega
  rw [Server.candidates, take_eq_nil_iff, hlimit, filterMap_eq_nil_iff]
  simp only [← candidate?_isSome_iff, Option.not_isSome_iff_eq_none]

end Candidates

section Specs

variable {srv : Server} {E : Type} {d : Distiller E}

theorem of_mem_synthesizeEach (h : spec ∈ (synthesizeEach d vault confidence s candidates turn clusters).2) :
    (∃ turn', spec.noteId = d.synthId turn') ∧ ∀ id ∈ spec.sourceIds, ∃ c ∈ candidates, c.id = id := by
  induction clusters generalizing turn with
  | nil => cases h
  | cons cluster rest ih =>
    rw [synthesizeEach] at h
    cases hsynt : d.synthesize
        ((cluster.filterMap (candidates[·]?)).map fun c => (c.title, c.body)) with
    | error e => simp [hsynt] at h
    | ok synthesis =>
      simp only [hsynt, mem_cons] at h
      rcases h with rfl | hrest
      · refine ⟨⟨turn, rfl⟩, fun id hid => ?_⟩
        obtain ⟨c, hc, rfl⟩ := List.mem_map.1 hid
        obtain ⟨i, -, hi⟩ := mem_filterMap.1 hc
        exact ⟨c, mem_of_getElem? hi, rfl⟩
      · exact ih hrest

theorem isSource_synthesizeEach
    (hok : (synthesizeEach d vault confidence s candidates turn clusters).1 = .ok ())
    (hclus : cluster ∈ clusters) (hi : i ∈ cluster) (hc : candidates[i]? = some c) :
    IsSource (synthesizeEach d vault confidence s candidates turn clusters).2 c.id := by
  induction clusters generalizing turn with
  | nil => cases hclus
  | cons first rest ih =>
    rw [synthesizeEach] at hok ⊢
    cases hsynt : d.synthesize
        ((first.filterMap (candidates[·]?)).map fun c => (c.title, c.body)) with
    | error e => simp [hsynt] at hok
    | ok synthesis =>
      simp only [hsynt] at hok ⊢
      rcases mem_cons.1 hclus with rfl | hrest
      · refine ⟨_, mem_cons_self, ?_⟩
        exact List.mem_map.2 ⟨c, mem_filterMap.2 ⟨i, hi, hc⟩, rfl⟩
      · obtain ⟨spec, hspec, hid⟩ := ih hok hrest
        exact ⟨spec, mem_cons_of_mem _ hspec, hid⟩

theorem handleDistill_ok {index : Answers s}
    (h : (srv.handleDistill d dryRun spec vault index).1 = .ok out) :
    ∃ ids, resolveDistillScope index vault spec.scope = .ok ids ∧
      ((dryRun = true ∧ (srv.handleDistill d dryRun spec vault index).2 = []) ∨ (dryRun = false ∧
          synthesizeEach d vault spec.threshold s (srv.candidates d spec vault s ids) 0
              (clusterByCosine (d.reaches spec.threshold)
                ((srv.candidates d spec vault s ids).map (·.embedding))) =
            (.ok (), (srv.handleDistill d dryRun spec vault index).2))) := by
  unfold Server.handleDistill at h ⊢
  cases hscope : (if dryRun then Except.ok () else refuseScope spec.scope) with
  | error e => simp [hscope] at h
  | ok _ =>
    cases hids : resolveDistillScope index vault spec.scope with
    | error e => simp [hscope, hids] at h
    | ok ids =>
      refine ⟨ids, rfl, ?_⟩
      simp only [hscope, hids] at h ⊢
      cases dryRun with
      | true => exact .inl ⟨rfl, rfl⟩
      | false =>
        refine .inr ⟨rfl, ?_⟩
        simp only [Bool.false_eq_true, if_false] at h ⊢
        split at h
        · cases h
        · rename_i specs hspecs
          rw [hspecs]

end Specs

section Main

variable (srv : Server) {E : Type} (d : Distiller E) (tenant : Tenant srv) (dryRun : Bool)
  (spec : DistillSource) {s : VaultState} (index : Answers s)

theorem handleDistill_eq_nil_iff (hdone : (srv.handleDistill d dryRun spec tenant.id index).1 = .ok out) :
    (∀ id, ¬ IsSource (srv.handleDistill d dryRun spec tenant.id index).2 id) ↔
      NothingToDistill srv d dryRun spec tenant.id index := by
  obtain ⟨ids, hids, ⟨hdry, hspecs⟩ | ⟨hreal, heach⟩⟩ := handleDistill_ok hdone
  · rw [hspecs]
    exact iff_of_true (fun id ⟨_, hmem, _⟩ => by cases hmem) (.inl hdry)
  have hnothing : NothingToDistill srv d dryRun spec tenant.id index ↔
      srv.candidates d spec tenant.id s ids = [] := by
    rw [candidates_eq_nil_iff]
    unfold NothingToDistill
    rw [hids, hreal]
    simp
  rw [hnothing]
  generalize hspecs : (srv.handleDistill d dryRun spec tenant.id index).2 = specs at heach ⊢
  constructor
  · intro hnone
    by_contra hcands
    -- the first candidate is in a cluster, and so among the sources
    obtain ⟨c, hc⟩ : ∃ c, (srv.candidates d spec tenant.id s ids)[0]? = some c := by
      rw [← head?_eq_getElem?]
      exact ⟨_, head?_eq_some_head hcands⟩
    have hembeddings : (srv.candidates d spec tenant.id s ids).map (·.embedding) ≠ [] := by
      simpa using hcands
    obtain ⟨cluster, hclus, hzero⟩ := exists_cluster_zero (d.reaches spec.threshold) hembeddings
    have hsrc := isSource_synthesizeEach (congrArg Prod.fst heach) hclus hzero hc
    rw [heach] at hsrc
    exact hnone c.id hsrc
  · intro hcands id ⟨spec', hspec', hid⟩
    have hmem : spec' ∈ (synthesizeEach d tenant.id spec.threshold s
        (srv.candidates d spec tenant.id s ids) 0 (clusterByCosine (d.reaches spec.threshold)
          ((srv.candidates d spec tenant.id s ids).map (·.embedding)))).2 := by
      rw [heach]
      exact hspec'
    obtain ⟨c, hc, -⟩ := (of_mem_synthesizeEach hmem).2 id hid
    rw [hcands] at hc
    cases hc

theorem of_isSource_handleDistill {id : NoteId}
    (hdone : (srv.handleDistill d dryRun spec tenant.id index).1 = .ok out)
    (hnew : ∀ turn, s.notes ⟨tenant.id, d.synthId turn⟩ = none)
    (hid : IsSource (srv.handleDistill d dryRun spec tenant.id index).2 id) :
    Distillable srv d tenant.id s id ∧
      ∀ spec' ∈ (srv.handleDistill d dryRun spec tenant.id index).2, spec'.noteId ≠ id := by
  obtain ⟨ids, hids, ⟨-, hspecs⟩ | ⟨-, heach⟩⟩ := handleDistill_ok hdone
  · rw [hspecs] at hid
    obtain ⟨_, hmem, _⟩ := hid
    cases hmem
  have hspecs := congrArg Prod.snd heach
  dsimp only at hspecs
  rw [← hspecs] at hid ⊢
  obtain ⟨spec', hspec', hsrc⟩ := hid
  obtain ⟨c, hc, rfl⟩ := (of_mem_synthesizeEach hspec').2 id hsrc
  have hdistillable := distillable_of_mem_candidates hc
  refine ⟨hdistillable, fun spec'' hspec'' heq => ?_⟩
  obtain ⟨turn, hturn⟩ := (of_mem_synthesizeEach hspec'').1
  obtain ⟨note, hnote, -⟩ := hdistillable
  obtain ⟨row, hrow⟩ := Vault.exists_row_of_readNoteIn hnote
  rw [← heq, hturn, hnew turn] at hrow
  cases hrow

/-- Distillation converges just if there is nothing to distill: no source of a synthesis is marked, so
each is taken again. -/
theorem distillConverges_iff_nothingToDistill (inputs : ValidateSpec → Nat → DistillInput)
    (jobs : List ValidateSpec) (out : JobOutput)
    (hdone : (srv.handleDistill d dryRun spec tenant.id index).1 = .ok out)
    (hjobs : jobs.Perm (srv.handleDistill d dryRun spec tenant.id index).2)
    (hnew : ∀ turn, s.notes ⟨tenant.id, d.synthId turn⟩ = none) :
    DistillConverges srv E tenant.id spec.scope
        (srv.handleDistill d dryRun spec tenant.id index).2 s (srv.validateAll d inputs jobs s) ↔
      NothingToDistill srv d dryRun spec tenant.id index := by
  rw [← handleDistill_eq_nil_iff srv d tenant dryRun spec index hdone]
  constructor
  · intro hconverges id hid
    obtain ⟨⟨note, hnote, -, -, hproc, -⟩, hne⟩ :=
      of_isSource_handleDistill srv d tenant dryRun spec index hdone hnew hid
    have hsame : SameNote tenant.id id s (srv.validateAll d inputs jobs s) :=
      sameNote_validateAll tenant.id s inputs jobs fun spec' hmem => hne spec' (hjobs.mem_iff.1 hmem)
    obtain ⟨note', hnote', hprocessed', -⟩ := hconverges.marked id hid
    rw [Vault.readNoteIn_of_sameNote hsame, hnote] at hnote'
    cases hnote'
    rw [hproc] at hprocessed'
    cases hprocessed'
  · intro hnone
    exact ⟨fun id hid => absurd hid (hnone id), fun id hid => absurd hid (hnone id),
      fun id hid => absurd hid (hnone id), fun _ _ _ _ _ id hid => absurd hid (hnone id)⟩

end Main

/-- A worker for which all notes have the same embedding. -/
def plainDistiller : Distiller Unit where
  embedding _ _ := some ()
  reaches _ _ _ := true
  synthesize _ := .ok ⟨"Synthesis", "text"⟩
  synthId turn := turn + 2
  quality _ := some 1
  fixed _ _ := ""
  clientText _ := ""

def oneLiveNote : IndexedVault := .ofNote (plainNote 1 none "text")

def distillDebug : DistillSource := ⟨.section "debug", 500, some (75 / 100)⟩

def distillInputs : ValidateSpec → Nat → DistillInput := fun _ turn => ⟨turn, .at turn⟩

def oneMarkedNote : IndexedVault :=
  let note := plainNote 1 none "text"
  .ofNote { note with frontmatter := note.frontmatter.mark none }

theorem distillConverges_markedNote :
    resolveDistillScope oneMarkedNote.answers "main" distillDebug.scope = .ok [1] ∧
      DistillConverges plainServer Unit "main" distillDebug.scope [] oneMarkedNote.state
        oneMarkedNote.state := by
  refine ⟨rfl, (distillConverges_iff_nothingToDistill plainServer plainDistiller plainTenant false
    distillDebug oneMarkedNote.answers distillInputs [] _ rfl (.refl _) ?_).2 ?_⟩
  · intro turn
    apply stateOf_notes_of_ne
    intro hkey
    exact Nat.succ_succ_ne_one turn (congrArg NoteKey.id hkey)
  refine .inr (.inr fun ids hids id hmem => ?_)
  cases hids
  cases List.mem_singleton.1 hmem
  rintro ⟨note, hnote, -, -, hproc, -⟩
  cases hnote
  cases hproc

theorem not_distillConverges_liveNote :
    (∃ out, (plainServer.handleDistill plainDistiller false distillDebug "main"
        oneLiveNote.answers).1 = .ok out) ∧
      ¬ DistillConverges plainServer Unit "main" distillDebug.scope
        (plainServer.handleDistill plainDistiller false distillDebug "main" oneLiveNote.answers).2
        oneLiveNote.state (plainServer.validateAll plainDistiller distillInputs
          (plainServer.handleDistill plainDistiller false distillDebug "main" oneLiveNote.answers).2
          oneLiveNote.state) := by
  refine ⟨⟨_, rfl⟩, fun h => ?_⟩
  obtain ⟨note, hnote, hproc, -⟩ := h.marked 1 ⟨_, mem_cons_self, mem_cons_self⟩
  cases hnote
  cases hproc

end Gradatum.Notes
