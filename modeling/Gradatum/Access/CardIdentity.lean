import Gradatum.Access.Curate
import Gradatum.Reasoning.Run

/-!
# The identity of a card

The link `[[feature:F-NN]]` on a structural line is the identity of a card, and no later write is to change
it.  A request is checked when it comes in, and its job stores the note some time later.
-/

open Reasoning

namespace Gradatum.Access

open Notes ProjectMap List Option Bool

/-! ## 1. Requests and jobs in any order -/

/-- A job that waits, with the authority of the request it comes from. -/
structure PendingWrite where
  authority : FeatureWriteAuthority
  spec : CurateSpec
  deriving DecidableEq

structure CardSystem where
  vault : IndexedVault
  pending : List PendingWrite

inductive CardEvent where
  | vaultWrite (trust : TrustContext) (fresh : NoteId) (req : VaultWriteRequest)
  | mutateRole (trust : TrustContext) (tenantId : Option VaultId) (item : MutateRoleItem)
  | createFeatureCard (trust : TrustContext) (number : Nat) (fresh : NoteId)
      (req : CreateFeatureCardRequest)
  | curate (index : Nat) (input : CurateInput)

variable (s : CardSystem)

def CardSystem.ran : CardEvent → Option (PendingWrite × CurateInput)
  | .curate index input => s.pending[index]?.map fun job => (job, input)
  | _ => none

def CardSystem.expects (key : NoteKey) : Bool :=
  s.pending.any fun job => job.authority = .serverAllocated && job.spec.key = key

def CardSystem.unused (id : NoteId) : Bool :=
  s.vault.keys.all (·.id ≠ id) && s.pending.all (·.spec.noteId ≠ id)

/-- `Ulid::generate` gives ids that are not in use. -/
def CardSystem.generates : CardEvent → Bool
  | .vaultWrite _ fresh req => req.noteId.isSome || s.unused fresh
  | .createFeatureCard _ _ fresh _ => s.unused fresh
  | _ => true

namespace WriteApi

variable (api : WriteApi) (s : CardSystem)

def enqueued : CardEvent → Option PendingWrite
  | .vaultWrite trust fresh req =>
    (api.vaultWrite s.vault trust .external fresh req).toOption.map fun spec => ⟨.external, spec⟩
  | .mutateRole trust tenantId item =>
    match api.mutateRole s.vault trust tenantId item with
    | .ok (.queued spec) => some ⟨.external, spec⟩
    | _ => none
  | .createFeatureCard trust number fresh req =>
    (api.createFeatureCard s.vault trust number fresh req).toOption.map fun spec =>
      ⟨.serverAllocated, spec⟩
  | .curate _ _ => none

def cardStep : CardEvent → CardSystem
  | .curate index input =>
    match s.pending[index]? with
    | some job =>
      { vault := api.afterCurate s.vault input job.spec, pending := s.pending.eraseIdx index }
    | none => s
  | e => { s with pending := s.pending ++ (api.enqueued s e).toList }

/-! ## 2. The identity -/

def structuralIdentity (body : String) : List String :=
  featureIdentityFromTargets api.parseUlid (extractStructuralTargets body)

def storedBody (v : IndexedVault) (key : NoteKey) : Option String :=
  (api.server.vault.readNoteIn v.state key.vault key.id).map (·.body)

def cardIdentity (v : IndexedVault) (key : NoteKey) : List String :=
  ((api.storedBody v key).map api.structuralIdentity).getD []

/-- A card that has an identity keeps it, and the write of a client gives none to a note without one. -/
structure IdentityImmutable (s : CardSystem) (es : List CardEvent) : Prop where
  kept : ∀ pre post key, pre ++ post <+: es →
    api.cardIdentity (run api.cardStep s pre).vault key ≠ [] →
      api.cardIdentity (run api.cardStep s (pre ++ post)).vault key =
        api.cardIdentity (run api.cardStep s pre).vault key
  notGiven : EachStep api.cardStep (fun s e => ∀ job input, s.ran e = some (job, input) →
    job.authority = .external → api.cardIdentity s.vault job.spec.key = [] →
      api.cardIdentity (api.cardStep s e).vault job.spec.key = []) s es

def plainIdentity (body : String) : Bool := api.featureIdentity body = api.structuralIdentity body

/-- A write to a note that is not about to be created.  Under the hint `project-map` the guard sees the
identities that count, before and after; under another hint there are none. -/
def safeWrite (tenant : VaultId) (fresh : NoteId) (req : VaultWriteRequest) : Bool :=
  match api.preallocatedId fresh req with
  | .error _ => true
  | .ok id =>
    !s.expects ⟨tenant, id⟩ &&
      if isCardHint req then
        api.plainIdentity (api.injectTrack s.vault tenant req.body) &&
          (api.storedBody s.vault ⟨tenant, id⟩).all api.plainIdentity
      else
        (api.structuralIdentity req.body).isEmpty && (api.cardIdentity s.vault ⟨tenant, id⟩).isEmpty

/-- The requests of clients are safe writes, and masking keeps the identities in the bodies of their
jobs. -/
def safeStep : CardEvent → Bool
  | .vaultWrite trust fresh req => trust.tenantId.all fun tenant => api.safeWrite s tenant fresh req
  | .mutateRole trust _ item => trust.tenantId.all fun tenant =>
    match api.roleWrite s.vault tenant item with
    | .ok req => api.safeWrite s tenant 0 req
    | .error _ => true
  | .createFeatureCard _ _ _ _ => true
  | .curate index input => s.pending[index]?.all fun job =>
    job.authority = .serverAllocated ||
      api.structuralIdentity (api.server.vault.privacy.maskedBody job.spec.body
        input.persist.write.outcome).1 = api.structuralIdentity job.spec.body

def Serves (tenant : VaultId) : Prop :=
  api.server.multiTenant = false → tenant = api.server.vault.vaultId

section Jobs

variable {api}

theorem cardIdentity_afterCurate_of_ne (hne : key ≠ spec.key) :
    api.cardIdentity (api.afterCurate v input spec) key = api.cardIdentity v key := by
  have hread : api.server.vault.readNoteIn (api.afterCurate v input spec).state key.vault key.id =
      api.server.vault.readNoteIn v.state key.vault key.id := by
    rcases api.handleCurate_cases input spec v.state with
      hsame | ⟨decisions, statusText, author, sec, status, -, -, -, hvault, -, hstor⟩
    · exact congrArg (api.server.vault.readNoteIn · key.vault key.id) hsame
    show api.server.vault.readNoteIn (api.handleCurate input spec v.state).2 key.vault key.id = _
    rw [hstor]
    exact Vault.readNoteIn_of_sameNote (sameNote_curated hvault hne)
  rw [cardIdentity, storedBody, hread]
  rfl

theorem cardIdentity_afterCurate_self :
    api.cardIdentity (api.afterCurate v input spec) spec.key = api.cardIdentity v spec.key ∨
      api.Serves spec.tenantId ∧ api.cardIdentity (api.afterCurate v input spec) spec.key =
          api.structuralIdentity (api.server.vault.privacy.maskedBody spec.body
            input.persist.write.outcome).1 := by
  have hafter : (api.afterCurate v input spec).state = (api.handleCurate input spec v.state).2 := rfl
  unfold cardIdentity storedBody
  rw [hafter]
  rcases api.handleCurate_cases input spec v.state with
    hsame | ⟨decisions, statusText, author, sec, status, -, -, -, hvault, hserv, hstor⟩
  · rw [hsame]
    exact .inl rfl
  rw [hstor]
  let req := api.persistRequest spec author decisions statusText
  have hread : api.server.vault.readNoteIn (api.curated input.persist sec status req v.state)
        spec.tenantId spec.noteId = some (api.curatedNote input.persist sec status req v.state) ∨
      api.server.vault.readNoteIn (api.curated input.persist sec status req v.state)
        spec.tenantId spec.noteId = api.server.vault.readNoteIn v.state spec.tenantId spec.noteId :=
    readNoteIn_curated hvault rfl
  rcases hread with hnew | hold
  · right
    exact ⟨hserv, congrArg (fun note => ((note.map (·.body)).map api.structuralIdentity).getD []) hnew⟩
  · left
    exact congrArg (fun note => ((note.map (·.body)).map api.structuralIdentity).getD []) hold

end Jobs

/-! ## 3. Requests -/

section Requests

variable {api} {s : CardSystem}

theorem cardIdentity_of_unused (hunus : s.unused fresh = true) (tenant : VaultId) :
    api.cardIdentity s.vault ⟨tenant, fresh⟩ = [] := by
  have hrow : s.vault.state.notes ⟨tenant, fresh⟩ = none := by
    by_contra hsome
    obtain ⟨row, hrow⟩ := ne_none_iff_exists'.1 hsome
    rw [CardSystem.unused, and_eq_true, List.all_eq_true] at hunus
    exact of_decide_eq_true (hunus.1 _ (s.vault.covers _ row hrow)) rfl
  rw [cardIdentity, storedBody, Vault.readNoteIn, hrow]
  rfl

theorem ne_of_unused (hunus : s.unused fresh = true) (tenant : VaultId) :
    ∀ job ∈ s.pending, job.spec.key ≠ ⟨tenant, fresh⟩ := by
  intro job hjob hkey
  rw [CardSystem.unused, and_eq_true, List.all_eq_true, List.all_eq_true] at hunus
  exact of_decide_eq_true (hunus.2 job hjob) (congrArg NoteKey.id hkey)

theorem readBack_storedBody (hserv : api.Serves tenant) (h : api.readBackReader tenant = .ok reader)
    (id : NoteId) :
    (reader.readNote s.vault.state id).map (·.body) = api.storedBody s.vault ⟨tenant, id⟩ := by
  cases hmode : api.policy.multiTenant with
  | true =>
    rw [api.readBackReader_ok hmode h]
    rfl
  | false =>
    rw [Api.readBackReader, hmode, if_neg Bool.false_ne_true] at h
    cases h
    rw [storedBody, hserv (api.sameMode ▸ hmode)]
    rfl

theorem existingIdentity_eq {id : NoteId}
    (hserv : api.Serves tenant) (hnew : req.noteId.isSome = true ∨ s.unused id = true)
    (hplain : (api.storedBody s.vault ⟨tenant, id⟩).all api.plainIdentity = true)
    (h : api.existingIdentity s.vault tenant req id = .ok current) :
    current = api.cardIdentity s.vault ⟨tenant, id⟩ := by
  unfold existingIdentity at h
  split at h
  · rw [bind_eq_ok_iff] at h
    obtain ⟨reader, hreader, h⟩ := h
    rw [pure_eq_ok_iff] at h
    have hbody := readBack_storedBody hserv hreader id (s := s)
    rw [← h, cardIdentity, ← hbody]
    rw [← hbody] at hplain
    cases hnote : reader.readNote s.vault.state id with
    | none => rfl
    | some note =>
      rw [hnote] at hplain
      exact of_decide_eq_true hplain
  · rename_i hnone
    rw [cardIdentity_of_unused (hnew.resolve_left hnone)]
    exact (pure_eq_ok_iff.1 h).symm

theorem structuralIdentity_of_safeWrite (h : api.vaultWrite s.vault trust .external fresh req = .ok spec)
    (hsafe : api.safeWrite s spec.tenantId fresh req = true)
    (hnew : req.noteId.isSome = true ∨ s.unused fresh = true) (hserv : api.Serves spec.tenantId) :
    api.structuralIdentity spec.body = api.cardIdentity s.vault spec.key := by
  obtain ⟨prepared, hacc⟩ := vaultWrite_ok h
  have hkeeps := prepare_keeps hacc.prepares
  have hid := hacc.preallocated
  have hbody : spec.body = prepared.body := congrArg CurateSpec.body hacc.job
  rw [safeWrite, hid] at hsafe
  dsimp only at hsafe
  rw [and_eq_true] at hsafe
  rcases prepare_ok hacc.prepares with ⟨hcard, hprep⟩ | ⟨hcard, hprep⟩
  · rw [if_pos hcard, and_eq_true] at hsafe
    obtain ⟨-, hplain, hstor⟩ := hsafe
    have hinj : prepared.body = api.injectTrack s.vault spec.tenantId req.body := by
      rw [(prepareCard_ok hprep).1]
    have hhint : isCardHint prepared = isCardHint req := by rw [isCardHint, isCardHint, hkeeps.2]
    -- the guard ran, and both sides of its comparison are the structural identities
    have hguard := hacc.feature
    rw [guardFeature, if_pos ⟨rfl, hhint.trans hcard⟩, bind_eq_ok_iff] at hguard
    obtain ⟨current, hcur, hequal⟩ := hguard
    rw [require_eq_ok_iff, decide_eq_true_eq] at hequal
    have hnew' : prepared.noteId.isSome = true ∨ s.unused spec.noteId = true := by
      rcases hnew with hsome | hunus
      · exact .inl (hkeeps.1 ▸ hsome)
      cases hnote : req.noteId with
      | some text => exact .inl (by rw [hkeeps.1, hnote]; rfl)
      | none =>
        rw [preallocatedId, hnote] at hid
        cases hid
        exact .inr hunus
    rw [hbody, hinj]
    rw [hinj] at hequal
    exact (of_decide_eq_true hplain).symm.trans
      (hequal.trans (existingIdentity_eq hserv hnew' hstor hcur))
  · rw [if_neg (not_eq_true _ ▸ hcard), and_eq_true, List.isEmpty_iff, List.isEmpty_iff] at hsafe
    rw [hbody, hprep, hsafe.2.1]
    exact hsafe.2.2.symm

theorem not_expects_of_safeWrite (h : api.vaultWrite s.vault trust authority fresh req = .ok spec)
    (hsafe : api.safeWrite s spec.tenantId fresh req = true) : s.expects spec.key = false := by
  obtain ⟨prepared, hacc⟩ := vaultWrite_ok h
  rw [safeWrite, hacc.preallocated] at hsafe
  dsimp only at hsafe
  rw [and_eq_true, not_eq_true'] at hsafe
  exact hsafe.1

/-- A job comes from a safe write of a client, or is that of a new card. -/
theorem enqueued_cases (h : api.enqueued s e = some job) (hsafe : api.safeStep s e = true)
    (hfresh : s.generates e = true) : (job.authority = .external ∧ ∃ trust fresh req,
      api.vaultWrite s.vault trust .external fresh req = .ok job.spec ∧
        api.safeWrite s job.spec.tenantId fresh req = true ∧
        (req.noteId.isSome = true ∨ s.unused fresh = true)) ∨
      job.authority = .serverAllocated ∧ s.unused job.spec.noteId = true := by
  -- a safe write is one for the tenant of the token
  have hten : ∀ trust fresh req, api.vaultWrite s.vault trust .external fresh req = .ok job.spec →
      trust.tenantId = some job.spec.tenantId := fun trust fresh req hwrite => by
    obtain ⟨prepared, hacc⟩ := vaultWrite_ok hwrite
    exact effectiveWriteVault_tenantId hacc.tenant
  cases e with
  | vaultWrite trust fresh req =>
    rw [enqueued, map_eq_some_iff] at h
    obtain ⟨spec, hspec, rfl⟩ := h
    have hwrite := toOption_eq_some_iff.1 hspec
    rw [safeStep, hten trust fresh req hwrite] at hsafe
    rw [CardSystem.generates, or_eq_true] at hfresh
    exact .inl ⟨rfl, trust, fresh, req, hwrite, hsafe, hfresh⟩
  | mutateRole trust tenantId item =>
    rw [enqueued] at h
    split at h
    · rename_i spec hqueued
      cases h
      obtain ⟨req, hreq, hwrite⟩ := mutateRole_queued hqueued
      rw [safeStep, hten trust 0 req hwrite, all_some, hreq] at hsafe
      obtain ⟨_, _, _, _, _, -, -, -, -, -, -, hrole⟩ := roleWrite_ok hreq
      exact .inl ⟨rfl, trust, 0, req, hwrite, hsafe, .inl (by rw [hrole]; rfl)⟩
    · cases h
  | createFeatureCard trust number fresh req =>
    rw [enqueued, map_eq_some_iff] at h
    obtain ⟨spec, hspec, rfl⟩ := h
    refine .inr ⟨rfl, ?_⟩
    rw [createFeatureCard_noteId (toOption_eq_some_iff.1 hspec)]
    exact hfresh
  | curate index input => cases h

end Requests

/-! ## 4. Runs -/

/-- What holds between steps: the job of a client has the identity of its card, and the job of a card with
a new number is the only one for its note, which has none yet. -/
structure Settled (s : CardSystem) : Prop where
  external : ∀ job ∈ s.pending, job.authority = .external → api.Serves job.spec.tenantId →
    api.structuralIdentity job.spec.body = api.cardIdentity s.vault job.spec.key
  allocated : ∀ job ∈ s.pending, job.authority = .serverAllocated →
    api.cardIdentity s.vault job.spec.key = []
  alone : s.pending.Pairwise fun a b => a.spec.key = b.spec.key →
    a.authority = .external ∧ b.authority = .external

section Runs

variable {api} {s : CardSystem} {e : CardEvent} {es : List CardEvent} {job : PendingWrite} {index : Nat}
  {input : CurateInput}

section

variable (hs : api.Settled s)

include hs

theorem cardIdentity_afterCurate_external (hjob : s.pending[index]? = some job)
    (hauth : job.authority = .external) (hsafe : api.safeStep s (.curate index input) = true)
    (key : NoteKey) :
    api.cardIdentity (api.afterCurate s.vault input job.spec) key = api.cardIdentity s.vault key := by
  by_cases hkey : key = job.spec.key
  · rw [hkey]
    have hself : api.cardIdentity (api.afterCurate s.vault input job.spec) job.spec.key = _ ∨ _ :=
      cardIdentity_afterCurate_self
    rcases hself with hsame | ⟨hserv, hbody⟩
    · exact hsame
    rw [safeStep, hjob, all_some, hauth] at hsafe
    rw [hbody, of_decide_eq_true hsafe]
    exact hs.external job (mem_of_getElem? hjob) hauth hserv
  · exact cardIdentity_afterCurate_of_ne hkey

theorem cardIdentity_afterCurate_of_settled (hjob : s.pending[index]? = some job)
    (hsafe : api.safeStep s (.curate index input) = true)
    (hkey : api.cardIdentity s.vault key ≠ [] ∨ ∃ other ∈ s.pending.eraseIdx index, other.spec.key = key) :
    api.cardIdentity (api.afterCurate s.vault input job.spec) key = api.cardIdentity s.vault key := by
  cases hauth : job.authority with
  | external => exact cardIdentity_afterCurate_external hs hjob hauth hsafe key
  | serverAllocated =>
    apply cardIdentity_afterCurate_of_ne
    rintro rfl
    rcases hkey with hsome | ⟨other, hother, hsame⟩
    · exact hsome (hs.allocated job (mem_of_getElem? hjob) hauth)
    -- no two jobs wait for the note of a new card
    obtain ⟨i, hi, hne, rfl⟩ := mem_eraseIdx_iff_getElem.1 hother
    obtain ⟨hindex, rfl⟩ := List.getElem?_eq_some_iff.1 hjob
    have halone := pairwise_iff_getElem.1 hs.alone
    rcases Nat.lt_or_gt_of_ne hne with hlt | hgt
    · cases hauth.symm.trans (halone i index hi hindex hlt hsame).2
    · cases hauth.symm.trans (halone index i hindex hi hgt hsame.symm).1

theorem settled_curate (hsafe : api.safeStep s (.curate index input) = true) :
    api.Settled (api.cardStep s (.curate index input)) := by
  cases hjob : s.pending[index]? with
  | none =>
    rw [cardStep, hjob]
    exact hs
  | some job =>
    rw [cardStep, hjob]
    have hkept : ∀ other ∈ s.pending.eraseIdx index,
        api.cardIdentity (api.afterCurate s.vault input job.spec) other.spec.key =
          api.cardIdentity s.vault other.spec.key := fun other hother =>
      cardIdentity_afterCurate_of_settled hs hjob hsafe (.inr ⟨other, hother, rfl⟩)
    have hsub : (s.pending.eraseIdx index).Sublist s.pending := eraseIdx_sublist s.pending index
    refine ⟨fun other hother hauth hserv => ?_, fun other hother hauth => ?_, ?_⟩
    · show _ = api.cardIdentity (api.afterCurate s.vault input job.spec) _
      rw [hkept other hother]
      exact hs.external other (hsub.subset hother) hauth hserv
    · show api.cardIdentity (api.afterCurate s.vault input job.spec) _ = []
      rw [hkept other hother]
      exact hs.allocated other (hsub.subset hother) hauth
    · exact hs.alone.sublist hsub

theorem Settled.push (hext : job.authority = .external → api.Serves job.spec.tenantId →
      api.structuralIdentity job.spec.body = api.cardIdentity s.vault job.spec.key)
    (halloc : job.authority = .serverAllocated → api.cardIdentity s.vault job.spec.key = [])
    (halone : ∀ old ∈ s.pending, old.spec.key = job.spec.key →
      old.authority = .external ∧ job.authority = .external) :
    api.Settled { s with pending := s.pending ++ [job] } where
  external := forall_mem_append.2 ⟨hs.external, forall_mem_singleton.2 hext⟩
  allocated := forall_mem_append.2 ⟨hs.allocated, forall_mem_singleton.2 halloc⟩
  alone := pairwise_append.2 ⟨hs.alone, pairwise_singleton _ _, fun old hold =>
    forall_mem_singleton.2 (halone old hold)⟩

theorem settled_enqueue (hsafe : api.safeStep s e = true)
    (hfresh : s.generates e = true) :
    api.Settled { s with pending := s.pending ++ (api.enqueued s e).toList } := by
  cases hnew : api.enqueued s e with
  | none =>
    rw [toList_none, append_nil]
    exact hs
  | some job =>
    rw [toList_some]
    rcases enqueued_cases hnew hsafe hfresh with
      ⟨hauth, trust, fresh, req, hwrite, hsafe, hname⟩ | ⟨hauth, hunus⟩
    · -- no job of a new card waits for the note
      have hexpects := not_expects_of_safeWrite hwrite hsafe
      rw [CardSystem.expects, List.any_eq_false] at hexpects
      apply hs.push
      · exact fun _ hserv => structuralIdentity_of_safeWrite hwrite hsafe hname hserv
      · intro halloc
        cases hauth.symm.trans halloc
      intro old hold hkey
      cases hold' : old.authority with
      | external => exact ⟨rfl, hauth⟩
      | serverAllocated => exact absurd (by simp [hold', hkey]) (hexpects old hold)
    · apply hs.push
      · intro hext
        cases hauth.symm.trans hext
      · exact fun _ => cardIdentity_of_unused hunus _
      · exact fun old hold hkey => absurd hkey (ne_of_unused hunus _ old hold)

theorem settled_cardStep (hsafe : api.safeStep s e = true)
    (hfresh : s.generates e = true) : api.Settled (api.cardStep s e) := by
  cases e with
  | curate index input => exact settled_curate hs hsafe
  | vaultWrite | mutateRole | createFeatureCard => exact settled_enqueue hs hsafe hfresh

theorem cardIdentity_cardStep (hsafe : api.safeStep s e = true)
    (hkey : api.cardIdentity s.vault key ≠ []) :
    api.cardIdentity (api.cardStep s e).vault key = api.cardIdentity s.vault key := by
  cases e with
  | curate index input =>
    cases hjob : s.pending[index]? with
    | none => rw [cardStep, hjob]
    | some job =>
      rw [cardStep, hjob]
      exact cardIdentity_afterCurate_of_settled hs hjob hsafe (.inl hkey)
  | vaultWrite | mutateRole | createFeatureCard => rfl

end

theorem identityImmutable_of_safe (hidle : s.pending = [])
    (hfresh : EachStep api.cardStep (fun s e => s.generates e = true) s es)
    (hsafe : EachStep api.cardStep (fun s e => api.safeStep s e = true) s es) :
    api.IdentityImmutable s es := by
  have hs : api.Settled s := by
    refine ⟨fun job hjob => ?_, fun job hjob => ?_, ?_⟩
    · rw [hidle] at hjob
      cases hjob
    · rw [hidle] at hjob
      cases hjob
    · rw [hidle]
      exact List.Pairwise.nil
  have hboth := hsafe.and hfresh
  have hstep : ∀ s e, api.Settled s → api.safeStep s e = true ∧ s.generates e = true →
      api.Settled (api.cardStep s e) := fun s e hs he => settled_cardStep hs he.1 he.2
  constructor
  · intro pre post key hpre
    -- what holds across every step holds between any two states
    let kept (s s' : CardSystem) : Prop := api.cardIdentity s.vault key ≠ [] →
      api.cardIdentity s'.vault key = api.cardIdentity s.vault key
    have htrans : ∀ s₁ s₂ s₃, kept s₁ s₂ → kept s₂ s₃ → kept s₁ s₃ := by
      intro s₁ s₂ s₃ h₁₂ h₂₃ hkey
      rw [← h₁₂ hkey]
      apply h₂₃
      rwa [h₁₂ hkey]
    have heach : EachStep api.cardStep (fun s e => kept s (api.cardStep s e)) s es :=
      hboth.imp_of_inv hs hstep fun s e hs he hkey => cardIdentity_cardStep hs he.1 hkey
    exact (eachStep_iff_between (fun _ _ => rfl) htrans).1 heach pre post hpre
  · apply hboth.imp_of_inv hs hstep
    intro s e hs he job input hran hauth hnone
    cases e with
    | curate index input' =>
      rw [CardSystem.ran, map_eq_some_iff] at hran
      obtain ⟨job', hjob, heq⟩ := hran
      cases heq
      rw [cardStep, hjob]
      exact (cardIdentity_afterCurate_external hs hjob hauth he.1 _).trans hnone
    | vaultWrite | mutateRole | createFeatureCard => cases hran

end Runs

end WriteApi

/-! ## 5. A card -/

def featureCard : Note :=
  let card := plainNote 1 none
    "[[project:g]] [[status:OPEN]] [[kind:FEATURE]] [[version:g/1.0]]\n\n[[feature:F-01]]"
  { card with
    frontmatter := { card.frontmatter with «section» := .projectMap, updated := some 7 }, contentHash := 7 }

def oneCard : CardSystem := ⟨IndexedVault.ofNote featureCard, []⟩

def writesBeside : List CardEvent :=
  [.vaultWrite (bearerOf "main") 2 { title := "Note", body := "text", sectionHint := some "debug" },
    .curate 0 ⟨.rejected, 0, .at 8⟩]

def writesInPlace : List CardEvent :=
  [.vaultWrite (bearerOf "main") 2
      { title := "Note", body := "text", sectionHint := some "debug", noteId := some (ulidText 1),
        expectedSha256 := some (hexText 7) },
    .curate 0 ⟨.rejected, 0, .at 8⟩]

theorem identityImmutable_writesBeside : plainWriteApi.IdentityImmutable oneCard writesBeside :=
  WriteApi.identityImmutable_of_safe rfl ⟨by decide, rfl, trivial⟩
    ⟨by decide +kernel, by decide +kernel, trivial⟩

/-- The guard runs under the hint `project-map` alone, so a note of another section takes the place of the
card and its identity is gone. -/
theorem not_identityImmutable_writesInPlace :
    ¬ plainWriteApi.IdentityImmutable oneCard writesInPlace := by
  intro h
  have hcard : plainWriteApi.cardIdentity oneCard.vault ⟨"main", 1⟩ = ["F-01"] := by decide +kernel
  have hgone : plainWriteApi.cardIdentity (run plainWriteApi.cardStep oneCard writesInPlace).vault
      ⟨"main", 1⟩ = [] := by decide +kernel
  have hkept := h.kept [] writesInPlace ⟨"main", 1⟩ prefix_rfl
  rw [run_nil, nil_append, hcard, hgone] at hkept
  cases hkept (cons_ne_nil _ _)

end Gradatum.Access
