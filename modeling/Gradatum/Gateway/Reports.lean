import Gradatum.Gateway.Dispatch

/-!
# What the dispatchers report

A breaker recovers when its probe is reported.  The reports are made by the dispatchers and by the handlers
after them; what they owe is a protocol, and every request keeps to it.
-/

open Reasoning

namespace Gradatum.Gateway

/-! ## 1. The protocol -/

/-- The answers after which an attempt is reported in a way that a breaker counts. -/
def Op.settles : (op : Op) → op.Answer → Bool
  | .poolGet _, found => found
  | .configGet _, found => Option.isSome found
  | .complete _ _, .error e => countsAsCircuitFailure e
  | .stream _ _, .error e => countsAsCircuitFailure e
  | .post _ _ embeds, .notSerialised _ => embeds
  | _, _ => true

/-- Where a request stands: it owes nothing, or a report on the provider that let it through, or it has
just reported a success. -/
inductive Phase
  | idle
  | owes (p : ProviderId)
  | succeeded (p : ProviderId)

/-- The protocol of the breakers.  A request that was let through reports the provider before it turns to
another one or ends, unless a lookup or the backend gave it an answer that does not settle; a success is
the last thing that is reported. -/
def protocol : Phase → (op : Op) → op.Answer → Option Phase
  | .idle, .shouldAllow p, true => some (.owes p)
  | .idle, .shouldAllow _, false => some .idle
  | .idle, .recordFailure _ _, _ => some .idle
  | .owes p, .recordSuccess q, _ => if q = p then some (.succeeded p) else none
  | .owes p, .recordFailure q e, _ =>
    if q = p ∧ countsAsCircuitFailure e = true then some .idle else none
  | .owes p, .poolGet q, ans => some (if (Op.poolGet q).settles ans then .owes p else .idle)
  | .owes p, .configGet q, ans => some (if (Op.configGet q).settles ans then .owes p else .idle)
  | .owes p, .complete q m, ans => some (if (Op.complete q m).settles ans then .owes p else .idle)
  | .owes p, .stream q m, ans => some (if (Op.stream q m).settles ans then .owes p else .idle)
  | .owes p, .post q m b, ans => some (if (Op.post q m b).settles ans then .owes p else .idle)
  | _, _, _ => none

theorem protocol_eq_succeeded
    (h : protocol q op ans = some (.succeeded p)) : op = .recordSuccess p ∧ q = .owes p := by
  have hasks : ∀ (settled : Bool) (p' : ProviderId),
      some (if settled then Phase.owes p' else .idle) ≠ some (.succeeded p) := by
    intro settled p'
    cases settled <;> exact fun h => nomatch h
  unfold protocol at h
  split at h
  · cases h
  · cases h
  · cases h
  · simp only [Option.ite_none_right_eq_some, Option.some.injEq, Phase.succeeded.injEq] at h
    obtain ⟨rfl, rfl⟩ := h
    exact ⟨rfl, rfl⟩
  · simp at h
  · exact absurd h (hasks _ _)
  · exact absurd h (hasks _ _)
  · exact absurd h (hasks _ _)
  · exact absurd h (hasks _ _)
  · exact absurd h (hasks _ _)
  · cases h

variable {α : Type} (p : ProviderId) (model : String)

/-- The result of an attempt and what is still owed for it. -/
def Attempted (q : Phase) : Except ApiError α → Prop
  | .ok _ => q = .owes p
  | .error (.backend e) => q = .idle ∨ q = .owes p ∧ countsAsCircuitFailure e = true
  | .error _ => q = .idle

/-- Nothing is owed at the end, and a response was reported as a success. -/
def Reported (q : Phase) : Except ApiError α → Prop
  | .ok _ => ∃ p, q = .succeeded p
  | .error _ => q = .idle

/-! ## 2. One provider -/

theorem attempted_backend (e : LlmError) :
    Attempted (α := α) p (if countsAsCircuitFailure e then .owes p else .idle)
      (.error (.backend e)) := by
  cases hcnts : countsAsCircuitFailure e with
  | false => exact .inl rfl
  | true => exact .inr ⟨rfl, hcnts⟩

theorem attempted_idle (e : ApiError) : Attempted (α := α) p .idle (.error e) := by
  cases e with
  | backend e => exact .inl rfl
  | _ => exact rfl

theorem Attempted.error_congr {α β : Type} {p : ProviderId}
    (h : Attempted (α := α) p q (.error e)) : Attempted (α := β) p q (.error e) := by
  cases e <;> exact h

theorem conforms_tryProviderWithSlot (isStream : Bool) :
    (tryProviderWithSlot p model isStream).Conforms protocol (Attempted p) (.owes p) := by
  refine Process.conforms_request_bind fun found => ?_
  rcases found with _ | timeoutSecs
  · exact ⟨.idle, rfl, rfl⟩
  refine ⟨.owes p, rfl, Process.conforms_request_bind fun outcome => ?_⟩
  rcases outcome with source | _ | source | ⟨status, body⟩
  · exact ⟨.idle, rfl, .inl rfl⟩
  · exact ⟨.owes p, rfl, .inr ⟨rfl, rfl⟩⟩
  · exact ⟨.owes p, rfl, .inr ⟨rfl, rfl⟩⟩
  refine ⟨.owes p, rfl, ?_⟩
  dsimp only
  split
  · exact rfl
  split
  · exact rfl
  split
  · exact .inr ⟨rfl, rfl⟩
  · exact rfl

theorem conforms_callProvider (isStream inject : Bool) :
    (callProvider p model isStream inject).Conforms protocol (Attempted p) (.owes p) := by
  unfold callProvider
  split
  · refine (conforms_tryProviderWithSlot p model isStream).bind fun q r hr => ?_
    rcases r with e | resp
    · exact Attempted.error_congr hr
    · exact hr
  refine Process.conforms_request_bind fun found => ?_
  rcases found with _ | _
  · exact ⟨.idle, rfl, rfl⟩
  refine ⟨.owes p, rfl, ?_⟩
  dsimp only
  split
  · refine Process.conforms_request_bind fun answer => ?_
    rcases answer with e | _
    · exact ⟨_, rfl, attempted_backend p e⟩
    · exact ⟨.owes p, rfl, rfl⟩
  · refine Process.conforms_request_bind fun answer => ?_
    rcases answer with e | usage
    · exact ⟨_, rfl, attempted_backend p e⟩
    · exact ⟨.owes p, rfl, rfl⟩

theorem conforms_callProviderStream :
    (callProviderStream p model).Conforms protocol (Attempted p) (.owes p) := by
  refine Process.conforms_request_bind fun found => ?_
  rcases found with _ | _
  · exact ⟨.idle, rfl, rfl⟩
  refine ⟨.owes p, rfl, Process.conforms_request_bind fun answer => ?_⟩
  rcases answer with e | _
  · exact ⟨_, rfl, attempted_backend p e⟩
  · exact ⟨.owes p, rfl, rfl⟩

theorem conforms_callEmbedProvider :
    (callEmbedProvider p model).Conforms protocol (Attempted p) (.owes p) := by
  refine Process.conforms_request_bind fun found => ?_
  rcases found with _ | timeoutSecs
  · exact ⟨.idle, rfl, rfl⟩
  refine ⟨.owes p, rfl, Process.conforms_request_bind fun outcome => ?_⟩
  rcases outcome with source | _ | source | ⟨status, body⟩
  · exact ⟨.owes p, rfl, .inr ⟨rfl, rfl⟩⟩
  · exact ⟨.owes p, rfl, .inr ⟨rfl, rfl⟩⟩
  · exact ⟨.owes p, rfl, .inr ⟨rfl, rfl⟩⟩
  refine ⟨.owes p, rfl, ?_⟩
  dsimp only
  split
  · exact .inr ⟨rfl, rfl⟩
  split
  · exact rfl
  split
  · exact .inr ⟨rfl, rfl⟩
  · exact rfl

theorem conforms_attempt {p : ProviderId}
    (hcall : call.Conforms protocol (Attempted p) (.owes p)) : (do match ← shouldAllow p with
        | false => return .error (circuitOpen p)
        | true => call : Dispatch (Except ApiError α)).Conforms protocol (Attempted p) .idle := by
  refine Process.conforms_request_bind fun allowed => ?_
  rcases allowed with _ | _
  · exact ⟨.idle, rfl, .inl rfl⟩
  · exact ⟨.owes p, rfl, hcall⟩

theorem conforms_tryProvider (isStream inject : Bool) :
    (tryProvider p model isStream inject).Conforms protocol (Attempted p) .idle :=
  conforms_attempt (conforms_callProvider p model isStream inject)

theorem conforms_tryProviderStream : (tryProviderStream p model).Conforms protocol (Attempted p) .idle :=
  conforms_attempt (conforms_callProviderStream p model)

theorem conforms_tryEmbedProvider : (tryEmbedProvider p model).Conforms protocol (Attempted p) .idle :=
  conforms_attempt (conforms_callEmbedProvider p model)

theorem conforms_recordBackendError {p : ProviderId}
    (h : Attempted (α := α) p q (.error e)) :
    (recordBackendError p e).Conforms protocol (fun q' _ => q' = .idle) q := by
  cases e with
  | providerNotFound | serviceUnavailable => exact h
  | backend e =>
    intro _
    rcases h with rfl | ⟨rfl, hcnts⟩
    · exact ⟨.idle, rfl, rfl⟩
    · exact ⟨.idle, by simp [protocol, hcnts], rfl⟩

theorem conforms_recordOutcome (h : Attempted d.effectiveProvider q d.result) :
    (recordOutcome d).Conforms protocol (fun q' _ => Reported q' d.result) q := by
  rcases d with ⟨result, effectiveProvider, usage, model⟩
  rcases result with e | resp
  · cases e <;> exact conforms_recordBackendError h
  · intro _
    dsimp only [Attempted] at h
    subst h
    exact ⟨.succeeded effectiveProvider, by simp [protocol], effectiveProvider, rfl⟩

/-! ## 3. The dispatchers and the handlers -/

theorem conforms_dispatchWithFallback (target : AliasTarget) (isStream inject hasImage : Bool) :
    (dispatchWithFallback target isStream inject hasImage).Conforms protocol
      (fun q d => Attempted d.effectiveProvider q d.result) .idle := by
  refine (conforms_tryProvider _ _ _ _).bind fun q r hr => ?_
  rcases r with primaryErr | ⟨resp, usage⟩
  · dsimp only
    split
    · exact hr.error_congr
    refine (conforms_recordBackendError hr).bind fun q' _ hidle => ?_
    subst hidle
    split
    · exact rfl
    split
    · exact attempted_idle _ primaryErr
    · refine (conforms_tryProvider _ _ _ _).bind fun q r hr => ?_
      rcases r with fbErr | ⟨resp, usage⟩
      · exact hr.error_congr
      · exact hr
  · exact hr

theorem conforms_embedDispatchWithFallback (target : AliasTarget) :
    (embedDispatchWithFallback target).Conforms protocol
      (fun q d => Attempted d.effectiveProvider q d.result) .idle := by
  refine (conforms_tryEmbedProvider _ _).bind fun q r hr => ?_
  rcases r with primaryErr | resp
  · dsimp only
    split
    · exact hr
    refine (conforms_recordBackendError hr).bind fun q' _ hidle => ?_
    subst hidle
    split
    · exact attempted_idle _ primaryErr
    · refine (conforms_tryEmbedProvider _ _).bind fun q r hr => ?_
      rcases r with fbErr | resp
      · exact hr
      · exact hr
  · exact hr

theorem conforms_dispatchStreamWithFallback (target : AliasTarget) (hasImage : Bool) :
    (dispatchStreamWithFallback target hasImage).Conforms protocol Reported .idle := by
  refine (conforms_tryProviderStream _ _).bind fun q r hr => ?_
  rcases r with primaryErr | _
  · dsimp only
    split
    · next hbackend =>
        cases primaryErr with
        | providerNotFound | serviceUnavailable => exact hr
        | backend e => simp [isBackendError] at hbackend
    refine (conforms_recordBackendError hr).bind fun q' _ hidle => ?_
    subst hidle
    split
    · exact rfl
    split
    · exact rfl
    · refine (conforms_tryProviderStream _ _).bind fun q r hr => ?_
      rcases r with fbErr | _
      · exact (conforms_recordBackendError hr).bind fun _ _ hidle => hidle
      · intro _
        dsimp only [Attempted] at hr
        subst hr
        exact ⟨_, if_pos rfl, _, rfl⟩
  · intro _
    dsimp only [Attempted] at hr
    subst hr
    exact ⟨_, if_pos rfl, _, rfl⟩

theorem conforms_handle (enableSlotPassthrough : Bool) (call : Call) :
    (call.handle enableSlotPassthrough).Conforms protocol (fun q handled => Reported q handled.result)
      .idle := by
  cases call with
  | chat target isStream slot hasImage =>
    refine (conforms_dispatchWithFallback _ _ _ _).bind fun q d hd => ?_
    exact (conforms_recordOutcome hd).bind fun _ _ hrep => hrep
  | messages target isStream hasImage =>
    cases isStream with
    | true =>
      refine (conforms_dispatchStreamWithFallback _ _).bind fun q r hr => ?_
      rcases r with e | model
      · exact hr
      · exact hr
    | false =>
      refine (conforms_dispatchWithFallback _ _ _ _).bind fun q d hd => ?_
      exact (conforms_recordOutcome hd).bind fun _ _ hrep => hrep
  | embeddings target =>
    refine (conforms_embedDispatchWithFallback _).bind fun q d hd => ?_
    exact (conforms_recordOutcome hd).bind fun _ _ hrep => hrep

end Gradatum.Gateway
