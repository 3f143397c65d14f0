import Gradatum.Reasoning.Process
import Gradatum.Gateway.CircuitBreaker

/-!
# Dispatch with fallback

The dispatchers of the gateway and the handlers that call them, as processes over the registry of circuit
breakers.  `dispatch_stream_with_fallback` reports by itself; after the other two the handlers report the
effective provider.
-/

open Reasoning

namespace Gradatum.Gateway

/-! ## 1. The operations -/

/-- `ApiError`, those that a dispatch can end with. -/
inductive ApiError
  | providerNotFound (provider : ProviderId)
  | backend (error : LlmError)
  | serviceUnavailable (message : String)
  deriving DecidableEq

def isBackendError : ApiError → Bool
  | .backend _ => true
  | _ => false

structure Usage where
  promptTokens : Nat
  completionTokens : Nat
  totalTokens : Nat
  deriving DecidableEq

/-- What a POST by the shared HTTP client comes to.  `body` is the answered text, or the error that ended
its reading. -/
inductive PostOutcome
  | notSerialised (source : String)
  | timedOut
  | failed (source : String)
  | answered (status : Nat) (body : Except String String)
  deriving DecidableEq

inductive Op
  | shouldAllow (p : ProviderId)
  | recordSuccess (p : ProviderId)
  | recordFailure (p : ProviderId) (e : LlmError)
  /-- `providers.get`: whether the pool has the provider. -/
  | poolGet (p : ProviderId)
  /-- `config.providers.get`: the timeout that the provider is configured with. -/
  | configGet (p : ProviderId)
  | complete (p : ProviderId) (model : String)
  | stream (p : ProviderId) (model : String)
  /-- A request sent by the shared HTTP client, for a completion or for embeddings. -/
  | post (p : ProviderId) (model : String) (embeds : Bool)

def Op.Answer : Op → Type
  | .shouldAllow _ => Bool
  | .recordSuccess _ => Unit
  | .recordFailure _ _ => Unit
  | .poolGet _ => Bool
  | .configGet _ => Option Nat
  | .complete _ _ => Except LlmError (Option Usage)
  | .stream _ _ => Except LlmError Unit
  | .post _ _ _ => PostOutcome

abbrev Dispatch (α : Type) := Process Op Op.Answer α

structure AliasTarget where
  provider : ProviderId
  model : String
  fallbackProvider : Option ProviderId
  fallbackModel : Option String

variable (target : AliasTarget) (p : ProviderId) (model : String)

abbrev shouldAllow : Dispatch Bool := Process.request (Op.shouldAllow p)

abbrev recordSuccess : Dispatch Unit := Process.request (Op.recordSuccess p)

abbrev recordFailure (e : LlmError) : Dispatch Unit :=
  Process.request (Op.recordFailure p e)

abbrev poolGet : Dispatch Bool := Process.request (Op.poolGet p)

abbrev configGet : Dispatch (Option Nat) := Process.request (Op.configGet p)

abbrev complete : Dispatch (Except LlmError (Option Usage)) :=
  Process.request (Op.complete p model)

abbrev stream : Dispatch (Except LlmError Unit) :=
  Process.request (Op.stream p model)

abbrev post (embeds : Bool) : Dispatch PostOutcome :=
  Process.request (Op.post p model embeds)

structure Response where
  status : Nat
  deriving DecidableEq

/-! ## 2. One provider -/

def circuitOpen : ApiError :=
  .backend (.providerUnavailable p "circuit breaker open")

def isSuccess (status : Nat) : Bool := 200 ≤ status && status < 300

def isServerError (status : Nat) : Bool := 500 ≤ status && status < 600

/-- `try_provider_with_slot`.  An answer that is no success is passed through. -/
def tryProviderWithSlot (isStream : Bool) :
    Dispatch (Except ApiError Response) := do
  match ← configGet p with
  | none => return .error (.providerNotFound p)
  | some timeoutSecs =>
    match ← post p model false with
    | .notSerialised source => return .error (.backend (.serialization source))
    | .timedOut => return .error (.backend (.timeout timeoutSecs))
    | .failed source => return .error (.backend (.network source))
    | .answered status body =>
      if !isSuccess status then return .ok ⟨status⟩
      else if isStream then return .ok ⟨200⟩
      else
        match body with
        | .error source => return .error (.backend (.network source))
        | .ok _ => return .ok ⟨200⟩

/-- The rest of `try_provider`, once the breaker has let the request through. -/
def callProvider (isStream inject : Bool) :
    Dispatch (Except ApiError (Response × Option Usage)) := do
  if inject then
    match ← tryProviderWithSlot p model isStream with
    | .error e => return .error e
    | .ok resp => return .ok (resp, none)
  else
    match ← poolGet p with
    | false => return .error (.providerNotFound p)
    | true =>
      if isStream then
        match ← stream p model with
        | .error e => return .error (.backend e)
        | .ok _ => return .ok (⟨200⟩, none)
      else
        match ← complete p model with
        | .error e => return .error (.backend e)
        | .ok usage => return .ok (⟨200⟩, usage)

/-- `try_provider`; `inject` is that slot passthrough is enabled and the request has a slot. -/
def tryProvider (isStream inject : Bool) :
    Dispatch (Except ApiError (Response × Option Usage)) := do
  match ← shouldAllow p with
  | false => return .error (circuitOpen p)
  | true => callProvider p model isStream inject

/-- The rest of `try_provider_stream`, once the breaker has let the request through. -/
def callProviderStream : Dispatch (Except ApiError Unit) := do
  match ← poolGet p with
  | false => return .error (.providerNotFound p)
  | true =>
    match ← stream p model with
    | .error e => return .error (.backend e)
    | .ok _ => return .ok ()

def tryProviderStream : Dispatch (Except ApiError Unit) := do
  match ← shouldAllow p with
  | false => return .error (circuitOpen p)
  | true => callProviderStream p model

/-- The rest of `try_embed_provider`, once the breaker has let the request through. -/
def callEmbedProvider : Dispatch (Except ApiError Response) := do
  match ← configGet p with
  | none => return .error (.providerNotFound p)
  | some timeoutSecs =>
    match ← post p model true with
    -- the HTTP client reports a body that cannot be serialised when it is sent
    | .notSerialised source => return .error (.backend (.network source))
    | .timedOut => return .error (.backend (.timeout timeoutSecs))
    | .failed source => return .error (.backend (.network source))
    | .answered status body =>
      if isServerError status then
        return .error (.backend (.upstreamError status (body.toOption.getD "")))
      else if !isSuccess status then return .ok ⟨status⟩
      else
        match body with
        | .error source => return .error (.backend (.network source))
        | .ok _ => return .ok ⟨200⟩

def tryEmbedProvider : Dispatch (Except ApiError Response) := do
  match ← shouldAllow p with
  | false => return .error (circuitOpen p)
  | true => callEmbedProvider p model

/-! ## 3. The dispatchers -/

def AliasTarget.fbModel : String := target.fallbackModel.getD target.model

/-- The refusal of an image request whose primary has failed. -/
def visionUnavailable : ApiError :=
  .serviceUnavailable s!"vision provider '{p}' unavailable, no vision-capable fallback"

def recordBackendError : ApiError → Dispatch Unit
  | .backend e => recordFailure p e
  | _ => return ()

structure Dispatched where
  result : Except ApiError Response
  effectiveProvider : ProviderId
  usage : Option Usage
  modelUsed : String

def dispatchWithFallback (isStream inject hasImage : Bool) :
    Dispatch Dispatched := do
  match ← tryProvider target.provider target.model isStream inject with
  | .ok (resp, usage) => return ⟨.ok resp, target.provider, usage, target.model⟩
  | .error primaryErr =>
    if !isBackendError primaryErr then
      return ⟨.error primaryErr, target.provider, none, target.model⟩
    else
      recordBackendError target.provider primaryErr
      if hasImage then
        return ⟨.error (visionUnavailable target.provider), target.provider, none, target.model⟩
      else
        match target.fallbackProvider with
        | none => return ⟨.error primaryErr, target.provider, none, target.model⟩
        | some fbProvider =>
          match ← tryProvider fbProvider target.fbModel isStream inject with
          | .ok (resp, usage) => return ⟨.ok resp, fbProvider, usage, target.fbModel⟩
          | .error fbErr => return ⟨.error fbErr, fbProvider, none, target.fbModel⟩

/-- `dispatch_stream_with_fallback`; the result is the model that answers. -/
def dispatchStreamWithFallback (hasImage : Bool) :
    Dispatch (Except ApiError String) := do
  match ← tryProviderStream target.provider target.model with
  | .ok _ =>
    recordSuccess target.provider
    return .ok target.model
  | .error primaryErr =>
    if !isBackendError primaryErr then return .error primaryErr
    else
      recordBackendError target.provider primaryErr
      if hasImage then return .error (visionUnavailable target.provider)
      else
        match target.fallbackProvider with
        | none => return .error primaryErr
        | some fbProvider =>
          match ← tryProviderStream fbProvider target.fbModel with
          | .ok _ =>
            recordSuccess fbProvider
            return .ok target.fbModel
          | .error fbErr =>
            recordBackendError fbProvider fbErr
            return .error fbErr

def embedDispatchWithFallback : Dispatch Dispatched := do
  match ← tryEmbedProvider target.provider target.model with
  | .ok resp => return ⟨.ok resp, target.provider, none, target.model⟩
  | .error primaryErr =>
    if !isBackendError primaryErr then
      return ⟨.error primaryErr, target.provider, none, target.model⟩
    else
      recordBackendError target.provider primaryErr
      match target.fallbackProvider with
      | none => return ⟨.error primaryErr, target.provider, none, target.model⟩
      | some fbProvider =>
        match ← tryEmbedProvider fbProvider target.fbModel with
        | .ok resp => return ⟨.ok resp, fbProvider, none, target.fbModel⟩
        | .error fbErr => return ⟨.error fbErr, fbProvider, none, target.fbModel⟩

/-! ## 4. The handlers -/

/-- What a handler ends with: its response, and the provider that errors in the body of a stream are
charged to. -/
structure Handled where
  result : Except ApiError Response
  streamsFrom : Option ProviderId

def recordOutcome (d : Dispatched) : Dispatch Unit :=
  match d.result with
  | .ok _ => recordSuccess d.effectiveProvider
  | .error (.backend e) => recordFailure d.effectiveProvider e
  | .error _ => return ()

/-- A request that reaches a dispatcher.  `slot` is that the request carries a slot id. -/
inductive Call
  | chat (target : AliasTarget) (isStream slot hasImage : Bool)
  | messages (target : AliasTarget) (isStream hasImage : Bool)
  | embeddings (target : AliasTarget)

/-- Handlers `chat_completions`, `messages` and `embed_remote` from the dispatch on.  The body of an
OpenAI stream charges its errors to the effective provider, that of an Anthropic stream to the primary,
and bytes that are passed through to nobody. -/
def Call.handle (enableSlotPassthrough : Bool) : Call → Dispatch Handled
  | .chat target isStream slot hasImage => do
      let inject := enableSlotPassthrough && slot
      let d ← dispatchWithFallback target isStream inject hasImage
      recordOutcome d
      let charged := isStream && !inject && d.result.isOk
      return ⟨d.result, if charged then some d.effectiveProvider else none⟩
  | .messages target true hasImage => do
      match ← dispatchStreamWithFallback target hasImage with
      | .ok _ => return ⟨.ok ⟨200⟩, some target.provider⟩
      | .error e => return ⟨.error e, none⟩
  | .messages target false hasImage => do
      let d ← dispatchWithFallback target false false hasImage
      recordOutcome d
      return ⟨d.result, none⟩
  | .embeddings target => do
      let d ← embedDispatchWithFallback target
      recordOutcome d
      return ⟨d.result, none⟩

end Gradatum.Gateway
