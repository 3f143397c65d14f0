import Mathlib.Data.List.Sort
import Gradatum.Gateway.CircuitBreaker

/-!
# Anthropic event streams

`process_chunk` turns the chunks of an OpenAI stream into the events of an Anthropic one;
`keepalive_anthropic_sse` opens the message and mixes in `ping` events.  Block indexes are `u32` and
saturate.
-/

namespace Gradatum.Gateway

/-! ## 1. Chunks and events -/

structure ToolCallFunction where
  name : Option String
  arguments : Option String
  deriving DecidableEq

structure ChunkToolCall where
  index : Nat
  id : Option String
  function : Option ToolCallFunction
  deriving DecidableEq

structure ChunkDelta where
  content : Option String
  toolCalls : Option (List ChunkToolCall)
  deriving DecidableEq

structure ChunkChoice where
  delta : ChunkDelta
  finishReason : Option String
  deriving DecidableEq

structure ChatCompletionChunk where
  choices : List ChunkChoice
  deriving DecidableEq

abbrev StreamItem := Except LlmError ChatCompletionChunk

inductive BlockStart
  | text
  | toolUse (id name : String)
  deriving DecidableEq

inductive BlockDelta
  | textDelta (text : String)
  | inputJsonDelta (partialJson : String)
  deriving DecidableEq

inductive SseEvent
  | messageStart (model messageId : String)
  | ping
  | contentBlockStart (index : Nat) (block : BlockStart)
  | contentBlockDelta (index : Nat) (delta : BlockDelta)
  | contentBlockStop (index : Nat)
  | messageDelta (stopReason : String) (outputTokens : Nat)
  | messageStop
  | error (errorType message : String)
  deriving DecidableEq

def saturatingAdd (a b : Nat) : Nat := min (a + b) (2 ^ 32 - 1)

/-- The tokens that a delta is counted as, `(text.len() / 4) as u32`. -/
def estimatedTokens (text : String) : Nat := text.utf8ByteSize / 4 % 2 ^ 32

def mapStopReason (finishReason : String) : String :=
  match finishReason with
  | "stop" => "end_turn"
  | "length" => "max_tokens"
  | "tool_calls" => "tool_use"
  | "stop_sequence" => "stop_sequence"
  | _ => "end_turn"

def ChunkToolCall.names? (tc : ChunkToolCall) : Option (String × String) :=
  match tc.id, tc.function with
  | some id, some function => function.name.map (id, ·)
  | _, _ => none

def ChunkToolCall.fragment (tc : ChunkToolCall) : String :=
  (tc.function.bind ToolCallFunction.arguments).getD ""

/-! ## 2. The state machine -/

structure ToolBlock where
  openaiIndex : Nat
  anthropicIndex : Nat
  started : Bool
  deriving DecidableEq

structure StreamState where
  textBlockIndex : Option Nat
  toolBlocks : List ToolBlock
  nextBlockIndex : Nat
  finishReason : Option String
  outputTokens : Nat
  deriving DecidableEq

namespace StreamState

def new : StreamState :=
  { textBlockIndex := none, toolBlocks := [], nextBlockIndex := 0, finishReason := none
    outputTokens := 0 }

variable (st : StreamState)

def allocBlock : Nat × StreamState :=
  (st.nextBlockIndex, { st with nextBlockIndex := saturatingAdd st.nextBlockIndex 1 })

def block? (openaiIndex : Nat) : Option ToolBlock :=
  st.toolBlocks.find? (·.openaiIndex = openaiIndex)

def addTokens (text : String) : StreamState :=
  { st with outputTokens := saturatingAdd st.outputTokens (estimatedTokens text) }

def processText (text : String) : StreamState × List SseEvent :=
  if text.isEmpty then (st, [])
  else
    let st := st.addTokens text
    match st.textBlockIndex with
    | some idx => (st, [.contentBlockDelta idx (.textDelta text)])
    | none =>
      let (idx, st) := st.allocBlock
      ({ st with textBlockIndex := some idx },
        [.contentBlockStart idx .text, .contentBlockDelta idx (.textDelta text)])

/-- `process_chunk`, the first fragment of a tool: an open text block is closed and a block is
allocated. -/
def openToolBlock (openaiIndex : Nat) : StreamState × List SseEvent :=
  match st.block? openaiIndex with
  | some _ => (st, [])
  | none =>
    let stops := st.textBlockIndex.toList.map SseEvent.contentBlockStop
    let (idx, st) := { st with textBlockIndex := none }.allocBlock
    ({ st with toolBlocks := st.toolBlocks ++ [⟨openaiIndex, idx, false⟩] }, stops)

def markStarted (openaiIndex : Nat) : StreamState :=
  { st with
    toolBlocks := st.toolBlocks.map fun b =>
      if b.openaiIndex = openaiIndex then { b with started := true } else b }

def startToolBlock (tc : ChunkToolCall) (block : ToolBlock) : StreamState × List SseEvent :=
  match block.started, tc.names? with
  | false, some (id, name) =>
    (st.markStarted tc.index, [.contentBlockStart block.anthropicIndex (.toolUse id name)])
  | _, _ => (st, [])

def processArguments (tc : ChunkToolCall) (block : ToolBlock) : StreamState × List SseEvent :=
  if tc.fragment.isEmpty then (st, [])
  else
    (st.addTokens tc.fragment,
      [.contentBlockDelta block.anthropicIndex (.inputJsonDelta tc.fragment)])

def processToolCall (tc : ChunkToolCall) : StreamState × List SseEvent :=
  let (st, stops) := st.openToolBlock tc.index
  match st.block? tc.index with
  | none => (st, stops)
  | some block =>
    let (st, starts) := st.startToolBlock tc block
    let (st, deltas) := st.processArguments tc block
    (st, stops ++ starts ++ deltas)

def processToolCalls : StreamState → List ChunkToolCall → StreamState × List SseEvent
  | st, [] => (st, [])
  | st, tc :: tcs =>
    let (st, events) := st.processToolCall tc
    let (st, rest) := st.processToolCalls tcs
    (st, events ++ rest)

def openBlocks : List Nat :=
  st.textBlockIndex.toList ++ (st.toolBlocks.filter ToolBlock.started).map ToolBlock.anthropicIndex

def closeOpenBlocks : StreamState × List SseEvent :=
  ({ st with textBlockIndex := none },
    (st.openBlocks.insertionSort (· ≤ ·)).dedup.map SseEvent.contentBlockStop)

def processDelta (delta : ChunkDelta) : StreamState × List SseEvent :=
  let (st, texts) := st.processText (delta.content.getD "")
  let (st, tools) := st.processToolCalls (delta.toolCalls.getD [])
  (st, texts ++ tools)

def processChunk : StreamItem → StreamState × List SseEvent
  | .error _ =>
    let (st, stops) := st.closeOpenBlocks
    (st, stops ++ [.error "api_error" "internal backend error", .messageStop])
  | .ok chunk =>
    match chunk.choices with
    | [] => (st, [])
    | choice :: _ =>
      match choice.finishReason with
      | none => st.processDelta choice.delta
      | some reason =>
        -- the source captures the reason first; the delta does not read it
        let (st, events) := st.processDelta choice.delta
        let (st, stops) := { st with finishReason := some reason }.closeOpenBlocks
        let stopReason := (st.finishReason.map mapStopReason).getD "end_turn"
        (st, events ++ stops ++ [.messageDelta stopReason st.outputTokens, .messageStop])

def contentEvents : StreamState → List StreamItem → List SseEvent
  | _, [] => []
  | st, item :: items => (st.processChunk item).2 ++ (st.processChunk item).1.contentEvents items

end StreamState

def chunksToAnthropicContentSse (items : List StreamItem) : List SseEvent :=
  StreamState.new.contentEvents items

def chunksToAnthropicSse (model messageId : String) (items : List StreamItem) : List SseEvent :=
  .messageStart model messageId :: .ping :: chunksToAnthropicContentSse items

/-! ## 3. Keep-alive -/

inductive StreamDispatch
  | ready (items : List StreamItem)
  | failed (errorType message : String)

/-- `KeepAlivePhase`; `rest` are the events that the content stream still has. -/
inductive KeepAlivePhase
  | start (model messageId : String) (dispatch : StreamDispatch)
  | waiting (dispatch : StreamDispatch)
  | content (rest : List SseEvent) (stopEmitted : Bool)
  | error (errorType message : String)
  | stop
  | done

def SseEvent.isMessageStop : SseEvent → Bool
  | .messageStop => true
  | _ => false

/-- One turn of the loop of `keepalive_anthropic_sse`; `ticked` is that the ticker wins the race, which
it can only when the dispatch or the content has nothing ready. -/
def KeepAlivePhase.poll (ticked : Bool) : KeepAlivePhase → Option SseEvent × KeepAlivePhase
  | .start model messageId dispatch => (some (.messageStart model messageId), .waiting dispatch)
  | .waiting dispatch =>
    if ticked then (some .ping, .waiting dispatch)
    else
      match dispatch with
      | .ready items => (none, .content (chunksToAnthropicContentSse items) false)
      | .failed errorType message => (none, .error errorType message)
  | .content rest stopEmitted =>
    if ticked then (some .ping, .content rest stopEmitted)
    else
      match rest with
      | event :: rest => (some event, .content rest (stopEmitted || event.isMessageStop))
      | [] =>
        if stopEmitted then (none, .done)
        else (some (.messageDelta "end_turn" 0), .stop)
  | .error errorType message => (some (.error errorType message), .stop)
  | .stop => (some .messageStop, .done)
  | .done => (none, .done)

def KeepAlivePhase.polls : KeepAlivePhase → List Bool → List SseEvent × KeepAlivePhase
  | phase, [] => ([], phase)
  | phase, ticked :: ticks =>
    let (event, phase) := phase.poll ticked
    let (events, phase) := phase.polls ticks
    (event.toList ++ events, phase)

end Gradatum.Gateway
