import Gradatum.Gateway.Dispatch
import Gradatum.Gateway.Sse

/-!
# Answers that are not streamed

`chat_to_anthropic` of `anthropic/translate.rs`: a complete OpenAI response becomes an Anthropic message, which
the client sends back with its next request (`translate_assistant_message`).  The JSON values of tool inputs,
their parser and their printer (`serde_json`) are parameters.
-/

namespace Gradatum.Gateway

open List

inductive ContentPart
  | text (text : String)
  | imageUrl (url : String)
  deriving DecidableEq

inductive MessageContent
  | text (text : String)
  | parts (parts : List ContentPart)
  deriving DecidableEq

def ContentPart.text? : ContentPart → Option String
  | .text s => some s
  | .imageUrl _ => none

def MessageContent.textContent : MessageContent → String
  | .text s => s
  | .parts ps => String.join (ps.filterMap ContentPart.text?)

structure ToolCall where
  id : String
  name : String
  arguments : String
  deriving DecidableEq

structure ResponseMessage where
  content : MessageContent
  toolCalls : Option (List ToolCall)
  deriving DecidableEq

structure ResponseChoice where
  message : ResponseMessage
  finishReason : Option String
  deriving DecidableEq

structure ChatCompletionResponse where
  id : String
  choices : List ResponseChoice
  usage : Option Usage
  deriving DecidableEq

inductive ResponseBlock (Value : Type)
  | text (text : String)
  | toolUse (id name : String) (input : Value)
  deriving DecidableEq

structure AnthropicUsage where
  inputTokens : Nat
  outputTokens : Nat
  deriving DecidableEq

structure MessagesResponse (Value : Type) where
  id : String
  objectType : String
  role : String
  model : String
  content : List (ResponseBlock Value)
  stopReason : Option String
  stopSequence : Option String
  usage : AnthropicUsage
  deriving DecidableEq

/-- The variant of `TranslateError` that an answer can have. -/
inductive TranslateError
  | emptyChoices
  deriving DecidableEq

structure JsonReader (Value : Type) where
  fromStr : String → Option Value
  emptyObject : Value

variable {Value : Type} (json : JsonReader Value)

def parseToolArguments (arguments : String) : Value := (json.fromStr arguments).getD json.emptyObject

def buildUsage : Option Usage → AnthropicUsage
  | some u => ⟨u.promptTokens, u.completionTokens⟩
  | none => ⟨0, 0⟩

def ToolCall.toolUse (tc : ToolCall) : ResponseBlock Value :=
  .toolUse tc.id tc.name (parseToolArguments json tc.arguments)

def ResponseBlock.isToolUse : ResponseBlock Value → Bool
  | .toolUse _ _ _ => true
  | .text _ => false

def textBlocks (text : String) : List (ResponseBlock Value) := if text.isEmpty then [] else [.text text]

def chatToAnthropic (resp : ChatCompletionResponse) (model : String) :
    Except TranslateError (MessagesResponse Value) :=
  match resp.choices with
  | [] => .error .emptyChoices
  | choice :: _ =>
    let content := textBlocks choice.message.content.textContent ++
      (choice.message.toolCalls.getD []).map (ToolCall.toolUse json)
    let content := if content.isEmpty then [.text ""] else content
    -- a provider may say `stop` although it has called tools
    let stopReason :=
      if content.any ResponseBlock.isToolUse then some "tool_use"
      else choice.finishReason.map mapStopReason
    .ok {
      id := "msg_" ++ resp.id
      objectType := "message"
      role := "assistant"
      model := model
      content := content
      stopReason := stopReason
      stopSequence := none
      usage := buildUsage resp.usage }

theorem chatToAnthropic_ok (h : resp.choices = choice :: others) (model : String) :
    ∃ message, chatToAnthropic json resp model = .ok message ∧
      message.content =
        (let calls := (choice.message.toolCalls.getD []).map (ToolCall.toolUse json)
         let content := textBlocks choice.message.content.textContent ++ calls
         if content.isEmpty then [.text ""] else content) ∧
      message.stopReason =
        if choice.message.toolCalls.getD [] = [] then choice.finishReason.map mapStopReason
        else some "tool_use" := by
  unfold chatToAnthropic
  rw [h]
  refine ⟨_, rfl, rfl, ?_⟩
  rcases hcalls : choice.message.toolCalls.getD [] with _ | ⟨tc, tcs⟩
  · by_cases htext : choice.message.content.textContent.isEmpty <;>
      simp [textBlocks, htext, ResponseBlock.isToolUse]
  · simp [ToolCall.toolUse, ResponseBlock.isToolUse]

/-! ## Turns that are sent back -/

structure ImageSource where
  sourceType : String
  mediaType : Option String
  data : Option String
  url : Option String

inductive ContentBlock (Value : Type)
  | text (text : String)
  | toolUse (id name : String) (input : Value)
  | toolResult (toolUseId : String) (content : Value) (isError : Option Bool)
  | image (source : ImageSource)
  | thinking (thinking : String)
  | unknown

inductive AnthropicContent (Value : Type)
  | text (text : String)
  | blocks (blocks : List (ContentBlock Value))

inductive Role
  | user
  | assistant
  | tool

structure Message where
  role : Role
  content : MessageContent
  toolCalls : Option (List ToolCall)
  toolCallId : Option String

structure JsonCodec (Value : Type) extends JsonReader Value where
  toString : Value → Option String

variable (codec : JsonCodec Value)

def ContentBlock.text? : ContentBlock Value → Option String
  | .text s => some s
  | _ => none

def ContentBlock.toolCall? : ContentBlock Value → Option ToolCall
  | .toolUse id name input => some ⟨id, name, (codec.toString input).getD "\x7b\x7d"⟩
  | _ => none

/-- Images, results and thoughts do not belong in a turn of the assistant and are skipped. -/
def translateAssistantMessage : AnthropicContent Value → Message
  | .text s => ⟨.assistant, .text s, none, none⟩
  | .blocks blocks =>
    let calls := blocks.filterMap (ContentBlock.toolCall? codec)
    { role := .assistant
      content := .text (String.join (blocks.filterMap ContentBlock.text?))
      toolCalls := if calls.isEmpty then none else some calls
      toolCallId := none }

def ResponseBlock.sentBack : ResponseBlock Value → ContentBlock Value
  | .text s => .text s
  | .toolUse id name input => .toolUse id name input

/-- What is read from the print of the value is the value.  A decimal fraction need not be so: without its
feature `float_roundtrip` the library may read one as a neighbour of the nearest `f64`. -/
def JsonCodec.Survives (value : Value) : Prop :=
  ∃ printed, codec.toString value = some printed ∧ codec.fromStr printed = some value

/-- Equal but for the text of the arguments, from which the same value is read. -/
def SameCall (tc tc' : ToolCall) : Prop :=
  tc'.id = tc.id ∧ tc'.name = tc.name ∧ codec.fromStr tc'.arguments = codec.fromStr tc.arguments

def ToolCall.returned (tc : ToolCall) : ToolCall :=
  { tc with arguments := (codec.toString (parseToolArguments codec.toJsonReader tc.arguments)).getD "\x7b\x7d" }

theorem translateAssistantMessage_sentBack (text : String) (calls : List ToolCall) :
    let content := textBlocks text ++ calls.map (ToolCall.toolUse codec.toJsonReader)
    let message := translateAssistantMessage codec
      (.blocks ((if content.isEmpty then [.text ""] else content).map ResponseBlock.sentBack))
    message.role = .assistant ∧ message.content = .text text ∧
      message.toolCalls.getD [] = calls.map (ToolCall.returned codec) := by
  have htexts : ((calls.map (ToolCall.toolUse codec.toJsonReader)).map ResponseBlock.sentBack).filterMap
      ContentBlock.text? = [] := by
    simp [filterMap_eq_nil_iff, ToolCall.toolUse, ResponseBlock.sentBack, ContentBlock.text?]
  have hcalls : ((calls.map (ToolCall.toolUse codec.toJsonReader)).map ResponseBlock.sentBack).filterMap
      (ContentBlock.toolCall? codec) = calls.map (ToolCall.returned codec) := by
    simp only [map_map, filterMap_map]
    exact filterMap_eq_map_iff_forall_eq_some.2 fun _ _ => rfl
  -- the text is in front of the calls; if there are none, an empty one may stand in its place
  obtain ⟨front, hfront, htext, hnone⟩ : ∃ front : List (ResponseBlock Value),
      (let content := textBlocks text ++ calls.map (ToolCall.toolUse codec.toJsonReader)
        if content.isEmpty then [.text ""] else content) =
        front ++ calls.map (ToolCall.toolUse codec.toJsonReader) ∧
      String.join ((front.map ResponseBlock.sentBack).filterMap ContentBlock.text?) = text ∧
      (front.map ResponseBlock.sentBack).filterMap (ContentBlock.toolCall? codec) = [] := by
    by_cases hempty : text.isEmpty
    · cases String.isEmpty_iff.1 hempty
      cases calls with
      | nil => exact ⟨[.text ""], rfl, rfl, rfl⟩
      | cons tc calls => exact ⟨[], rfl, rfl, rfl⟩
    · refine ⟨[.text text], by simp [textBlocks, hempty], ?_, rfl⟩
      simp [ResponseBlock.sentBack, ContentBlock.text?]
  dsimp only at hfront ⊢
  rw [hfront, map_append, translateAssistantMessage, filterMap_append, filterMap_append, htexts,
    hcalls, hnone, append_nil, htext, nil_append]
  refine ⟨rfl, rfl, ?_⟩
  cases calls <;> rfl

/-- An answer that is sent back is the turn that it was, if the values of its arguments survive. -/
theorem translateAssistantMessage_chatToAnthropic (resp : ChatCompletionResponse)
    (hchoice : resp.choices = choice :: others) (hvalues : ∀ tc ∈ choice.message.toolCalls.getD [],
      ∃ value, codec.fromStr tc.arguments = some value ∧ codec.Survives value) (model : String) :
    ∃ answer, chatToAnthropic codec.toJsonReader resp model = .ok answer ∧
      let message := translateAssistantMessage codec (.blocks (answer.content.map ResponseBlock.sentBack))
      message.role = .assistant ∧ message.content = .text choice.message.content.textContent ∧
        List.Forall₂ (SameCall codec) (choice.message.toolCalls.getD []) (message.toolCalls.getD []) := by
  obtain ⟨answer, hok, hcont, -⟩ := chatToAnthropic_ok codec.toJsonReader hchoice model
  obtain ⟨hrole, htext, hcalls⟩ := translateAssistantMessage_sentBack codec
    choice.message.content.textContent (choice.message.toolCalls.getD [])
  refine ⟨answer, hok, ?_⟩
  rw [hcont]
  refine ⟨hrole, htext, ?_⟩
  rw [hcalls, forall₂_map_right_iff, forall₂_same]
  intro tc htc
  obtain ⟨value, hvalue, printed, hprinted, hread⟩ := hvalues tc htc
  refine ⟨rfl, rfl, ?_⟩
  simp [ToolCall.returned, parseToolArguments, hvalue, hprinted, hread]

/-- Numbers by the shortest decimal fraction of their `f64`, as the library reads these two texts. -/
def decimalCodec : JsonCodec String where
  fromStr
    | "15.6965294486679170" => some "15.696529448667917"
    | "15.696529448667917" => some "15.696529448667915"
    | text => some text
  emptyObject := "\x7b\x7d"
  toString := some

def scaleCalls (arguments : String) : List ToolCall := [⟨"b", "scale", "2"⟩, ⟨"c", "scale", arguments⟩]

def scaleResponse (arguments : String) : ChatCompletionResponse :=
  ⟨"1", [⟨⟨.text "a", some (scaleCalls arguments)⟩, none⟩], none⟩

theorem translateAssistantMessage_half :
    ∃ answer, chatToAnthropic decimalCodec.toJsonReader (scaleResponse "0.5") "m" = .ok answer ∧
      let message := translateAssistantMessage decimalCodec
        (.blocks (answer.content.map ResponseBlock.sentBack))
      message.role = .assistant ∧ message.content = .text "a" ∧
        List.Forall₂ (SameCall decimalCodec) (scaleCalls "0.5") (message.toolCalls.getD []) := by
  apply translateAssistantMessage_chatToAnthropic decimalCodec (scaleResponse "0.5") rfl
  intro tc htc
  rcases mem_pair.1 htc with rfl | rfl <;> exact ⟨_, rfl, _, rfl, rfl⟩

/-- The number comes back as its neighbour. -/
theorem not_sameCall_decimal :
    ∃ answer, chatToAnthropic decimalCodec.toJsonReader (scaleResponse "15.6965294486679170") "m" = .ok answer ∧
      ¬ List.Forall₂ (SameCall decimalCodec) (scaleCalls "15.6965294486679170")
        ((translateAssistantMessage decimalCodec
          (.blocks (answer.content.map ResponseBlock.sentBack))).toolCalls.getD []) := by
  refine ⟨_, rfl, fun h => ?_⟩
  obtain ⟨-, -, hread⟩ := (forall₂_cons.1 (forall₂_cons.1 h).2).1
  revert hread
  decide +kernel

end Gradatum.Gateway
