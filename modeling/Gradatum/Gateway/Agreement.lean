import Gradatum.Gateway.Reassembly

/-!
# Streamed and complete answers agree

When the message that a client reads from a stream is the one that `chat_to_anthropic` makes of the
complete response.
-/

namespace Gradatum.Gateway

open List

/-! ## 1. Block indexes are `u32` -/

/-- The indexes that the machine has given out are `u32`. -/
structure Bounded (st : StreamState) : Prop where
  next : st.nextBlockIndex < 2 ^ 32
  tools : ∀ b ∈ st.toolBlocks, b.anthropicIndex < 2 ^ 32

def StartsBelow (events : List SseEvent) : Prop :=
  ∀ index block, .contentBlockStart index block ∈ events → index < 2 ^ 32

theorem StartsBelow.append (h : StartsBelow events) (h' : StartsBelow events') :
    StartsBelow (events ++ events') := by
  intro index block hmem
  rcases mem_append.1 hmem with hmem | hmem
  · exact h index block hmem
  · exact h' index block hmem

theorem startsBelow_stops (stops : List Nat) : StartsBelow (stops.map SseEvent.contentBlockStop) := by
  simp [StartsBelow]

theorem saturatingAdd_lt (a b : Nat) : saturatingAdd a b < 2 ^ 32 := by
  unfold saturatingAdd
  omega

theorem bounded_new : Bounded .new := ⟨by decide, by simp [StreamState.new]⟩

section

variable (h : Bounded st)

include h

theorem Bounded.processText (text : String) :
    Bounded (st.processText text).1 ∧ StartsBelow (st.processText text).2 := by
  unfold StreamState.processText
  split
  · exact ⟨h, by simp [StartsBelow]⟩
  dsimp only
  split
  · exact ⟨⟨h.next, h.tools⟩, by simp [StartsBelow]⟩
  · refine ⟨⟨saturatingAdd_lt _ _, h.tools⟩, ?_⟩
    simpa [StartsBelow, StreamState.allocBlock, StreamState.addTokens] using h.next

theorem Bounded.openToolBlock (i : Nat) :
    Bounded (st.openToolBlock i).1 ∧ StartsBelow (st.openToolBlock i).2 := by
  unfold StreamState.openToolBlock
  split
  · exact ⟨h, by simp [StartsBelow]⟩
  · refine ⟨⟨saturatingAdd_lt _ _, ?_⟩, startsBelow_stops _⟩
    intro b hb
    rcases mem_append.1 hb with hb | hb
    · exact h.tools b hb
    · rw [mem_singleton.1 hb]
      exact h.next

theorem Bounded.startToolBlock (tc : ChunkToolCall)
    (hblock : block.anthropicIndex < 2 ^ 32) :
    Bounded (st.startToolBlock tc block).1 ∧ StartsBelow (st.startToolBlock tc block).2 := by
  unfold StreamState.startToolBlock
  split
  · refine ⟨⟨h.next, ?_⟩, by simpa [StartsBelow] using hblock⟩
    intro b hb
    obtain ⟨b', hb', rfl⟩ := mem_map.1 hb
    split <;> exact h.tools b' hb'
  · exact ⟨h, by simp [StartsBelow]⟩

theorem Bounded.processArguments (tc : ChunkToolCall) (block : ToolBlock) :
    Bounded (st.processArguments tc block).1 ∧ StartsBelow (st.processArguments tc block).2 := by
  unfold StreamState.processArguments
  split
  · exact ⟨h, by simp [StartsBelow]⟩
  · exact ⟨⟨h.next, h.tools⟩, by simp [StartsBelow]⟩

theorem Bounded.processToolCall (tc : ChunkToolCall) :
    Bounded (st.processToolCall tc).1 ∧ StartsBelow (st.processToolCall tc).2 := by
  obtain ⟨hopen, hstops⟩ := h.openToolBlock tc.index
  unfold StreamState.processToolCall
  dsimp only
  split
  · exact ⟨hopen, hstops⟩
  · rename_i block hfind
    obtain ⟨hstart, hstarts⟩ := hopen.startToolBlock tc (hopen.tools block (mem_of_find?_eq_some hfind))
    obtain ⟨hend, hdeltas⟩ := hstart.processArguments tc block
    exact ⟨hend, (hstops.append hstarts).append hdeltas⟩

theorem Bounded.processToolCalls (tcs : List ChunkToolCall) :
    Bounded (st.processToolCalls tcs).1 ∧ StartsBelow (st.processToolCalls tcs).2 := by
  induction tcs generalizing st with
  | nil => exact ⟨h, by simp [StartsBelow, StreamState.processToolCalls]⟩
  | cons tc tcs ih =>
    obtain ⟨hone, hevs⟩ := h.processToolCall tc
    obtain ⟨hrest, hmore⟩ := ih hone
    exact ⟨hrest, hevs.append hmore⟩

theorem Bounded.processDelta (delta : ChunkDelta) :
    Bounded (st.processDelta delta).1 ∧ StartsBelow (st.processDelta delta).2 := by
  obtain ⟨htext, htexts⟩ := h.processText (delta.content.getD "")
  obtain ⟨htools, hevs⟩ := htext.processToolCalls (delta.toolCalls.getD [])
  exact ⟨htools, htexts.append hevs⟩

theorem Bounded.processChunk (item : StreamItem) :
    Bounded (st.processChunk item).1 ∧ StartsBelow (st.processChunk item).2 := by
  rcases item with err | ⟨_ | ⟨choice, others⟩⟩
  · exact ⟨⟨h.next, h.tools⟩, (startsBelow_stops _).append (by simp [StartsBelow])⟩
  · exact ⟨h, by simp [StartsBelow, StreamState.processChunk]⟩
  · obtain ⟨hdelta, hevs⟩ := h.processDelta choice.delta
    rcases hreas : choice.finishReason with _ | reason
    · simpa only [StreamState.processChunk, hreas] using ⟨hdelta, hevs⟩
    · simp only [StreamState.processChunk, hreas]
      exact ⟨⟨hdelta.next, hdelta.tools⟩,
        (hevs.append (startsBelow_stops _)).append (by simp [StartsBelow])⟩

theorem Bounded.contentEvents (items : List StreamItem) :
    StartsBelow (st.contentEvents items) := by
  induction items generalizing st with
  | nil => simp [StartsBelow, StreamState.contentEvents]
  | cons item items ih =>
    obtain ⟨hafter, hevs⟩ := h.processChunk item
    exact hevs.append (ih hafter)

end

structure ClientState.Keyed (c : ClientState) : Prop where
  nodup : (c.blocks.map Prod.fst).Nodup
  lt : ∀ e ∈ c.blocks, e.1 < 2 ^ 32

theorem ClientState.Keyed.read {c : ClientState} (h : c.Keyed) (he : StartsBelow [e]) :
    (c.read e).Keyed := by
  cases e with
  | contentBlockStart index block =>
    constructor
    · simp only [ClientState.read, map_append, map_cons, map_nil]
      rw [nodup_append]
      refine ⟨h.nodup.sublist (filter_sublist.map _), by simp, ?_⟩
      intro i hi j hj
      obtain ⟨b, hb, rfl⟩ := mem_map.1 hi
      rw [mem_singleton.1 hj]
      simpa using (mem_filter.1 hb).2
    · intro b hb
      rcases mem_append.1 hb with hb | hb
      · exact h.lt b (mem_filter.1 hb).1
      · rw [mem_singleton.1 hb]
        exact he index block (mem_singleton_self _)
  | contentBlockDelta index delta =>
    have hkeys : (c.read (.contentBlockDelta index delta)).blocks.map Prod.fst = c.blocks.map Prod.fst := by
      simp only [ClientState.read, map_map]
      refine map_congr_left fun b _ => ?_
      dsimp only [Function.comp]
      split <;> rfl
    refine ⟨hkeys ▸ h.nodup, fun b hb => ?_⟩
    have hfst : b.1 ∈ c.blocks.map Prod.fst := hkeys ▸ mem_map_of_mem hb
    obtain ⟨b', hb', heq⟩ := mem_map.1 hfst
    exact heq ▸ h.lt b' hb'
  | messageDelta stopReason tokens => exact ⟨h.nodup, h.lt⟩
  | _ => exact h

theorem ClientState.Keyed.readAll {c : ClientState} (h : c.Keyed) (hevs : StartsBelow events) :
    (c.readAll events).Keyed := by
  induction events generalizing c with
  | nil => exact h
  | cons e events ih =>
    refine ih (h.read fun index block hmem => hevs index block ?_)
      fun index block hmem => hevs index block (mem_cons_of_mem _ hmem)
    rw [mem_singleton.1 hmem]
    exact mem_cons_self

theorem ClientState.Keyed.length_le {c : ClientState} (h : c.Keyed) : c.blocks.length ≤ 2 ^ 32 := by
  have hsub : c.blocks.map Prod.fst ⊆ List.range (2 ^ 32) := by
    intro i hi
    obtain ⟨b, hb, rfl⟩ := mem_map.1 hi
    exact mem_range.2 (h.lt b hb)
  have hle := (subperm_of_subset h.nodup hsub).length_le
  rwa [length_map, length_range] at hle

/-! ## 2. Agreement -/

section Agreement

variable {Value : Type} (json : JsonReader Value)

theorem length_content_le (items : List StreamItem) :
    ((ClientState.new.readAll (chunksToAnthropicContentSse items)).content json).length ≤ 2 ^ 32 := by
  have hnew : ClientState.new.Keyed := ⟨.nil, by simp [ClientState.new]⟩
  rw [ClientState.content, length_map, length_insertionSort]
  exact (hnew.readAll (bounded_new.contentEvents items)).length_le

/-- The message that a client puts together from the stream is the one that the complete response is
translated to. -/
def SameAnswer (resp : ChatCompletionResponse) (model messageId : String) (items : List StreamItem) : Prop :=
  ∃ message, chatToAnthropic json resp model = .ok message ∧
    (ClientState.new.readAll (chunksToAnthropicSse model messageId items)).content json = message.content ∧
    (ClientState.new.readAll (chunksToAnthropicSse model messageId items)).stopReason = message.stopReason

/-- The answers for which both paths agree.  `streamed` are the calls in the order of their first
pieces. -/
structure Agreeable (text : String) (calls streamed : List ToolCall) (reason : String) : Prop where
  /-- The reason names the tools that were called. -/
  reason : calls ≠ [] → mapStopReason reason = "tool_use"
  /-- There is something in the answer. -/
  nonempty : text ≠ "" ∨ calls ≠ []
  /-- The blocks have different indexes. -/
  room : (textEntries text).length + calls.length ≤ 2 ^ 32
  /-- The calls come in their order. -/
  order : streamed.map (ToolCall.toolUse json) = calls.map (ToolCall.toolUse json)

theorem length_textBlocks (text : String) :
    (textBlocks text : List (ResponseBlock Value)).length = (textEntries text).length := by
  by_cases htext : text.isEmpty <;> simp [textBlocks, textEntries, htext]

structure StreamOf (resp : ChatCompletionResponse) (text : String) (calls : List ToolCall)
    (reason : String) (deltas : List ChunkDelta) (items : List StreamItem) : Prop where
  choice : ∃ choice others, resp.choices = choice :: others ∧
    choice.message.content.textContent = text ∧ choice.message.toolCalls.getD [] = calls ∧
    choice.finishReason = some reason
  cut : IsCut text calls deltas
  items : Delivers items deltas reason

/-- Both paths give the same blocks and the same reason exactly for these answers. -/
theorem sameAnswer_iff_agreeable {resp : ChatCompletionResponse} {text : String} {calls : List ToolCall}
    {reason : String} {deltas : List ChunkDelta} {items : List StreamItem}
    (h : StreamOf resp text calls reason deltas items) (model messageId : String) :
    SameAnswer json resp model messageId items ↔
      Agreeable json text calls (callsAsStreamed calls deltas) reason := by
  obtain ⟨choice, others, hchoices, htext, hcalls, hreas⟩ := h.choice
  obtain ⟨message, hok, hcont, hstop⟩ := chatToAnthropic_ok json hchoices model
  dsimp only at hcont
  rw [htext, hcalls] at hcont
  rw [hcalls, hreas] at hstop
  have hsame : SameAnswer json resp model messageId items ↔
      (ClientState.new.readAll (chunksToAnthropicContentSse items)).content json = message.content ∧
      (ClientState.new.readAll (chunksToAnthropicContentSse items)).stopReason = message.stopReason := by
    constructor
    · rintro ⟨message', hok', hsame⟩
      rw [hok] at hok'
      cases hok'
      exact hsame
    · exact fun hsame => ⟨message, hok, hsame⟩
  rw [hsame, hcont, hstop]
  by_cases hroom : (textEntries text).length + calls.length ≤ 2 ^ 32
  · obtain ⟨hread, hreadStop⟩ := h.cut.content json h.items hroom
    rw [hread, hreadStop]
    by_cases hnonempty : text ≠ "" ∨ calls ≠ []
    · have hblks : (textBlocks text ++ calls.map (ToolCall.toolUse json)).isEmpty = false := by
        rw [isEmpty_eq_false_iff]
        rcases hnonempty with htext | hcalls
        · simp [textBlocks, htext]
        · simp [hcalls]
      simp only [hblks, Bool.false_eq_true, if_false, append_cancel_left_eq]
      constructor
      · rintro ⟨horder, hstops⟩
        refine ⟨fun hne => ?_, hnonempty, hroom, horder⟩
        rw [if_neg hne] at hstops
        exact Option.some.inj hstops
      · intro hagree
        refine ⟨hagree.order, ?_⟩
        by_cases hnil : calls = []
        · rw [if_pos hnil]
          rfl
        · rw [if_neg hnil, hagree.reason hnil]
    · -- an empty answer has no block in the stream, and an empty one otherwise
      refine iff_of_false (fun hboth => ?_) fun hagree => hnonempty hagree.nonempty
      push Not at hnonempty
      have hblks := hboth.1
      simp [hnonempty.1, hnonempty.2, textBlocks, callsAsStreamed] at hblks
  · -- there are more blocks than indexes
    refine iff_of_false (fun hboth => ?_) fun hagree => hroom hagree.room
    have hle := length_content_le json items
    have hblks : (textBlocks text ++ calls.map (ToolCall.toolUse json)).isEmpty = false := by
      rw [isEmpty_eq_false_iff, ← length_pos_iff, length_append, length_textBlocks,
        length_map]
      omega
    simp only [hboth.1, hblks, Bool.false_eq_true, if_false, length_append, length_textBlocks,
      length_map] at hle
    exact hroom hle

end Agreement

/-! An answer with a tool, and its pieces. -/

def toolAnswer (reason : String) : ChatCompletionResponse :=
  ⟨"1", [⟨⟨.text "Hi", some [⟨"call_1", "ls", "[1]"⟩]⟩, some reason⟩], none⟩

def toolDeltas : List ChunkDelta :=
  [⟨some "H", none⟩, ⟨some "i", some [⟨0, some "call_1", some ⟨some "ls", some "["⟩⟩]⟩,
    ⟨none, some [⟨0, none, some ⟨none, some "1]"⟩⟩]⟩, ⟨none, none⟩]

def toolItems (reason : String) : List StreamItem :=
  (toolDeltas.take 3).map (fun delta => .ok ⟨[⟨delta, none⟩]⟩) ++ [.ok ⟨[⟨⟨none, none⟩, some reason⟩]⟩]

theorem streamOf_toolItems (reason : String) :
    StreamOf (toolAnswer reason) "Hi" [⟨"call_1", "ls", "[1]"⟩] reason toolDeltas (toolItems reason) where
  choice := ⟨_, _, rfl, rfl, rfl, rfl⟩
  cut := {
    text := by decide
    textFirst := by decide
    index_lt := by decide
    named := by
      intro front f back heq hfresh tc htc
      change [_, _] = _ at heq
      rcases front with _ | ⟨g, _ | ⟨g', front⟩⟩
      · cases heq
        cases htc
        rfl
      · -- the second fragment has the index of the first
        cases heq
        exact absurd (hfresh _ mem_cons_self) (by decide)
      · simp at heq
    complete := by
      intro j tc htc
      rcases j with _ | j
      · cases htc
        exact ⟨by decide, by decide⟩
      · cases htc }
  items := .more rfl (.more rfl (.more rfl (.last rfl)))

/-- A JSON reader for which every text is its own value. -/
def textReader : JsonReader String := ⟨some, "\x7b\x7d"⟩

theorem sameAnswer_toolCalls :
    SameAnswer textReader (toolAnswer "tool_calls") "m" "msg" (toolItems "tool_calls") :=
  (sameAnswer_iff_agreeable textReader (streamOf_toolItems "tool_calls") "m" "msg").2
    ⟨by decide, by decide, by decide, by decide⟩

theorem not_sameAnswer_stop :
    StreamOf (toolAnswer "stop") "Hi" [⟨"call_1", "ls", "[1]"⟩] "stop" toolDeltas (toolItems "stop") ∧
      ¬ SameAnswer textReader (toolAnswer "stop") "m" "msg" (toolItems "stop") := by
  refine ⟨streamOf_toolItems "stop", ?_⟩
  rintro ⟨message, hok, -, hstop⟩
  obtain rfl := Except.ok.inj hok
  exact absurd hstop (by decide)

end Gradatum.Gateway
