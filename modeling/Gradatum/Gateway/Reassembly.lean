import Mathlib.Data.List.Dedup
import Gradatum.Gateway.Translate

/-!
# Streamed and complete answers

A client puts the message together again from the events of a stream.  If the chunks are the pieces of one
answer, the state of the machine and the blocks of the client are read off the pieces sent so far.
-/

namespace Gradatum.Gateway

open Bool List StreamState

/-! ## 1. The client -/

/-- A block as far as the client has it; the input of a tool is still the text of its JSON. -/
inductive PartialBlock
  | text (text : String)
  | toolUse (id name partialJson : String)
  deriving DecidableEq

def BlockStart.opened : BlockStart → PartialBlock
  | .text => .text ""
  | .toolUse id name => .toolUse id name ""

def PartialBlock.append : PartialBlock → BlockDelta → PartialBlock
  | .text s, .textDelta more => .text (s ++ more)
  | .toolUse id name s, .inputJsonDelta more => .toolUse id name (s ++ more)
  | block, _ => block

/-- The blocks that were started, with their index in the message. -/
structure ClientState where
  blocks : List (Nat × PartialBlock)
  stopReason : Option String
  deriving DecidableEq

namespace ClientState

def new : ClientState := ⟨[], none⟩

variable (c : ClientState)

def read : SseEvent → ClientState
  | .contentBlockStart index block =>
    { c with blocks := c.blocks.filter (·.1 ≠ index) ++ [(index, block.opened)] }
  | .contentBlockDelta index delta =>
    { c with blocks := c.blocks.map fun e => if e.1 = index then (e.1, e.2.append delta) else e }
  | .messageDelta stopReason _ => { c with stopReason := some stopReason }
  | _ => c

def readAll (events : List SseEvent) : ClientState := events.foldl read c

@[simp] theorem readAll_nil : c.readAll [] = c := rfl

@[simp] theorem readAll_cons (e : SseEvent) (events : List SseEvent) :
    c.readAll (e :: events) = (c.read e).readAll events := rfl

@[simp] theorem readAll_append (events events' : List SseEvent) :
    c.readAll (events ++ events') = (c.readAll events).readAll events' := foldl_append

theorem readAll_stops (stops : List Nat) : c.readAll (stops.map SseEvent.contentBlockStop) = c := by
  induction stops with
  | nil => rfl
  | cons i stops ih => exact ih

end ClientState

section Content

variable {Value : Type} (json : JsonReader Value)

def PartialBlock.finish : PartialBlock → ResponseBlock Value
  | .text s => .text s
  | .toolUse id name s => .toolUse id name (parseToolArguments json s)

def ClientState.content (c : ClientState) : List (ResponseBlock Value) :=
  (c.blocks.insertionSort (·.1 ≤ ·.1)).map fun e => e.2.finish json

end Content

/-! ## 2. Cutting an answer into chunks -/

def ChunkDelta.text (delta : ChunkDelta) : String := delta.content.getD ""

def ChunkDelta.fragments (delta : ChunkDelta) : List ChunkToolCall := delta.toolCalls.getD []

/-- The items bring these deltas; the last chunk, and no other one, has a `finish_reason`. -/
inductive Delivers : List StreamItem → List ChunkDelta → String → Prop
  | last {choice others reason} (h : choice.finishReason = some reason) :
      Delivers [.ok ⟨choice :: others⟩] [choice.delta] reason
  | skip {items deltas reason} (h : Delivers items deltas reason) :
      Delivers (.ok ⟨[]⟩ :: items) deltas reason
  | more {choice others items deltas reason} (hnone : choice.finishReason = none)
      (h : Delivers items deltas reason) :
      Delivers (.ok ⟨choice :: others⟩ :: items) (choice.delta :: deltas) reason

def fragmentsOf (deltas : List ChunkDelta) : List ChunkToolCall := deltas.flatMap ChunkDelta.fragments

def argumentsOf (fragments : List ChunkToolCall) (index : Nat) : String :=
  String.join ((fragments.filter (·.index = index)).map ChunkToolCall.fragment)

def appearance (fragments : List ChunkToolCall) : List Nat :=
  (fragments.map ChunkToolCall.index).reverse.dedup.reverse

/-- The deltas are an answer in pieces: the text comes first, then the tools, which may be interleaved;
the first piece of a tool carries its id and its name. -/
structure IsCut (text : String) (calls : List ToolCall) (deltas : List ChunkDelta) : Prop where
  text : String.join (deltas.map ChunkDelta.text) = text
  textFirst : deltas.Pairwise fun d d' => d.fragments ≠ [] → d'.text = ""
  index_lt : ∀ f ∈ fragmentsOf deltas, f.index < calls.length
  named : ∀ front f back, fragmentsOf deltas = front ++ f :: back → (∀ g ∈ front, g.index ≠ f.index) →
    ∀ tc, calls[f.index]? = some tc → f.names? = some (tc.id, tc.name)
  complete : ∀ j tc, calls[j]? = some tc → (∃ f ∈ fragmentsOf deltas, f.index = j) ∧
    argumentsOf (fragmentsOf deltas) j = tc.arguments

/-- The calls in the order in which their first pieces come. -/
def callsAsStreamed (calls : List ToolCall) (deltas : List ChunkDelta) : List ToolCall :=
  (appearance (fragmentsOf deltas)).filterMap (calls[·]?)

theorem mem_appearance : i ∈ appearance fragments ↔ ∃ f ∈ fragments, f.index = i := by
  simp [appearance]

theorem nodup_appearance (fragments : List ChunkToolCall) : (appearance fragments).Nodup :=
  nodup_reverse.2 (nodup_dedup _)

theorem appearance_snoc_of_mem (h : tc.index ∈ appearance fragments) :
    appearance (fragments ++ [tc]) = appearance fragments := by
  have hmem : tc.index ∈ (fragments.map ChunkToolCall.index).reverse := by simpa [appearance] using h
  simp [appearance, dedup_cons_of_mem hmem]

theorem appearance_snoc_of_notMem (h : tc.index ∉ appearance fragments) :
    appearance (fragments ++ [tc]) = appearance fragments ++ [tc.index] := by
  have hmem : tc.index ∉ (fragments.map ChunkToolCall.index).reverse := by simpa [appearance] using h
  simp [appearance, dedup_cons_of_notMem hmem]

theorem argumentsOf_snoc (fragments : List ChunkToolCall) (tc : ChunkToolCall) (i : Nat) :
    argumentsOf (fragments ++ [tc]) i =
      argumentsOf fragments i ++ if tc.index = i then tc.fragment else "" := by
  by_cases h : tc.index = i <;> simp [argumentsOf, h, String.join_append]

/-! ## 3. The machine and the client in lockstep -/

def textEntries (text : String) : List (Nat × PartialBlock) :=
  if text.isEmpty then [] else [(0, .text text)]

def slots (text : String) (sent : List ChunkToolCall) : List (Nat × Nat) :=
  (appearance sent).zipIdx (textEntries text).length

/-- The machine has been given the text and the fragments `sent`, and the client has read its events. -/
structure Sent (names : Nat → String × String) (text : String) (sent : List ChunkToolCall)
    (st : StreamState) (c : ClientState) : Prop where
  textBlock : st.textBlockIndex = if text.isEmpty || !sent.isEmpty then none else some 0
  toolBlocks : st.toolBlocks = (slots text sent).map fun s => ⟨s.1, s.2, true⟩
  next : st.nextBlockIndex = min ((textEntries text).length + (appearance sent).length) (2 ^ 32 - 1)
  blocks : c.blocks = textEntries text ++
    (slots text sent).map fun s =>
      (s.2, .toolUse (names s.1).1 (names s.1).2 (argumentsOf sent s.1))

variable {names : Nat → String × String} {text : String} {st : StreamState} {c : ClientState}

theorem sent_new (names : Nat → String × String) : Sent names "" [] .new .new where
  textBlock := rfl
  toolBlocks := rfl
  next := rfl
  blocks := rfl

theorem length_textEntries_le (text more : String) :
    (textEntries text).length ≤ (textEntries (text ++ more)).length := by
  by_cases h : text.isEmpty
  · simp [textEntries, h]
  have hmore : ¬ (text ++ more).isEmpty := by
    simp only [String.isEmpty_iff, String.append_eq_empty_iff] at h ⊢
    exact fun h' => h h'.1
  simp [textEntries, h, hmore]

@[simp] theorem slots_nil (text : String) : slots text [] = [] := rfl

theorem Sent.processText (h : Sent names text [] st c) (more : String) :
    Sent names (text ++ more) [] (st.processText more).1 (c.readAll (st.processText more).2) := by
  by_cases hmore : more.isEmpty
  · have hempty : more = "" := String.isEmpty_iff.1 hmore
    subst hempty
    simpa [StreamState.processText] using h
  have hboth : (text ++ more).isEmpty = false := by
    rw [eq_false_iff]
    intro hall
    exact hmore (String.isEmpty_iff.2 (String.append_eq_empty_iff.1 (String.isEmpty_iff.1 hall)).2)
  have htools : st.toolBlocks = [] := h.toolBlocks
  have hsent : textEntries (text ++ more) = [(0, .text (text ++ more))] := by
    simp only [textEntries, hboth, false_eq_true, if_false]
  by_cases htext : text.isEmpty
  · -- the block of the text is started
    have hempty : text = "" := String.isEmpty_iff.1 htext
    have hnone : st.textBlockIndex = none := by simpa [htext] using h.textBlock
    have hnext : st.nextBlockIndex = 0 := by simpa [textEntries, htext, appearance] using h.next
    have hblks : c.blocks = [] := by simpa [textEntries, htext] using h.blocks
    simp only [StreamState.processText, hmore, addTokens, hnone, allocBlock, hnext]
    constructor
    · simp [hboth]
    · simpa using htools
    · simp [hsent, appearance, saturatingAdd]
    · rw [hsent]
      simp [ClientState.read, hblks, BlockStart.opened, PartialBlock.append, hempty]
  · have hsome : st.textBlockIndex = some 0 := by simpa [htext] using h.textBlock
    have hblks : c.blocks = [(0, .text text)] := by simpa [textEntries, htext] using h.blocks
    simp only [StreamState.processText, hmore, addTokens, hsome]
    constructor
    · simp [hboth]
    · simpa using htools
    · have hentry : textEntries text = [(0, .text text)] := by simp [textEntries, htext]
      rw [hsent, h.next, hentry]
      rfl
    · rw [hsent]
      simp [ClientState.read, hblks, PartialBlock.append]

/-! A tool has one block, and a block has one tool. -/

theorem slots_block_eq_iff (hs : s ∈ slots text sent) (ht : t ∈ slots text sent) :
    s.2 = t.2 ↔ s.1 = t.1 := by
  have hfst : ((slots text sent).map Prod.fst).Nodup := by
    simpa [slots] using nodup_appearance sent
  have hsnd : ((slots text sent).map Prod.snd).Nodup := by
    simp [slots, nodup_range']
  constructor
  · exact fun h => congrArg Prod.fst (inj_on_of_nodup_map hsnd hs ht h)
  · exact fun h => congrArg Prod.snd (inj_on_of_nodup_map hfst hs ht h)

theorem exists_slot (text : String) (h : i ∈ appearance sent) : ∃ k, (i, k) ∈ slots text sent := by
  have hfst : i ∈ (slots text sent).map Prod.fst := by simpa [slots] using h
  obtain ⟨⟨_, k⟩, hmem, rfl⟩ := mem_map.1 hfst
  exact ⟨k, hmem⟩

theorem slot_mem_appearance (hs : s ∈ slots text sent) : s.1 ∈ appearance sent := by
  have hfst : s.1 ∈ (slots text sent).map Prod.fst := mem_map_of_mem hs
  simpa [slots] using hfst

theorem textEntries_ne_slot (he : e ∈ textEntries text) (hs : s ∈ slots text sent) : e.1 ≠ s.2 := by
  have hle := le_snd_of_mem_zipIdx hs
  by_cases htext : text.isEmpty
  · simp [textEntries, htext] at he
  simp only [textEntries, htext, false_eq_true, if_false, mem_singleton] at he
  simp only [textEntries, htext, false_eq_true, if_false, length_singleton] at hle
  rw [he]
  dsimp only
  omega

section

variable (h : Sent names text sent st c)

include h

theorem Sent.block?_eq_some (hmem : (i, k) ∈ slots text sent) :
    st.block? i = some ⟨i, k, true⟩ := by
  have hfind : (slots text sent).find? (fun s => s.1 = i) = some (i, k) := by
    have hsome : ((slots text sent).find? (fun s => s.1 = i)).isSome :=
      find?_isSome.2 ⟨(i, k), hmem, by simp⟩
    obtain ⟨s, hs⟩ := Option.isSome_iff_exists.1 hsome
    have hfst : s.1 = i := by simpa using find?_some hs
    have hsnd : s.2 = k := (slots_block_eq_iff (mem_of_find?_eq_some hs) hmem).2 hfst
    rw [hs, ← hfst, ← hsnd]
  rw [block?, h.toolBlocks, find?_map]
  exact congrArg _ hfind

theorem Sent.block?_eq_none (hmem : i ∉ appearance sent) :
    st.block? i = none := by
  rw [block?, h.toolBlocks, find?_eq_none]
  intro b hb
  obtain ⟨s, hs, rfl⟩ := mem_map.1 hb
  simp only [decide_eq_true_eq]
  rintro rfl
  exact hmem (slot_mem_appearance hs)

theorem Sent.processToolCall_of_mem (hmem : tc.index ∈ appearance sent) :
    Sent names text (sent ++ [tc]) (st.processToolCall tc).1 (c.readAll (st.processToolCall tc).2) := by
  obtain ⟨k, hslot⟩ := exists_slot text hmem
  have hblock := h.block?_eq_some hslot
  have hsent : sent ≠ [] := by
    rintro rfl
    simp [appearance] at hmem
  have hslots : slots text (sent ++ [tc]) = slots text sent := by
    rw [slots, appearance_snoc_of_mem hmem, slots]
  have htext : st.textBlockIndex = if text.isEmpty || !(sent ++ [tc]).isEmpty then none else some 0 := by
    rw [h.textBlock]
    simp [hsent]
  have hnext := h.next
  rw [← appearance_snoc_of_mem hmem] at hnext
  simp only [processToolCall, openToolBlock, hblock, startToolBlock,
    processArguments, nil_append]
  by_cases hfrag : tc.fragment.isEmpty
  · have hempty : tc.fragment = "" := String.isEmpty_iff.1 hfrag
    simp only [hfrag, if_true]
    refine ⟨htext, hslots ▸ h.toolBlocks, hnext, ?_⟩
    rw [ClientState.readAll_nil, h.blocks, hslots]
    simp [argumentsOf_snoc, hempty]
  · simp only [hfrag, false_eq_true, if_false]
    refine ⟨htext, hslots ▸ h.toolBlocks, hnext, ?_⟩
    have hents : (textEntries text).map (fun e => if e.1 = k then
        (e.1, e.2.append (.inputJsonDelta tc.fragment)) else e) = textEntries text := by
      refine (map_congr_left fun e he => ?_).trans (map_id _)
      exact if_neg (textEntries_ne_slot he hslot)
    rw [hslots]
    simp only [ClientState.readAll_cons, ClientState.readAll_nil, ClientState.read, h.blocks,
      map_append, hents, map_map]
    congr 1
    refine map_congr_left fun s hs => ?_
    have hiff : s.2 = k ↔ s.1 = tc.index := slots_block_eq_iff hs hslot
    by_cases hk : s.2 = k
    · simp [hk, hiff.1 hk, argumentsOf_snoc, PartialBlock.append]
    · have hne : tc.index ≠ s.1 := fun heq => hk (hiff.2 heq.symm)
      simp [hk, hne, argumentsOf_snoc]

end

theorem argumentsOf_eq_empty (h : i ∉ appearance sent) : argumentsOf sent i = "" := by
  have hnone : sent.filter (·.index = i) = [] := by
    rw [filter_eq_nil_iff]
    intro f hf hi
    exact h (mem_appearance.2 ⟨f, hf, of_decide_eq_true hi⟩)
  rw [argumentsOf, hnone]
  rfl

theorem Sent.lt_of_mem_blocks (h : Sent names text sent st c) (he : e ∈ c.blocks) :
    e.1 < (textEntries text).length + (appearance sent).length := by
  rw [h.blocks] at he
  rcases mem_append.1 he with he | he
  · by_cases htext : text.isEmpty
    · simp [textEntries, htext] at he
    simp only [textEntries, htext, false_eq_true, if_false, mem_singleton] at he ⊢
    simp only [he, length_singleton]
    omega
  · obtain ⟨s, hs, rfl⟩ := mem_map.1 he
    exact snd_lt_add_of_mem_zipIdx hs

theorem ClientState.blocks_readAll_start (hlt : ∀ e ∈ c.blocks, e.1 < k) (id name s : String) :
    (c.readAll (.contentBlockStart k (.toolUse id name) ::
        if s.isEmpty then [] else [.contentBlockDelta k (.inputJsonDelta s)])).blocks =
      c.blocks ++ [(k, .toolUse id name s)] := by
  have hkeep : c.blocks.filter (·.1 ≠ k) = c.blocks := by
    rw [filter_eq_self]
    intro e he
    simpa using (hlt e he).ne
  by_cases hs : s.isEmpty
  · have hempty : s = "" := String.isEmpty_iff.1 hs
    subst hempty
    rw [if_pos hs, readAll_cons, readAll_nil, read, hkeep]
    rfl
  · have hmap : c.blocks.map (fun e => if e.1 = k then (e.1, e.2.append (.inputJsonDelta s)) else e) =
        c.blocks := by
      refine (map_congr_left fun e he => ?_).trans (map_id _)
      exact if_neg (hlt e he).ne
    simp only [hs, false_eq_true, if_false, readAll_cons, readAll_nil, read, hkeep, map_append,
      hmap]
    simp [BlockStart.opened, PartialBlock.append]

theorem StreamState.processToolCall_new {id name : String}
    (hnone : st.block? tc.index = none) (hnames : tc.names? = some (id, name)) :
    (st.processToolCall tc).1.textBlockIndex = none ∧
      (st.processToolCall tc).1.toolBlocks = st.toolBlocks ++ [⟨tc.index, st.nextBlockIndex, true⟩] ∧
      (st.processToolCall tc).1.nextBlockIndex = saturatingAdd st.nextBlockIndex 1 ∧
      (st.processToolCall tc).2 = st.textBlockIndex.toList.map SseEvent.contentBlockStop ++
        .contentBlockStart st.nextBlockIndex (.toolUse id name) ::
          if tc.fragment.isEmpty then []
          else [.contentBlockDelta st.nextBlockIndex (.inputJsonDelta tc.fragment)] := by
  let block : ToolBlock := ⟨tc.index, st.nextBlockIndex, false⟩
  have hother : ∀ b ∈ st.toolBlocks, b.openaiIndex ≠ tc.index := by
    rw [block?, find?_eq_none] at hnone
    exact fun b hb => by simpa using hnone b hb
  have hopen : st.openToolBlock tc.index =
      ({ st with
          textBlockIndex := none
          nextBlockIndex := saturatingAdd st.nextBlockIndex 1
          toolBlocks := st.toolBlocks ++ [block] },
        st.textBlockIndex.toList.map SseEvent.contentBlockStop) := by
    simp only [openToolBlock, hnone, allocBlock, block]
  have hfind : (st.openToolBlock tc.index).1.block? tc.index = some block := by
    rw [block?, find?_eq_none] at hnone
    simp only [hopen, block?, find?_append, find?_eq_none.2 hnone]
    simp [block]
  have hmark : (st.openToolBlock tc.index).1.markStarted tc.index =
      { (st.openToolBlock tc.index).1 with
        toolBlocks := st.toolBlocks ++ [⟨tc.index, st.nextBlockIndex, true⟩] } := by
    simp only [hopen, markStarted, map_append]
    congr 2
    · refine (map_congr_left fun b hb => ?_).trans (map_id _)
      exact if_neg (hother b hb)
    · simp [block]
  have hstart : (st.openToolBlock tc.index).1.startToolBlock tc block =
      ((st.openToolBlock tc.index).1.markStarted tc.index,
        [.contentBlockStart st.nextBlockIndex (.toolUse id name)]) := by
    simp [startToolBlock, block, hnames]
  simp only [processToolCall, hfind, hstart, hmark, processArguments]
  by_cases hfrag : tc.fragment.isEmpty <;> simp [hfrag, hopen, addTokens, block]

theorem Sent.processToolCall_of_notMem (h : Sent names text sent st c)
    (hmem : tc.index ∉ appearance sent) (hnames : tc.names? = some (names tc.index))
    (hroom : (textEntries text).length + (appearance sent).length < 2 ^ 32) :
    Sent names text (sent ++ [tc]) (st.processToolCall tc).1 (c.readAll (st.processToolCall tc).2) := by
  let k := (textEntries text).length + (appearance sent).length
  have hnext : st.nextBlockIndex = k := by rw [h.next]; omega
  have hslots : slots text (sent ++ [tc]) = slots text sent ++ [(tc.index, k)] := by
    rw [slots, appearance_snoc_of_notMem hmem, zipIdx_append]
    rfl
  obtain ⟨htext, htools, hafter, hevs⟩ :=
    processToolCall_new (h.block?_eq_none hmem) hnames
  refine ⟨?_, ?_, ?_, ?_⟩
  · simp [htext]
  · rw [htools, hslots, h.toolBlocks, hnext, map_append]
    rfl
  · rw [hafter, hnext, appearance_snoc_of_notMem hmem, saturatingAdd, length_append]
    rfl
  · rw [hevs, ClientState.readAll_append, ClientState.readAll_stops, hnext,
      ClientState.blocks_readAll_start (fun e he => h.lt_of_mem_blocks he), h.blocks, hslots,
      map_append, ← append_assoc]
    refine congrArg₂ _ (congrArg _ (map_congr_left fun s hs => ?_)) ?_
    · have hne : tc.index ≠ s.1 := by
        rintro heq
        exact hmem (heq ▸ slot_mem_appearance hs)
      simp [argumentsOf_snoc, hne]
    · simp [argumentsOf_snoc, argumentsOf_eq_empty hmem, k]

/-! ## 4. Whole answers -/

structure Pieces (names : Nat → String × String) (count : Nat) (fragments : List ChunkToolCall) : Prop where
  index_lt : ∀ f ∈ fragments, f.index < count
  named : ∀ front f back, fragments = front ++ f :: back → (∀ g ∈ front, g.index ≠ f.index) →
    f.names? = some (names f.index)

variable {count : Nat}

theorem length_appearance_le (h : ∀ f ∈ fragments, f.index < count) :
    (appearance fragments).length ≤ count := by
  have hsub : appearance fragments ⊆ List.range count := by
    intro i hi
    obtain ⟨f, hf, rfl⟩ := mem_appearance.1 hi
    exact mem_range.2 (h f hf)
  simpa using (subperm_of_subset (nodup_appearance fragments) hsub).length_le

theorem Sent.processToolCalls (h : Sent names text sent st c)
    (hpcs : Pieces names count (sent ++ fragments))
    (hroom : (textEntries text).length + count ≤ 2 ^ 32) :
    Sent names text (sent ++ fragments) (st.processToolCalls fragments).1
      (c.readAll (st.processToolCalls fragments).2) := by
  induction fragments generalizing sent st c with
  | nil => simpa [StreamState.processToolCalls] using h
  | cons tc fragments ih =>
    have hsplit : sent ++ tc :: fragments = (sent ++ [tc]) ++ fragments := by simp
    have hstep : Sent names text (sent ++ [tc]) (st.processToolCall tc).1
        (c.readAll (st.processToolCall tc).2) := by
      by_cases hmem : tc.index ∈ appearance sent
      · exact h.processToolCall_of_mem hmem
      -- no fragment before this one has its index
      have hfresh : ∀ g ∈ sent, g.index ≠ tc.index := fun g hg heq => hmem (mem_appearance.2 ⟨g, hg, heq⟩)
      have hcount : (appearance (sent ++ [tc])).length ≤ count := by
        refine length_appearance_le fun f hf => hpcs.index_lt f ?_
        rw [hsplit]
        exact mem_append_left _ hf
      rw [appearance_snoc_of_notMem hmem, length_append, length_singleton] at hcount
      exact h.processToolCall_of_notMem hmem (hpcs.named sent tc fragments rfl hfresh) (by omega)
    rw [hsplit] at hpcs ⊢
    simpa [StreamState.processToolCalls] using ih hstep hpcs

theorem Sent.processDelta (h : Sent names text sent st c) (hfirst : sent = [] ∨ delta.text = "")
    (hpcs : Pieces names count (sent ++ delta.fragments))
    (hroom : (textEntries (text ++ delta.text)).length + count ≤ 2 ^ 32) :
    Sent names (text ++ delta.text) (sent ++ delta.fragments) (st.processDelta delta).1
      (c.readAll (st.processDelta delta).2) := by
  have htext : Sent names (text ++ delta.text) sent (st.processText delta.text).1
      (c.readAll (st.processText delta.text).2) := by
    rcases hfirst with rfl | hempty
    · exact h.processText delta.text
    · rw [hempty]
      simpa [StreamState.processText] using h
  simpa [StreamState.processDelta, ChunkDelta.text, ChunkDelta.fragments] using
    htext.processToolCalls hpcs hroom

theorem Pieces.of_append (h : Pieces names count (fragments ++ rest)) : Pieces names count fragments where
  index_lt f hf := h.index_lt f (mem_append_left _ hf)
  named front f back heq := h.named front f (back ++ rest) (by simp [heq])

theorem Sent.contentEvents (hitems : Delivers items deltas reason) (h : Sent names text sent st c)
    (hfirst : sent = [] ∨ ∀ d ∈ deltas, d.text = "")
    (hpairs : deltas.Pairwise fun d d' => d.fragments ≠ [] → d'.text = "")
    (hpcs : Pieces names count (sent ++ fragmentsOf deltas))
    (hroom : (textEntries (text ++ String.join (deltas.map ChunkDelta.text))).length + count ≤ 2 ^ 32) :
    (c.readAll (st.contentEvents items)).stopReason = some (mapStopReason reason) ∧
      ∃ st', Sent names (text ++ String.join (deltas.map ChunkDelta.text)) (sent ++ fragmentsOf deltas) st'
        (c.readAll (st.contentEvents items)) := by
  induction hitems generalizing text sent st c with
  | @last choice others reason hreas =>
    have htext : String.join ([choice.delta].map ChunkDelta.text) = choice.delta.text := by
      simp [String.join_cons]
    have hfrags : fragmentsOf [choice.delta] = choice.delta.fragments := by simp [fragmentsOf]
    rw [htext] at hroom ⊢
    rw [hfrags] at hpcs ⊢
    have hdelta := h.processDelta (hfirst.imp_right fun hall => hall _ (mem_singleton_self _))
      hpcs hroom
    have hread : c.readAll (st.contentEvents [.ok ⟨choice :: others⟩]) =
        { c.readAll (st.processDelta choice.delta).2 with
          stopReason := some (mapStopReason reason) } := by
      simp [StreamState.contentEvents, processChunk, hreas, closeOpenBlocks,
        ClientState.readAll_stops, ClientState.read]
    rw [hread]
    exact ⟨rfl, _, hdelta.textBlock, hdelta.toolBlocks, hdelta.next, hdelta.blocks⟩
  | skip hitems ih => exact ih h hfirst hpairs hpcs hroom
  | @more choice others items deltas reason hnone hitems ih =>
    have htext : String.join ((choice.delta :: deltas).map ChunkDelta.text) =
        choice.delta.text ++ String.join (deltas.map ChunkDelta.text) := by simp [String.join_cons]
    have hfrags : fragmentsOf (choice.delta :: deltas) =
        choice.delta.fragments ++ fragmentsOf deltas := by simp [fragmentsOf]
    rw [htext, ← String.append_assoc] at hroom ⊢
    rw [hfrags, ← append_assoc] at hpcs ⊢
    have hroom' := length_textEntries_le (text ++ choice.delta.text)
      (String.join (deltas.map ChunkDelta.text))
    have hdelta := h.processDelta (hfirst.imp_right fun hall => hall _ mem_cons_self)
      hpcs.of_append (by omega)
    have hread : c.readAll (st.contentEvents (.ok ⟨choice :: others⟩ :: items)) =
        (c.readAll (st.processDelta choice.delta).2).readAll
          ((st.processDelta choice.delta).1.contentEvents items) := by
      simp [StreamState.contentEvents, processChunk, hnone]
    obtain ⟨hhead, hpairs⟩ := pairwise_cons.1 hpairs
    rw [hread]
    refine ih hdelta ?_ hpairs hpcs hroom
    -- once a tool has appeared there is no more text
    by_cases hnil : choice.delta.fragments = []
    · rcases hfirst with rfl | hall
      · exact .inl (by simp [hnil])
      · exact .inr fun d hd => hall d (mem_cons_of_mem _ hd)
    · exact .inr fun d hd => hhead d hd hnil

def namesOf (calls : List ToolCall) (index : Nat) : String × String :=
  (calls[index]?.map fun tc => (tc.id, tc.name)).getD ("", "")

theorem IsCut.pieces (h : IsCut text calls deltas) :
    Pieces (namesOf calls) calls.length (fragmentsOf deltas) where
  index_lt := h.index_lt
  named front f back heq hfresh := by
    have hlt : f.index < calls.length := h.index_lt f (by simp [heq])
    have hget : calls[f.index]? = some calls[f.index] := getElem?_eq_getElem hlt
    rw [namesOf, hget]
    exact h.named front f back heq hfresh _ hget

theorem Sent.pairwise_blocks (h : Sent names text sent st c) : c.blocks.Pairwise (·.1 ≤ ·.1) := by
  rw [h.blocks, pairwise_append]
  refine ⟨?_, ?_, ?_⟩
  · by_cases htext : text.isEmpty <;> simp [textEntries, htext]
  · rw [pairwise_map]
    have hrange : ((slots text sent).map Prod.snd).Pairwise (· ≤ ·) := by
      simpa [slots] using pairwise_le_range' 1
    exact pairwise_map.1 hrange
  · intro e he e' he'
    by_cases htext : text.isEmpty
    · simp [textEntries, htext] at he
    · simp only [textEntries, htext, false_eq_true, if_false, mem_singleton] at he
      simp [he]

section Content

variable {Value : Type} (json : JsonReader Value)

theorem IsCut.map_slots (h : IsCut text calls deltas) (text' : String) :
    (slots text' (fragmentsOf deltas)).map (fun s =>
        (PartialBlock.toolUse (namesOf calls s.1).1 (namesOf calls s.1).2
          (argumentsOf (fragmentsOf deltas) s.1)).finish json) =
      (callsAsStreamed calls deltas).map (ToolCall.toolUse json) := by
  let block (i : Nat) : ResponseBlock Value :=
    .toolUse (namesOf calls i).1 (namesOf calls i).2
      (parseToolArguments json (argumentsOf (fragmentsOf deltas) i))
  have hcalls : ∀ i ∈ appearance (fragmentsOf deltas),
      (calls[i]?).map (ToolCall.toolUse json) = some (block i) := by
    intro i hi
    obtain ⟨f, hf, rfl⟩ := mem_appearance.1 hi
    have hget := getElem?_eq_getElem (h.index_lt f hf)
    simp only [hget, Option.map_some, ToolCall.toolUse, block, namesOf, Option.getD_some,
      (h.complete f.index _ hget).2]
  calc (slots text' (fragmentsOf deltas)).map _
      = ((slots text' (fragmentsOf deltas)).map Prod.fst).map block := by rw [map_map]; rfl
    _ = (appearance (fragmentsOf deltas)).map block := by simp [slots]
    _ = (appearance (fragmentsOf deltas)).filterMap fun i => (calls[i]?).map (ToolCall.toolUse json) := by
        rw [filterMap_congr hcalls, filterMap_eq_map']
    _ = (callsAsStreamed calls deltas).map (ToolCall.toolUse json) := by
        rw [callsAsStreamed, map_filterMap]

theorem IsCut.content (h : IsCut text calls deltas) (hitems : Delivers items deltas reason)
    (hroom : (textEntries text).length + calls.length ≤ 2 ^ 32) :
    (ClientState.new.readAll (chunksToAnthropicContentSse items)).content json =
        textBlocks text ++ (callsAsStreamed calls deltas).map (ToolCall.toolUse json) ∧
      (ClientState.new.readAll (chunksToAnthropicContentSse items)).stopReason =
        some (mapStopReason reason) := by
  obtain ⟨hreas, st', hsent⟩ := (sent_new (namesOf calls)).contentEvents hitems (.inl rfl) h.textFirst
    h.pieces (by simpa [h.text] using hroom)
  refine ⟨?_, hreas⟩
  have hsort := hsent.pairwise_blocks
  rw [ClientState.content, chunksToAnthropicContentSse, hsort.insertionSort_eq, hsent.blocks,
    map_append, map_map]
  refine congrArg₂ _ ?_ ?_
  · by_cases htext : text.isEmpty
    · simp [textEntries, textBlocks, h.text, htext]
    · simp [textEntries, textBlocks, h.text, htext, PartialBlock.finish]
  · exact h.map_slots json _

end Content

end Gradatum.Gateway
