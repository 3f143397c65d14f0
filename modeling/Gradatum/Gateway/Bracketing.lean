import Mathlib.Data.List.Dedup
import Gradatum.Reasoning.Brackets
import Gradatum.Reasoning.Checks
import Gradatum.Gateway.Sse

/-!
# Bracketing of the event stream

`orderly` reads off the items whether the blocks are well bracketed.  The proof runs the scanner of
`Reasoning.Brackets` over the events and `Progress` over the items in lockstep.
-/

open Reasoning

namespace Gradatum.Gateway

open List Option Brackets StreamState

/-! ## 1. Well-bracketed streams -/

def SseEvent.mark? : SseEvent → Option (Mark Nat)
  | .contentBlockStart index _ => some (.opens index)
  | .contentBlockDelta index _ => some (.uses index)
  | .contentBlockStop index => some (.closes index)
  | _ => none

def SseEvent.isMessageStart : SseEvent → Bool
  | .messageStart _ _ => true
  | _ => false

/-- One `message_start`, first; one `message_stop`, last; in between well-bracketed blocks. -/
def BracketedStream (events : List SseEvent) : Prop :=
  ∃ model messageId content,
    events = .messageStart model messageId :: content ++ [.messageStop] ∧
      (∀ e ∈ content, e.isMessageStart = false ∧ e.isMessageStop = false) ∧
      WellBracketed (content.filterMap SseEvent.mark?)

/-! ## 2. The condition on the items -/

structure Progress where
  st : StreamState
  last : Option Nat

namespace Progress

variable (p : Progress)

def above (index : Nat) : Bool := p.last.all (· < index)

def text? (text : String) : Option Progress :=
  let after := (p.st.processText text).1
  if text.isEmpty || p.st.textBlockIndex.isSome then some ⟨after, p.last⟩
  else if p.above p.st.nextBlockIndex then some ⟨after, some p.st.nextBlockIndex⟩
  else none

/-- A fragment of a tool call: if it names the tool for the first time, the block of the tool can still
be started, and if it carries arguments, the block is open. -/
def toolCall? (tc : ChunkToolCall) : Option Progress :=
  let after := (p.st.processToolCall tc).1
  match (p.st.openToolBlock tc.index).1.block? tc.index with
  | none => none
  | some block =>
    let starts := !block.started && tc.names?.isSome
    if (!starts || p.above block.anthropicIndex) &&
        (tc.fragment.isEmpty || after.openBlocks.contains block.anthropicIndex) then
      some ⟨after, if starts then some block.anthropicIndex else p.last⟩
    else none

def toolCalls? (tcs : List ChunkToolCall) : Option Progress :=
  tcs.foldlM toolCall? p

def delta? (delta : ChunkDelta) : Option Progress :=
  (p.text? (delta.content.getD "")).bind (·.toolCalls? (delta.toolCalls.getD []))

end Progress

/-- An item that brings nothing to a message that has ended: no error, no `finish_reason`, no text, no
arguments, and no name for a tool that was not started. -/
def quiet (st : StreamState) : StreamItem → Bool
  | .error _ => false
  | .ok chunk =>
    match chunk.choices with
    | [] => true
    | choice :: _ =>
      choice.finishReason.isNone && (choice.delta.content.getD "").isEmpty &&
        (choice.delta.toolCalls.getD []).all fun tc =>
          tc.fragment.isEmpty && (tc.names?.isNone || (st.block? tc.index).any ToolBlock.started)

/-- Up to the item that ends the message every piece fits; after it all items are quiet; and if no item
ends it, no block is left open. -/
def orderlyFrom : Progress → List StreamItem → Bool
  | p, [] => p.st.openBlocks.isEmpty
  | p, .error _ :: items => items.all (quiet p.st)
  | p, .ok chunk :: items =>
    match chunk.choices with
    | [] => orderlyFrom p items
    | choice :: _ =>
      match p.delta? choice.delta with
      | none => false
      | some p' =>
        if choice.finishReason.isSome then items.all (quiet p'.st) else orderlyFrom p' items

def StreamDispatch.orderly : StreamDispatch → Bool
  | .failed _ _ => true
  | .ready items => orderlyFrom ⟨.new, none⟩ items

/-! ## 3. The machine and the scanner in lockstep -/

/-- The scanner has read the events of the machine. -/
structure Tracks (p : Progress) (b : Brackets Nat) : Prop where
  last : b.last = p.last
  active : b.active.Perm p.st.openBlocks
  nodup : b.active.Nodup
  bounded : ∀ i ∈ b.active, ∃ l, b.last = some l ∧ i ≤ l
  keys : (p.st.toolBlocks.map ToolBlock.openaiIndex).Nodup

def marks (events : List SseEvent) : List (Mark Nat) := events.filterMap SseEvent.mark?

@[simp] theorem marks_nil : marks [] = [] := rfl

theorem marks_append (events events' : List SseEvent) :
    marks (events ++ events') = marks events ++ marks events' := filterMap_append

variable {p : Progress} {b : Brackets Nat}

theorem tracks_new : Tracks ⟨.new, none⟩ ⟨[], none⟩ where
  last := rfl
  active := .nil
  nodup := nodup_nil
  bounded _ h := by simp at h
  keys := nodup_nil

section

variable (h : Tracks p b)

include h

theorem Tracks.above (i : Nat) : b.above i = p.above i := by
  simp only [Brackets.above, Progress.above, h.last]

theorem Tracks.congr (hopen : st.openBlocks = p.st.openBlocks)
    (hkeys : st.toolBlocks.map ToolBlock.openaiIndex = p.st.toolBlocks.map ToolBlock.openaiIndex) :
    Tracks ⟨st, p.last⟩ b :=
  ⟨h.last, hopen ▸ h.active, h.nodup, h.bounded, hkeys ▸ h.keys⟩

theorem Tracks.opens (habove : p.above i = true)
    (hopen : st.openBlocks.Perm (i :: p.st.openBlocks))
    (hkeys : st.toolBlocks.map ToolBlock.openaiIndex = p.st.toolBlocks.map ToolBlock.openaiIndex) :
    b.step (.opens i) = some ⟨i :: b.active, some i⟩ ∧ Tracks ⟨st, some i⟩ ⟨i :: b.active, some i⟩ := by
  have hless : ∀ j ∈ b.active, j < i := by
    intro j hj
    obtain ⟨l, hlast, hle⟩ := h.bounded j hj
    have hl : l < i := by simpa [Progress.above, ← h.last, hlast] using habove
    omega
  constructor
  · rw [Brackets.step, h.above i, if_pos habove]
  refine ⟨rfl, ?_, ?_, ?_, hkeys ▸ h.keys⟩
  · exact (h.active.cons i).trans hopen.symm
  · exact nodup_cons.2 ⟨fun hmem => Nat.lt_irrefl i (hless i hmem), h.nodup⟩
  · intro j hj
    refine ⟨i, rfl, ?_⟩
    rcases mem_cons.1 hj with rfl | hj
    · exact Nat.le_refl _
    · exact Nat.le_of_lt (hless j hj)

theorem Tracks.uses : b.step (.uses i) = if i ∈ p.st.openBlocks then some b else none := by
  have hiff : i ∈ b.active ↔ i ∈ p.st.openBlocks := h.active.mem_iff
  simp only [Brackets.step, hiff]

theorem Tracks.closes (hopen : p.st.openBlocks = i :: st.openBlocks)
    (hkeys : (st.toolBlocks.map ToolBlock.openaiIndex).Nodup) :
    b.step (.closes i) = some ⟨b.active.erase i, b.last⟩ ∧
      Tracks ⟨st, p.last⟩ ⟨b.active.erase i, b.last⟩ := by
  have hmem : i ∈ b.active := h.active.mem_iff.2 (by simp [hopen])
  constructor
  · rw [Brackets.step, if_pos hmem]
  refine ⟨h.last, ?_, h.nodup.erase i, ?_, hkeys⟩
  · have hperm := h.active.erase i
    rwa [hopen, erase_cons_head] at hperm
  · intro j hj
    exact h.bounded j (mem_of_mem_erase hj)

theorem Tracks.text (text : String) :
    Option.Rel Tracks (p.text? text) (b.scan (marks (p.st.processText text).2)) := by
  rcases p with ⟨st, last⟩
  unfold Progress.text? processText
  cases htext : text.isEmpty with
  | true => exact .some h
  | false =>
    simp only [Bool.false_eq_true, if_false, Bool.false_or]
    rcases hidx : st.textBlockIndex with _ | idx
    · -- a new text block
      simp only [addTokens, hidx, allocBlock, isSome_none,
        Bool.false_eq_true, if_false]
      have hmarks : ∀ i d, marks [.contentBlockStart i .text, .contentBlockDelta i d] =
          [.opens i, .uses i] := fun _ _ => rfl
      rw [hmarks, scan_cons]
      cases habove : Progress.above ⟨st, last⟩ st.nextBlockIndex with
      | false =>
        rw [Brackets.step, h.above, habove]
        exact .none
      | true =>
        rw [if_pos rfl]
        let after : StreamState :=
          { st with
            textBlockIndex := some st.nextBlockIndex
            nextBlockIndex := saturatingAdd st.nextBlockIndex 1
            outputTokens := saturatingAdd st.outputTokens (estimatedTokens text) }
        have hopen : after.openBlocks.Perm (st.nextBlockIndex :: st.openBlocks) := by
          simp [after, openBlocks, hidx]
        have hmem : st.nextBlockIndex ∈ after.openBlocks := hopen.mem_iff.2 (by simp)
        obtain ⟨hstep, htrks⟩ := h.opens habove hopen rfl
        rw [hstep, bind_some, scan_cons, htrks.uses, if_pos hmem]
        exact .some htrks
    · -- the open one
      simp only [addTokens, hidx, isSome_some, if_true]
      have hmarks : ∀ i d, marks [.contentBlockDelta i d] = [.uses i] := fun _ _ => rfl
      have hmem : idx ∈ st.openBlocks := by simp [openBlocks, hidx]
      rw [hmarks, scan_cons, h.uses, if_pos hmem]
      exact .some (h.congr (by simp [openBlocks, hidx]) rfl)

end

/-! ### Tool calls -/

namespace StreamState

variable {st : StreamState}

theorem map_markStarted (st : StreamState) (i : Nat) :
    (st.markStarted i).toolBlocks.map ToolBlock.openaiIndex =
      st.toolBlocks.map ToolBlock.openaiIndex := by
  simp only [markStarted, List.map_map]
  congr 1
  funext b
  simp only [Function.comp]
  split <;> rfl

def startedIndexes (blocks : List ToolBlock) : List Nat :=
  (blocks.filter ToolBlock.started).map ToolBlock.anthropicIndex

theorem startedIndexes_mark (hkeys : (blocks.map ToolBlock.openaiIndex).Nodup)
    (hblock : blocks.find? (·.openaiIndex = i) = some block) (hnot : block.started = false) :
    (startedIndexes (blocks.map fun b =>
      if b.openaiIndex = i then { b with started := true } else b)).Perm
      (block.anthropicIndex :: startedIndexes blocks) := by
  induction blocks with
  | nil => cases hblock
  | cons b blocks ih =>
    obtain ⟨hfresh, hkeys⟩ := nodup_cons.1 hkeys
    by_cases hb : b.openaiIndex = i
    · -- the entry of the tool, the only one with its key
      rw [find?_cons_of_pos (by simpa using hb)] at hblock
      cases hblock
      have hrest : blocks.map (fun b' =>
          if b'.openaiIndex = i then { b' with started := true } else b') = blocks := by
        refine (map_congr_left fun b' hb' => ?_).trans (List.map_id blocks)
        rw [if_neg]
        · rfl
        · intro heq
          exact hfresh (List.mem_map.2 ⟨b', hb', heq.trans hb.symm⟩)
      rw [map_cons, hrest, if_pos hb]
      simp [startedIndexes, hnot]
    · rw [find?_cons_of_neg (by simpa using hb)] at hblock
      have hperm := ih hkeys hblock
      rw [map_cons, if_neg hb]
      cases hstart : b.started with
      | false => simpa [startedIndexes, hstart] using hperm
      | true =>
        have hswap := (hperm.cons b.anthropicIndex).trans (.swap ..)
        simpa [startedIndexes, hstart] using hswap

theorem openBlocks_markStarted (hkeys : (st.toolBlocks.map ToolBlock.openaiIndex).Nodup)
    (hblock : st.block? i = some block) (hnot : block.started = false) :
    (st.markStarted i).openBlocks.Perm (block.anthropicIndex :: st.openBlocks) := by
  have hperm := (startedIndexes_mark hkeys hblock hnot).append_left st.textBlockIndex.toList
  exact hperm.trans perm_middle

theorem block?_openToolBlock (st : StreamState) (i : Nat) :
    ∃ block, (st.openToolBlock i).1.block? i = some block := by
  unfold openToolBlock
  rcases hblock : st.block? i with _ | block
  · refine ⟨⟨i, st.nextBlockIndex, false⟩, ?_⟩
    simp only [block?] at hblock
    simp [block?, allocBlock, find?_append, hblock]
  · exact ⟨block, hblock⟩

end StreamState

theorem Tracks.openToolBlock (h : Tracks p b) (i : Nat) :
    ∃ b', b.scan (marks (p.st.openToolBlock i).2) = some b' ∧
      Tracks ⟨(p.st.openToolBlock i).1, p.last⟩ b' := by
  rcases p with ⟨st, last⟩
  unfold StreamState.openToolBlock
  rcases hblock : st.block? i with _ | block
  · have hfresh : i ∉ st.toolBlocks.map ToolBlock.openaiIndex := by
      intro hmem
      obtain ⟨b', hb', hkey⟩ := List.mem_map.1 hmem
      have hnone := find?_eq_none.1 hblock b' hb'
      simp [hkey] at hnone
    have hkeys : ((st.toolBlocks ++ [ToolBlock.mk i st.nextBlockIndex false]).map
        ToolBlock.openaiIndex).Nodup := by
      rw [map_append]
      exact nodup_append_comm.1 (nodup_cons.2 ⟨hfresh, h.keys⟩)
    rcases hidx : st.textBlockIndex with _ | idx
    · refine ⟨b, rfl, h.last, ?_, h.nodup, h.bounded, hkeys⟩
      have hsame := h.active
      simpa [openBlocks, allocBlock, hidx] using hsame
    -- the open text block is stopped first
    have hopen : st.openBlocks = idx ::
        openBlocks
          { st with
            textBlockIndex := none
            nextBlockIndex := saturatingAdd st.nextBlockIndex 1
            toolBlocks := st.toolBlocks ++ [⟨i, st.nextBlockIndex, false⟩] } := by
      simp [openBlocks, hidx]
    obtain ⟨hstep, htrks⟩ := h.closes hopen hkeys
    refine ⟨_, ?_, htrks⟩
    have hmarks : marks [.contentBlockStop idx] = [.closes idx] := rfl
    show b.scan (marks [.contentBlockStop idx]) = _
    rw [hmarks, scan_cons, hstep]
    rfl
  · exact ⟨b, rfl, h⟩

theorem StreamState.openBlocks_processArguments (st : StreamState) (tc : ChunkToolCall)
    (block : ToolBlock) : (st.processArguments tc block).1.openBlocks = st.openBlocks := by
  unfold processArguments
  split <;> rfl

theorem Tracks.arguments {last : Option Nat} (h : Tracks ⟨st, last⟩ b)
    (tc : ChunkToolCall) (block : ToolBlock) :
    Option.Rel Tracks
      (if tc.fragment.isEmpty || st.openBlocks.contains block.anthropicIndex then
        some ⟨(st.processArguments tc block).1, last⟩ else none)
      (b.scan (marks (st.processArguments tc block).2)) := by
  unfold processArguments
  cases hfrag : tc.fragment.isEmpty with
  | true => exact .some h
  | false =>
    have hmarks : ∀ i d, marks [.contentBlockDelta i d] = [.uses i] := fun _ _ => rfl
    simp only [Bool.false_eq_true, if_false, Bool.false_or, hmarks, scan_cons, h.uses,
      contains_iff_mem]
    split
    · exact .some (h.congr rfl rfl)
    · exact .none

theorem StreamState.processToolCall_eq {st : StreamState}
    (hblock : (st.openToolBlock tc.index).1.block? tc.index = some block) : st.processToolCall tc =
      let opened := (st.openToolBlock tc.index).1
      let named := (opened.startToolBlock tc block).1
      ((named.processArguments tc block).1,
        (st.openToolBlock tc.index).2 ++ (opened.startToolBlock tc block).2 ++
          (named.processArguments tc block).2) := by
  simp only [processToolCall, hblock]

theorem Tracks.toolCall (h : Tracks p b) (tc : ChunkToolCall) :
    Option.Rel Tracks (p.toolCall? tc) (b.scan (marks (p.st.processToolCall tc).2)) := by
  obtain ⟨block, hblock⟩ := p.st.block?_openToolBlock tc.index
  obtain ⟨b₁, hscan, h₁⟩ := h.openToolBlock tc.index
  unfold Progress.toolCall?
  simp only [processToolCall_eq hblock, hblock, marks_append, scan_append, hscan,
    bind_some, openBlocks_processArguments]
  generalize (p.st.openToolBlock tc.index).1 = st at h₁ hblock
  unfold startToolBlock
  cases hstart : block.started with
  | true =>
    simpa using h₁.arguments tc block
  | false =>
    rcases hnames : tc.names? with _ | ⟨id, name⟩
    · simpa using h₁.arguments tc block
    have hmarks : ∀ i s, marks [.contentBlockStart i s] = [.opens i] := fun _ _ => rfl
    simp only [hmarks, scan_cons]
    cases habove : p.above block.anthropicIndex with
    | false =>
      have hstep : b₁.step (.opens block.anthropicIndex) = none := by
        have habove₁ := h₁.above block.anthropicIndex
        rw [show Progress.above ⟨st, p.last⟩ block.anthropicIndex = false from habove] at habove₁
        rw [Brackets.step, habove₁]
        rfl
      rw [hstep]
      exact .none
    | true =>
      have hopen := openBlocks_markStarted h₁.keys hblock hstart
      obtain ⟨hstep, h₂⟩ := h₁.opens habove hopen (st.map_markStarted tc.index)
      rw [hstep]
      simpa using h₂.arguments tc block

theorem Progress.toolCall?_st (h : p.toolCall? tc = some p') : p'.st = (p.st.processToolCall tc).1 := by
  unfold Progress.toolCall? at h
  rcases hblock : (p.st.openToolBlock tc.index).1.block? tc.index with _ | block
  · rw [hblock] at h
    cases h
  rw [hblock] at h
  obtain ⟨-, ⟨⟩⟩ := ite_none_right_eq_some.1 h
  rfl

theorem Progress.text?_st (h : p.text? text = some p') : p'.st = (p.st.processText text).1 := by
  unfold Progress.text? at h
  dsimp only at h
  split at h
  · cases h
    rfl
  · obtain ⟨-, ⟨⟩⟩ := ite_none_right_eq_some.1 h
    rfl

theorem Progress.toolCalls?_st (h : p.toolCalls? tcs = some p') :
    p'.st = (p.st.processToolCalls tcs).1 := by
  induction tcs generalizing p with
  | nil =>
    cases h
    rfl
  | cons tc tcs ih =>
    simp only [Progress.toolCalls?, foldlM_cons, bind_eq_bind] at h
    obtain ⟨p₁, hhead, hrest⟩ := bind_eq_some_iff.1 h
    rw [ih hrest, Progress.toolCall?_st hhead]
    rfl

theorem Tracks.toolCalls (h : Tracks p b) (tcs : List ChunkToolCall) :
    Option.Rel Tracks (p.toolCalls? tcs) (b.scan (marks (p.st.processToolCalls tcs).2)) := by
  induction tcs generalizing p b with
  | nil => exact .some h
  | cons tc tcs ih =>
    have hhead := h.toolCall tc
    simp only [Progress.toolCalls?, foldlM_cons, processToolCalls, marks_append,
      scan_append, bind_eq_bind]
    rcases hp : p.toolCall? tc with _ | p'
    · rw [hp] at hhead
      rw [rel_none_left hhead]
      exact .none
    rw [hp] at hhead
    obtain ⟨b', hscan, h'⟩ := rel_some_left hhead
    rw [hscan, ← Progress.toolCall?_st hp]
    exact ih h'

theorem Tracks.delta (h : Tracks p b) (delta : ChunkDelta) :
    Option.Rel Tracks (p.delta? delta) (b.scan (marks (p.st.processDelta delta).2)) := by
  have htext := h.text (delta.content.getD "")
  simp only [Progress.delta?, processDelta, marks_append, scan_append]
  rcases hp : p.text? (delta.content.getD "") with _ | p'
  · rw [hp] at htext
    rw [rel_none_left htext]
    exact .none
  rw [hp] at htext
  obtain ⟨b', hscan, h'⟩ := rel_some_left htext
  rw [hscan, ← Progress.text?_st hp]
  exact h'.toolCalls _

theorem Progress.delta?_st (h : p.delta? delta = some p') : p'.st = (p.st.processDelta delta).1 := by
  obtain ⟨p₁, htext, htools⟩ := bind_eq_some_iff.1 h
  rw [Progress.toolCalls?_st htools, Progress.text?_st htext]
  rfl

theorem Tracks.closeOpenBlocks (h : Tracks p b) :
    b.scan (marks p.st.closeOpenBlocks.2) = some ⟨[], b.last⟩ := by
  have hnodup : p.st.openBlocks.Nodup := h.active.nodup_iff.1 h.nodup
  have hsort : (p.st.openBlocks.insertionSort (· ≤ ·)).Perm p.st.openBlocks :=
    perm_insertionSort _ _
  have hdedup : (p.st.openBlocks.insertionSort (· ≤ ·)).dedup =
      p.st.openBlocks.insertionSort (· ≤ ·) :=
    List.Nodup.dedup (hsort.nodup_iff.2 hnodup)
  have hmarks : marks p.st.closeOpenBlocks.2 =
      (p.st.openBlocks.insertionSort (· ≤ ·)).map .closes := by
    simp only [StreamState.closeOpenBlocks, hdedup, marks, filterMap_map]
    show List.filterMap (some ∘ Mark.closes) _ = _
    rw [filterMap_eq_map]
  rw [hmarks]
  exact scan_closes (hsort.trans h.active.symm)

/-! ## 4. The end of a message -/

def SseEvent.isBlock : SseEvent → Bool
  | .contentBlockStart _ _ | .contentBlockDelta _ _ | .contentBlockStop _ => true
  | _ => false

def Inner (events : List SseEvent) : Prop :=
  ∀ e ∈ events, e.isMessageStart = false ∧ e.isMessageStop = false

theorem Inner.append (h : Inner events) (h' : Inner events') : Inner (events ++ events') := by
  intro e he
  rcases mem_append.1 he with he | he
  · exact h e he
  · exact h' e he

theorem inner_of_isBlock (h : ∀ e ∈ events, e.isBlock = true) : Inner events := by
  intro e he
  have hblock := h e he
  cases e with
  | contentBlockStart | contentBlockDelta | contentBlockStop => exact ⟨rfl, rfl⟩
  | _ => cases hblock

/-- What is left of a well-bracketed stream when the scanner has come to `b`. -/
def EndsBracketed (b : Brackets Nat) (events : List SseEvent) : Prop :=
  ∃ content, events = content ++ [.messageStop] ∧ Inner content ∧
    ∃ last, b.scan (marks content) = some ⟨[], last⟩

theorem bracketedStream_iff (model messageId : String) (events : List SseEvent) :
    BracketedStream (.messageStart model messageId :: events) ↔ EndsBracketed ⟨[], none⟩ events := by
  constructor
  · rintro ⟨_, _, content, heq, hinner, hbrackets⟩
    exact ⟨content, (List.cons.inj heq).2, hinner, (wellBracketed_iff_scan _).1 hbrackets⟩
  · rintro ⟨content, rfl, hinner, hscan⟩
    exact ⟨model, messageId, content, rfl, hinner, (wellBracketed_iff_scan _).2 hscan⟩

theorem endsBracketed_append (hinner : Inner events) : EndsBracketed b (events ++ rest) ↔
      ∃ b', b.scan (marks events) = some b' ∧ EndsBracketed b' rest := by
  constructor
  · rintro ⟨content, heq, hcont, last, hscan⟩
    rcases eq_nil_or_concat' rest with rfl | ⟨front, e, rfl⟩
    · have hmem : SseEvent.messageStop ∈ events := by
        rw [append_nil] at heq
        simp [heq]
      cases (hinner _ hmem).2
    · rw [← append_assoc] at heq
      obtain ⟨rfl, hlast⟩ := append_inj' heq rfl
      cases hlast
      rw [marks_append, scan_append] at hscan
      obtain ⟨b', hevs, hfront⟩ := bind_eq_some_iff.1 hscan
      refine ⟨b', hevs, front, rfl, ?_, last, hfront⟩
      exact fun e he => hcont e (mem_append_right _ he)
  · rintro ⟨b', hevs, content, rfl, hcont, last, hscan⟩
    refine ⟨events ++ content, by simp, hinner.append hcont, last, ?_⟩
    rw [marks_append, scan_append, hevs]
    exact hscan

theorem endsBracketed_messageStop (hinner : Inner events) :
    EndsBracketed b (events ++ .messageStop :: rest) ↔
      rest = [] ∧ ∃ last, b.scan (marks events) = some ⟨[], last⟩ := by
  constructor
  · rintro ⟨content, heq, hcont, last, hscan⟩
    rcases eq_nil_or_concat' rest with rfl | ⟨front, e, rfl⟩
    · obtain ⟨rfl, -⟩ := append_inj' heq rfl
      exact ⟨rfl, last, hscan⟩
    have heq' : (events ++ .messageStop :: front) ++ [e] = content ++ [.messageStop] := by
      simpa using heq
    obtain ⟨rfl, -⟩ := append_inj' heq' rfl
    cases (hcont .messageStop (by simp)).2
  · rintro ⟨rfl, last, hscan⟩
    exact ⟨events, rfl, hinner, last, hscan⟩

namespace StreamState

variable (st : StreamState)

theorem isBlock_processText (text : String) : ∀ e ∈ (st.processText text).2, e.isBlock = true := by
  unfold processText
  split
  · simp
  dsimp only
  split
  · simp [SseEvent.isBlock]
  · simp [SseEvent.isBlock, allocBlock]

theorem isBlock_openToolBlock (i : Nat) : ∀ e ∈ (st.openToolBlock i).2, e.isBlock = true := by
  unfold openToolBlock
  split
  · simp
  · simp [SseEvent.isBlock]

theorem isBlock_startToolBlock (tc : ChunkToolCall) (block : ToolBlock) :
    ∀ e ∈ (st.startToolBlock tc block).2, e.isBlock = true := by
  unfold startToolBlock
  split
  · simp [SseEvent.isBlock]
  · simp

theorem isBlock_processArguments (tc : ChunkToolCall) (block : ToolBlock) :
    ∀ e ∈ (st.processArguments tc block).2, e.isBlock = true := by
  unfold processArguments
  split
  · simp
  · simp [SseEvent.isBlock]

theorem isBlock_processToolCall (tc : ChunkToolCall) :
    ∀ e ∈ (st.processToolCall tc).2, e.isBlock = true := by
  obtain ⟨block, hblock⟩ := st.block?_openToolBlock tc.index
  rw [processToolCall_eq hblock]
  intro e he
  simp only [mem_append] at he
  rcases he with (he | he) | he
  · exact st.isBlock_openToolBlock _ e he
  · exact isBlock_startToolBlock _ _ _ e he
  · exact isBlock_processArguments _ _ _ e he

theorem isBlock_processToolCalls (tcs : List ChunkToolCall) :
    ∀ e ∈ (st.processToolCalls tcs).2, e.isBlock = true := by
  induction tcs generalizing st with
  | nil => simp [processToolCalls]
  | cons tc tcs ih =>
    intro e he
    rcases mem_append.1 he with he | he
    · exact st.isBlock_processToolCall tc e he
    · exact ih _ e he

theorem isBlock_processDelta (delta : ChunkDelta) :
    ∀ e ∈ (st.processDelta delta).2, e.isBlock = true := by
  intro e he
  rcases mem_append.1 he with he | he
  · exact st.isBlock_processText _ e he
  · exact isBlock_processToolCalls _ _ e he

theorem isBlock_closeOpenBlocks : ∀ e ∈ st.closeOpenBlocks.2, e.isBlock = true := by
  simp [closeOpenBlocks, SseEvent.isBlock]

end StreamState

/-! ## 5. After the end -/

structure Ended (st st' : StreamState) : Prop where
  text : st'.textBlockIndex = none
  started : ∀ i, (st'.block? i).any ToolBlock.started = (st.block? i).any ToolBlock.started

def quietCall (st : StreamState) (tc : ChunkToolCall) : Bool :=
  tc.fragment.isEmpty && (tc.names?.isNone || (st.block? tc.index).any ToolBlock.started)

section

variable (h : Ended st st')

include h

theorem Ended.openToolBlock (i : Nat) :
    (st'.openToolBlock i).2 = [] ∧ Ended st (st'.openToolBlock i).1 := by
  unfold StreamState.openToolBlock
  rcases hblock : st'.block? i with _ | block
  · refine ⟨by simp [h.text], rfl, fun j => ?_⟩
    rw [← h.started j]
    simp only [block?] at hblock ⊢
    simp only [allocBlock, find?_append]
    rcases hj : st'.toolBlocks.find? (·.openaiIndex = j) with _ | other
    · rw [hj]
      by_cases hij : i = j
      · simp [hij]
      · simp [hij]
    · rw [hj]
      rfl
  · exact ⟨rfl, h⟩

theorem Ended.toolCall (tc : ChunkToolCall) :
    ((st'.processToolCall tc).2 = [] ↔ quietCall st tc = true) ∧
      (quietCall st tc = true → Ended st (st'.processToolCall tc).1) := by
  obtain ⟨block, hblock⟩ := st'.block?_openToolBlock tc.index
  obtain ⟨hstops, hopen⟩ := h.openToolBlock tc.index
  have hstart : (st.block? tc.index).any ToolBlock.started = block.started := by
    rw [← hopen.started, hblock]
    rfl
  rw [processToolCall_eq hblock]
  simp only [hstops, nil_append, append_eq_nil_iff, quietCall, hstart]
  generalize (st'.openToolBlock tc.index).1 = opened at hblock hopen
  unfold startToolBlock processArguments
  cases hfrag : tc.fragment.isEmpty with
  | false => simp
  | true =>
    cases block.started with
    | true => simpa using hopen
    | false =>
      rcases tc.names? with _ | ⟨id, name⟩
      · simpa using hopen
      · simp

theorem Ended.toolCalls (tcs : List ChunkToolCall) :
    ((st'.processToolCalls tcs).2 = [] ↔ tcs.all (quietCall st) = true) ∧
      (tcs.all (quietCall st) = true → Ended st (st'.processToolCalls tcs).1) := by
  induction tcs generalizing st' with
  | nil => exact ⟨by simp [processToolCalls], fun _ => h⟩
  | cons tc tcs ih =>
    obtain ⟨hquiet, hafter⟩ := h.toolCall tc
    simp only [processToolCalls, append_eq_nil_iff, all_cons,
      Bool.and_eq_true, hquiet]
    constructor
    · exact and_congr_right fun hcall => (ih (hafter hcall)).1
    · rintro ⟨hcall, hrest⟩
      exact (ih (hafter hcall)).2 hrest

theorem Ended.processChunk (item : StreamItem) :
    ((st'.processChunk item).2 = [] ↔ quiet st item = true) ∧
      (quiet st item = true → Ended st (st'.processChunk item).1) := by
  rcases item with e | ⟨_ | ⟨choice, others⟩⟩
  · simp [StreamState.processChunk, quiet]
  · exact ⟨by simp [StreamState.processChunk, quiet], fun _ => h⟩
  rcases hreas : choice.finishReason with _ | reason
  · have hchunk : st'.processChunk (.ok ⟨choice :: others⟩) = st'.processDelta choice.delta := by
      simp [StreamState.processChunk, hreas]
    have hquiet : quiet st (.ok ⟨choice :: others⟩) =
        ((choice.delta.content.getD "").isEmpty &&
          (choice.delta.toolCalls.getD []).all (quietCall st)) := by
      simp only [quiet, hreas, isNone_none, Bool.true_and]
      rfl
    rw [hchunk, hquiet]
    simp only [processDelta, append_eq_nil_iff]
    cases htext : (choice.delta.content.getD "").isEmpty with
    | true =>
      have hsame : st'.processText (choice.delta.content.getD "") = (st', []) := by
        simp [processText, htext]
      rw [hsame]
      simpa using h.toolCalls (choice.delta.toolCalls.getD [])
    | false => simp [processText, htext, h.text, addTokens]
  · simp [StreamState.processChunk, quiet, hreas]

theorem Ended.contentEvents (items : List StreamItem) :
    st'.contentEvents items = [] ↔ items.all (quiet st) = true := by
  induction items generalizing st' with
  | nil => simp [StreamState.contentEvents]
  | cons item items ih =>
    obtain ⟨hquiet, hafter⟩ := h.processChunk item
    simp only [StreamState.contentEvents, append_eq_nil_iff, all_cons, Bool.and_eq_true,
      hquiet]
    exact and_congr_right fun hitem => ih (hafter hitem)

end

/-! ## 6. Every stream -/

def safetyClose (content : List SseEvent) : List SseEvent :=
  if content.any SseEvent.isMessageStop then [] else [.messageDelta "end_turn" 0, .messageStop]

theorem safetyClose_append (h : Inner events) : safetyClose (events ++ rest) = safetyClose rest := by
  have hnone : events.any SseEvent.isMessageStop = false := by
    rw [List.any_eq_false]
    intro e he
    simp [(h e he).2]
  simp [safetyClose, hnone]

theorem ended_closeOpenBlocks (st : StreamState) (reason : Option String) :
    Ended st { st.closeOpenBlocks.1 with finishReason := reason } := ⟨rfl, fun _ => rfl⟩

theorem Tracks.not_endsBracketed {delta : ChunkDelta} (h : Tracks p b) (hdelta : p.delta? delta = none)
    (rest : List SseEvent) : ¬ EndsBracketed b ((p.st.processDelta delta).2 ++ rest) := by
  have hrel := h.delta delta
  rw [hdelta] at hrel
  rw [endsBracketed_append (inner_of_isBlock (p.st.isBlock_processDelta delta)), rel_none_left hrel]
  simp

theorem Tracks.endsBracketed_delta {delta : ChunkDelta} (h : Tracks p b)
    (hdelta : p.delta? delta = some p') : ∃ b', Tracks p' b' ∧ ∀ rest,
      EndsBracketed b ((p.st.processDelta delta).2 ++ rest) ↔ EndsBracketed b' rest := by
  have hrel := h.delta delta
  rw [hdelta] at hrel
  obtain ⟨b', hscan, htrks⟩ := rel_some_left hrel
  refine ⟨b', htrks, fun rest => ?_⟩
  rw [endsBracketed_append (inner_of_isBlock (p.st.isBlock_processDelta delta)), hscan]
  simp

/-- An item that ends the message: the open blocks are closed, some events follow, and the message
stops.  Then everything depends on what comes after. -/
theorem Tracks.endsBracketed_close (h : Tracks p b) (hevs : Inner events) (hmarks : marks events = []) :
    EndsBracketed b (p.st.closeOpenBlocks.2 ++ events ++ .messageStop :: rest) ↔ rest = [] := by
  have hinner := (inner_of_isBlock p.st.isBlock_closeOpenBlocks).append hevs
  rw [endsBracketed_messageStop hinner, marks_append, hmarks, append_nil, h.closeOpenBlocks]
  simp

theorem safetyClose_messageStop : safetyClose (events ++ .messageStop :: rest) = [] := by
  simp [safetyClose, SseEvent.isMessageStop]

theorem Tracks.endsBracketed_iff (h : Tracks p b) (items : List StreamItem) :
    EndsBracketed b (p.st.contentEvents items ++ safetyClose (p.st.contentEvents items)) ↔
      orderlyFrom p items = true := by
  induction items generalizing p b with
  | nil =>
    have hinner : Inner [SseEvent.messageDelta "end_turn" 0] := by simp [Inner, SseEvent.isMessageStart,
      SseEvent.isMessageStop]
    have hends : EndsBracketed b ([.messageDelta "end_turn" 0] ++ .messageStop :: []) ↔
        b.active = [] := by
      rw [endsBracketed_messageStop hinner]
      simp only [true_and]
      constructor
      · rintro ⟨last, hscan⟩
        cases hscan
        rfl
      · intro hact
        exact ⟨b.last, congrArg some (congrArg (Brackets.mk · b.last) hact)⟩
    refine hends.trans ?_
    rw [orderlyFrom, List.isEmpty_iff]
    constructor
    · intro hact
      exact perm_nil.1 (hact ▸ h.active.symm)
    · intro hopen
      exact perm_nil.1 (hopen ▸ h.active)
  | cons item items ih =>
    rcases item with e | ⟨_ | ⟨choice, others⟩⟩
    · -- an error of the backend
      have hevs : p.st.contentEvents (.error e :: items) =
          p.st.closeOpenBlocks.2 ++ [.error "api_error" "internal backend error"] ++
            .messageStop :: p.st.closeOpenBlocks.1.contentEvents items := by
        simp [contentEvents, processChunk]
      rw [hevs, safetyClose_messageStop, append_nil, h.endsBracketed_close (by simp [Inner,
        SseEvent.isMessageStart, SseEvent.isMessageStop]) rfl]
      exact (ended_closeOpenBlocks p.st p.st.finishReason).contentEvents items
    · exact ih h
    rcases hreas : choice.finishReason with _ | reason
    · have hevs : p.st.contentEvents (.ok ⟨choice :: others⟩ :: items) =
          (p.st.processDelta choice.delta).2 ++
            (p.st.processDelta choice.delta).1.contentEvents items := by
        simp [contentEvents, processChunk, hreas]
      have hinner := inner_of_isBlock (p.st.isBlock_processDelta choice.delta)
      rw [hevs, safetyClose_append hinner, append_assoc]
      simp only [orderlyFrom, hreas, isSome_none, Bool.false_eq_true, if_false]
      rcases hp : p.delta? choice.delta with _ | p'
      · simp [h.not_endsBracketed hp]
      obtain ⟨b', htrks, hiff⟩ := h.endsBracketed_delta hp
      rw [hiff, ← Progress.delta?_st hp]
      exact ih htrks
    · -- a `finish_reason`
      let ended : StreamState := { (p.st.processDelta choice.delta).1.closeOpenBlocks.1 with
        finishReason := some reason }
      have hevs : p.st.contentEvents (.ok ⟨choice :: others⟩ :: items) =
          (p.st.processDelta choice.delta).2 ++
            ((p.st.processDelta choice.delta).1.closeOpenBlocks.2 ++
              [.messageDelta (mapStopReason reason) (p.st.processDelta choice.delta).1.outputTokens] ++
              .messageStop :: ended.contentEvents items) := by
        simp [ended, contentEvents, processChunk, hreas,
          StreamState.closeOpenBlocks, openBlocks]
      rw [hevs, ← append_assoc, safetyClose_messageStop, append_nil, append_assoc]
      simp only [orderlyFrom, hreas, isSome_some, if_true]
      rcases hp : p.delta? choice.delta with _ | p'
      · simp [h.not_endsBracketed hp]
      obtain ⟨b', htrks, hiff⟩ := h.endsBracketed_delta hp
      rw [hiff, ← Progress.delta?_st hp, htrks.endsBracketed_close (by simp [Inner,
        SseEvent.isMessageStart, SseEvent.isMessageStop]) rfl]
      have hended : ended = { p'.st.closeOpenBlocks.1 with finishReason := some reason } := by
        rw [Progress.delta?_st hp]
      rw [hended]
      exact (ended_closeOpenBlocks p'.st (some reason)).contentEvents items

end Gradatum.Gateway
