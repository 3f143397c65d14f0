import Gradatum.Gateway.Bracketing

/-!
# The stream that the client reads

`keepalive_anthropic_sse` puts the keep-alive pings, the opening of the message and its end around the
content stream.  Apart from the pings the events do not depend on the ticker.
-/

open Reasoning

namespace Gradatum.Gateway

open List

/-! ## 1. What a phase still has to say -/

def SseEvent.isPing : SseEvent → Bool
  | .ping => true
  | _ => false

def withoutPings (events : List SseEvent) : List SseEvent := events.filter (!·.isPing)

@[simp] theorem withoutPings_append (events events' : List SseEvent) :
    withoutPings (events ++ events') = withoutPings events ++ withoutPings events' := filter_append ..

theorem withoutPings_eq_self (h : ∀ e ∈ events, e.isPing = false) :
    withoutPings events = events := filter_eq_self.2 fun e he => by simp [h e he]

def StreamDispatch.remaining : StreamDispatch → List SseEvent
  | .ready items => chunksToAnthropicContentSse items ++ safetyClose (chunksToAnthropicContentSse items)
  | .failed errorType message => [.error errorType message, .messageStop]

namespace KeepAlivePhase

/-- The events that are still to come in a phase when the ticker does not win any more. -/
def remaining : KeepAlivePhase → List SseEvent
  | .start model messageId dispatch => .messageStart model messageId :: dispatch.remaining
  | .waiting dispatch => dispatch.remaining
  | .content rest stopEmitted => rest ++ if stopEmitted then [] else safetyClose rest
  | .error errorType message => [.error errorType message, .messageStop]
  | .stop => [.messageStop]
  | .done => []

theorem withoutPings_poll (phase : KeepAlivePhase) (ticked : Bool) :
    withoutPings ((phase.poll ticked).1.toList ++ (phase.poll ticked).2.remaining) =
      withoutPings phase.remaining := by
  cases phase with
  | start | error | stop | done => rfl
  | waiting dispatch =>
    cases ticked with
    | true => rfl
    | false => cases dispatch <;> rfl
  | content rest stopEmitted =>
    cases ticked with
    | true => rfl
    | false =>
      rcases rest with _ | ⟨event, rest⟩
      · cases stopEmitted <;> rfl
      · -- the flag takes over what the event says about the end of the message
        rcases hstop : event.isMessageStop with _ | _ <;> cases stopEmitted <;>
          simp [poll, remaining, safetyClose, hstop]

theorem withoutPings_polls (phase : KeepAlivePhase) (ticks : List Bool) :
    withoutPings ((phase.polls ticks).1 ++ (phase.polls ticks).2.remaining) =
      withoutPings phase.remaining := by
  induction ticks generalizing phase with
  | nil => rfl
  | cons ticked ticks ih =>
    have hstep := phase.withoutPings_poll ticked
    rw [withoutPings_append, ← ih] at hstep
    rw [← hstep]
    simp [polls]

/-! ## 2. The stream ends -/

/-- The turns without a tick that a phase needs to come to its end. -/
def turnsLeft : KeepAlivePhase → Nat
  | .start _ _ (.ready items) => (chunksToAnthropicContentSse items).length + 4
  | .start _ _ (.failed _ _) => 4
  | .waiting (.ready items) => (chunksToAnthropicContentSse items).length + 3
  | .waiting (.failed _ _) => 3
  | .content rest _ => rest.length + 2
  | .error _ _ => 2
  | .stop => 1
  | .done => 0

theorem turnsLeft_poll_le (phase : KeepAlivePhase) (ticked : Bool) :
    (phase.poll ticked).2.turnsLeft ≤ phase.turnsLeft - (if ticked then 0 else 1) := by
  cases phase with
  | start _ _ dispatch | waiting dispatch => cases dispatch <;> cases ticked <;> simp [poll, turnsLeft]
  | content rest stopEmitted =>
    cases ticked with
    | true => simp [poll]
    | false => rcases rest with _ | ⟨event, rest⟩ <;> cases stopEmitted <;> simp [poll, turnsLeft]
  | error errorType message => cases ticked <;> simp [poll, turnsLeft]
  | stop | done => simp [poll, turnsLeft]

theorem turnsLeft_polls_le (phase : KeepAlivePhase) (ticks : List Bool) :
    (phase.polls ticks).2.turnsLeft ≤ phase.turnsLeft - ticks.count false := by
  induction ticks generalizing phase with
  | nil => simp [polls]
  | cons ticked ticks ih =>
    have hstep := phase.turnsLeft_poll_le ticked
    have hrest := ih (phase.poll ticked).2
    change ((phase.poll ticked).2.polls ticks).2.turnsLeft ≤ _
    cases ticked with
    | true =>
      have hcount : (true :: ticks).count false = ticks.count false := by simp
      simp only [if_true] at hstep
      omega
    | false =>
      have hcount : (false :: ticks).count false = ticks.count false + 1 := by simp
      simp only [Bool.false_eq_true, if_false] at hstep
      omega

theorem eq_done_of_turnsLeft {phase : KeepAlivePhase} (h : phase.turnsLeft = 0) : phase = .done := by
  cases phase with
  | start _ _ dispatch | waiting dispatch => cases dispatch <;> simp [turnsLeft] at h
  | done => rfl
  | _ => simp [turnsLeft] at h

theorem polls_eq_done (phase : KeepAlivePhase) (h : phase.turnsLeft ≤ ticks.count false) :
    (phase.polls ticks).2 = .done := by
  have hle := phase.turnsLeft_polls_le ticks
  exact eq_done_of_turnsLeft (by omega)

end KeepAlivePhase

/-! ## 3. Well-bracketed streams -/

namespace StreamState

theorem isPing_processChunk (st : StreamState) (item : StreamItem) :
    ∀ e ∈ (st.processChunk item).2, e.isPing = false := by
  have hblock : ∀ {events : List SseEvent}, (∀ e ∈ events, e.isBlock = true) →
      ∀ e ∈ events, e.isPing = false := by
    intro events hevs e he
    cases e with
    | ping => cases hevs _ he
    | _ => rfl
  rcases item with err | ⟨_ | ⟨choice, others⟩⟩
  · simp only [processChunk, mem_append]
    rintro e (he | he)
    · exact hblock st.isBlock_closeOpenBlocks e he
    · simp only [mem_cons, not_mem_nil, or_false] at he
      rcases he with rfl | rfl <;> rfl
  · simp [processChunk]
  · rcases hreas : choice.finishReason with _ | reason
    · simpa [processChunk, hreas] using hblock (st.isBlock_processDelta choice.delta)
    · simp only [processChunk, hreas, mem_append]
      rintro e ((he | he) | he)
      · exact hblock (st.isBlock_processDelta choice.delta) e he
      · exact hblock (isBlock_closeOpenBlocks _) e he
      · simp only [mem_cons, not_mem_nil, or_false] at he
        rcases he with rfl | rfl <;> rfl

theorem isPing_contentEvents (st : StreamState) (items : List StreamItem) :
    ∀ e ∈ st.contentEvents items, e.isPing = false := by
  induction items generalizing st with
  | nil => simp [contentEvents]
  | cons item items ih =>
    intro e he
    rcases mem_append.1 he with he | he
    · exact st.isPing_processChunk item e he
    · exact ih _ e he

end StreamState

theorem StreamDispatch.withoutPings_remaining (dispatch : StreamDispatch) :
    withoutPings dispatch.remaining = dispatch.remaining := by
  cases dispatch with
  | failed errorType message => rfl
  | ready items =>
    have hcont : withoutPings (chunksToAnthropicContentSse items) = _ :=
      withoutPings_eq_self (StreamState.isPing_contentEvents .new items)
    rw [StreamDispatch.remaining, withoutPings_append, hcont]
    congr 1
    unfold safetyClose
    split <;> rfl

theorem StreamDispatch.endsBracketed_remaining (dispatch : StreamDispatch) :
    EndsBracketed ⟨[], none⟩ dispatch.remaining ↔ dispatch.orderly = true := by
  cases dispatch with
  | ready items => exact tracks_new.endsBracketed_iff items
  | failed errorType message =>
    refine iff_of_true ⟨[.error errorType message], rfl, ?_, none, rfl⟩ rfl
    simp [Inner, SseEvent.isMessageStart, SseEvent.isMessageStop]

theorem withoutPings_of_done (h : ((KeepAlivePhase.start model messageId dispatch).polls ticks).2 = .done) :
    withoutPings ((KeepAlivePhase.start model messageId dispatch).polls ticks).1 =
      .messageStart model messageId :: dispatch.remaining := by
  have hpolls := (KeepAlivePhase.start model messageId dispatch).withoutPings_polls ticks
  rw [h] at hpolls
  simp only [KeepAlivePhase.remaining, append_nil] at hpolls
  rw [hpolls]
  change SseEvent.messageStart model messageId :: withoutPings dispatch.remaining = _
  rw [dispatch.withoutPings_remaining]

/-- The stream always ends, and its events are well bracketed exactly when the items are orderly. -/
theorem bracketedStream_iff_orderly (model messageId : String) (dispatch : StreamDispatch) :
    (∀ ticks, (KeepAlivePhase.start model messageId dispatch).turnsLeft ≤ ticks.count false →
      ((KeepAlivePhase.start model messageId dispatch).polls ticks).2 = .done) ∧
    ∀ ticks, ((KeepAlivePhase.start model messageId dispatch).polls ticks).2 = .done →
      (BracketedStream (withoutPings ((KeepAlivePhase.start model messageId dispatch).polls ticks).1) ↔
        dispatch.orderly = true) := by
  constructor
  · intro ticks hticks
    exact KeepAlivePhase.polls_eq_done _ hticks
  · intro ticks hdone
    rw [withoutPings_of_done hdone, bracketedStream_iff, dispatch.endsBracketed_remaining]

/-- A backend that says something and finishes. -/
def finishedAnswer : StreamDispatch :=
  .ready [.ok ⟨[⟨⟨some "hi", none⟩, none⟩]⟩, .ok ⟨[⟨⟨none, none⟩, some "stop"⟩]⟩]

/-- A backend whose stream breaks off without a `finish_reason`. -/
def truncatedAnswer : StreamDispatch := .ready [.ok ⟨[⟨⟨some "hi", none⟩, none⟩]⟩]

theorem bracketedStream_finishedAnswer :
    ((KeepAlivePhase.start "m" "msg" finishedAnswer).polls (List.replicate 9 false)).2 = .done ∧
      BracketedStream
        (withoutPings ((KeepAlivePhase.start "m" "msg" finishedAnswer).polls (List.replicate 9 false)).1) := by
  have hdone := (bracketedStream_iff_orderly "m" "msg" finishedAnswer).1 (List.replicate 9 false) (by decide)
  exact ⟨hdone, ((bracketedStream_iff_orderly "m" "msg" finishedAnswer).2 _ hdone).2 (by decide)⟩

/-- The block of the text is started and never stopped: the end that the keep-alive adds closes the
message, not its blocks. -/
theorem not_bracketedStream_truncatedAnswer :
    (KeepAlivePhase.start "m" "msg" truncatedAnswer).polls (List.replicate 6 false) =
        ([.messageStart "m" "msg", .contentBlockStart 0 .text, .contentBlockDelta 0 (.textDelta "hi"),
          .messageDelta "end_turn" 0, .messageStop], .done) ∧ ¬ BracketedStream
        (withoutPings ((KeepAlivePhase.start "m" "msg" truncatedAnswer).polls (List.replicate 6 false)).1) := by
  refine ⟨rfl, ?_⟩
  rw [withoutPings_of_done rfl, bracketedStream_iff, truncatedAnswer.endsBracketed_remaining]
  decide

end Gradatum.Gateway
