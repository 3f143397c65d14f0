import Mathlib.Algebra.Order.Ring.Nat
import Gradatum.Reasoning.Run

/-!
# The breaker of the privacy sidecar

`detect` asks the sidecar unless the breaker is open.  An accepted round trip ends a run of failures, and a
completed detection ends an outage.
-/

open Reasoning

namespace Gradatum.Notes

structure Breaker where
  consecutiveFailures : Nat
  openUntil : Option Nat
  openings : Nat
  deriving DecidableEq

namespace Breaker

def isOpen (b : Breaker) (now : Nat) : Bool := b.openUntil.any (now < ·)

def recordRoundTrip (b : Breaker) : Breaker := { b with consecutiveFailures := 0 }

def recordSuccess (b : Breaker) : Breaker := { b.recordRoundTrip with openUntil := none }

def recordFailure (now threshold cooldown : Nat) (b : Breaker) : Breaker :=
  if b.openUntil.isSome then { b with openUntil := some (now + cooldown) }
  else
    let failures := min (b.consecutiveFailures + 1) (2 ^ 32 - 1)
    if threshold ≤ failures then ⟨0, some (now + cooldown), min (b.openings + 1) (2 ^ 64 - 1)⟩
    else { b with consecutiveFailures := failures }

end Breaker

/-- What a scan ends with.  A handshake that is refused is a failure after which nothing is asked. -/
inductive ScanEnd where
  | success
  | failure (latches : Bool)
  | inputTooLarge
  deriving DecidableEq

/-- A call of `detect` reads the clock before its scan and where the scan fails. -/
structure DetectCall where
  now : Nat
  roundTrips : Nat
  scanEnd : ScanEnd
  endedAt : Nat
  deriving DecidableEq

/-- With the state of the source stands what the breaker is judged by: the last reading of the clock, the last
failure, the openings up to the last completed detection, and since that detection the failures after the
last round trip and the longest run of failures without a round trip. -/
structure SidecarDetector where
  latched : Bool
  breaker : Breaker
  clock : Nat
  lastFailure : Option Nat
  settled : Nat
  streak : Nat
  longest : Nat
  deriving DecidableEq

namespace SidecarDetector

def new : SidecarDetector := ⟨false, ⟨0, none, 0⟩, 0, none, 0, 0, 0⟩

def roundTrip (d : SidecarDetector) : SidecarDetector :=
  { d with breaker := d.breaker.recordRoundTrip, streak := 0 }

def success (d : SidecarDetector) : SidecarDetector :=
  { d with breaker := d.breaker.recordSuccess, settled := d.breaker.openings, streak := 0, longest := 0 }

def failure (threshold cooldown now : Nat) (latches : Bool) (d : SidecarDetector) : SidecarDetector where
  latched := latches
  breaker := d.breaker.recordFailure now threshold cooldown
  clock := now
  lastFailure := some now
  settled := d.settled
  streak := d.streak + 1
  longest := max d.longest (d.streak + 1)

def detect (threshold cooldown : Nat) (d : SidecarDetector) (call : DetectCall) : SidecarDetector :=
  if d.latched ∨ d.breaker.isOpen call.now then d
  else
    let scanned := roundTrip^[call.roundTrips] { d with clock := call.now }
    match call.scanEnd with
    | .success => scanned.success
    | .failure latches => scanned.failure threshold cooldown call.endedAt latches
    | .inputTooLarge => scanned

def Refuses (d : SidecarDetector) (call : DetectCall) : Prop :=
  d.latched = false ∧ d.breaker.isOpen call.now = true

abbrev Monotone (d : SidecarDetector) (call : DetectCall) : Prop :=
  d.clock ≤ call.now ∧ call.now ≤ call.endedAt

structure OutageInv (threshold cooldown : Nat) (d : SidecarDetector) : Prop where
  past : ∀ t, d.lastFailure = some t → t ≤ d.clock
  closed : d.breaker.openUntil = none → d.breaker.consecutiveFailures ≤ d.streak ∧
    d.breaker.openings ≤ d.settled
  opened : ∀ until_, d.breaker.openUntil = some until_ → max 1 threshold ≤ d.longest ∧
    d.breaker.openings ≤ d.settled + 1 ∧ ∃ t, d.lastFailure = some t ∧ until_ = t + cooldown

variable {threshold cooldown : Nat} {d : SidecarDetector}

section

variable (h : OutageInv threshold cooldown d)

include h

theorem OutageInv.roundTrip :
    OutageInv threshold cooldown d.roundTrip :=
  ⟨h.past, fun hclosed => ⟨le_rfl, (h.closed hclosed).2⟩, h.opened⟩

theorem OutageInv.success : OutageInv threshold cooldown d.success :=
  ⟨h.past, fun _ => ⟨le_rfl, le_rfl⟩, by rintro _ ⟨⟩⟩

theorem OutageInv.failure (now : Nat) (latches : Bool) :
    OutageInv threshold cooldown (d.failure threshold cooldown now latches) := by
  have hpast : ∀ t, some now = some t → t ≤ now := by
    rintro t ⟨⟩
    exact le_rfl
  unfold SidecarDetector.failure Breaker.recordFailure
  cases huntil : d.breaker.openUntil with
  | some until_ =>
    obtain ⟨hlong, hopens, -⟩ := h.opened until_ huntil
    refine ⟨hpast, by rintro ⟨⟩, ?_⟩
    rintro _ ⟨⟩
    exact ⟨hlong.trans (Nat.le_max_left _ _), hopens, now, rfl, rfl⟩
  | none =>
    obtain ⟨hcount, hopens⟩ := h.closed huntil
    simp only [Option.isSome_none, Bool.false_eq_true, if_false]
    split
    · refine ⟨hpast, by rintro ⟨⟩, ?_⟩
      rintro _ ⟨⟩
      exact ⟨by dsimp only; omega, by dsimp only; omega, now, rfl, rfl⟩
    · exact ⟨hpast, fun _ => ⟨by dsimp only; omega, hopens⟩, by simp⟩

theorem OutageInv.scanned (n : Nat) :
    OutageInv threshold cooldown (SidecarDetector.roundTrip^[n] d) := by
  induction n with
  | zero => exact h
  | succ n ih =>
    rw [Function.iterate_succ_apply']
    exact ih.roundTrip

theorem OutageInv.detect (hmono : d.Monotone call) :
    OutageInv threshold cooldown (d.detect threshold cooldown call) := by
  unfold SidecarDetector.detect
  split
  · exact h
  have hread : OutageInv threshold cooldown { d with clock := call.now } :=
    ⟨fun t ht => (h.past t ht).trans hmono.1, h.closed, h.opened⟩
  have hscan := hread.scanned call.roundTrips
  dsimp only
  split
  · exact hscan.success
  · exact hscan.failure _ _
  · exact hscan

end

/-- A call is refused only within the cooldown after a failure, and after a run of failures that reached the
threshold.  Between two completed detections the breaker opens once. -/
theorem refuses_inOutage (threshold cooldown : Nat) (calls : List DetectCall)
    (h : EachStep (detect threshold cooldown) Monotone new calls) :
    EachStep (detect threshold cooldown) (fun d call => d.Refuses call → max 1 threshold ≤ d.longest ∧
      ∃ t, d.lastFailure = some t ∧ t ≤ call.now ∧ call.now < t + cooldown) new calls ∧
    Always (detect threshold cooldown) (fun d => d.breaker.openings ≤ d.settled + 1) new calls := by
  have hnew : OutageInv threshold cooldown new :=
    ⟨by rintro _ ⟨⟩, fun _ => ⟨le_rfl, le_rfl⟩, by rintro _ ⟨⟩⟩
  constructor
  · refine h.imp_of_inv hnew (fun _ _ hd hmono => hd.detect hmono) fun d call hd hmono hopen => ?_
    obtain ⟨until_, huntil, hlt⟩ := Option.any_eq_true _ _ |>.1 hopen.2
    obtain ⟨hlong, -, t, ht, rfl⟩ := hd.opened until_ huntil
    exact ⟨hlong, t, ht, (hd.past t ht).trans hmono.1, of_decide_eq_true hlt⟩
  · intro pre hpre
    have hd := h.always hnew (fun _ _ hd hmono => hd.detect hmono) pre hpre
    cases huntil : (run (detect threshold cooldown) new pre).breaker.openUntil with
    | none => exact Nat.le_succ_of_le (hd.closed huntil).2
    | some until_ => exact (hd.opened until_ huntil).2.1

def twoFailures : List DetectCall := [⟨0, 1, .failure false, 1⟩, ⟨2, 0, .failure false, 3⟩]

/-- Two failures open the breaker, and the third call is refused. -/
theorem refuses_inOutage_third : (run (detect 2 10) new twoFailures).Refuses ⟨5, 0, .success, 5⟩ ∧
    2 ≤ (run (detect 2 10) new twoFailures).longest := by
  have hrefuses : (run (detect 2 10) new twoFailures).Refuses ⟨5, 0, .success, 5⟩ := ⟨rfl, rfl⟩
  have hcalls := (refuses_inOutage 2 10 (twoFailures ++ [⟨5, 0, .success, 5⟩]) (by decide)).1
  exact ⟨hrefuses, (hcalls.2.2.1 hrefuses).1⟩

end SidecarDetector

end Gradatum.Notes
