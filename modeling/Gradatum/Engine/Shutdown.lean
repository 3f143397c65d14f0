import Gradatum.Reasoning.Run

/-!
# The shutdown of the engine

`supervise_loop` and `shutdown` share a flag and the lock that holds the child.  The loop reads the flag for
the last time before it spawns, and takes the lock when the child already runs.
-/

open Reasoning

namespace Gradatum.Engine

/-- Where `supervise_loop` stands; it holds the lock while it waits for the child. -/
inductive LoopAt where
  | top
  | locking
  | waiting
  | waited
  | sleeping
  | spawning
  | storing
  | polling
  | ended
  deriving DecidableEq

/-- Where `shutdown` stands; it holds the lock while it stops the child. -/
inductive ShutdownAt where
  | idle
  | locking
  | stopping
  | returned
  deriving DecidableEq

/-- Of a child it is known whether its process runs. -/
structure Supervisor where
  shutdownRequested : Bool
  child : Option Bool
  /-- The child that the loop has spawned and not yet put under the lock. -/
  spawned : Option Bool
  loopAt : LoopAt
  shutdownAt : ShutdownAt
  deriving DecidableEq

inductive Move where
  /-- The loop, whose wait or spawn may fail and whose budget may be used up. -/
  | loop (fails exhausted : Bool)
  | shutdown
  | childExits
  | spawnedExits
  deriving DecidableEq

namespace Supervisor

def loopStep (fails exhausted : Bool) (s : Supervisor) : Supervisor :=
  match s.loopAt with
  | .top => { s with loopAt := if s.shutdownRequested then .ended else .locking }
  | .locking =>
    if s.shutdownAt = .stopping then s
    else { s with loopAt := if s.child.isSome then .waiting else .ended }
  | .waiting => if fails ∨ s.child = some false then { s with loopAt := .waited } else s
  | .waited => { s with loopAt := if s.shutdownRequested ∨ exhausted then .ended else .sleeping }
  | .sleeping => { s with loopAt := if s.shutdownRequested then .ended else .spawning }
  | .spawning =>
    if fails then { s with loopAt := .top } else { s with spawned := some true, loopAt := .storing }
  | .storing =>
    -- the child before it is dropped, and killed with that
    if s.shutdownAt = .stopping then s
    else { s with child := s.spawned, spawned := none, loopAt := .polling }
  | .polling => { s with loopAt := .top }
  | .ended => s

def shutdownStep (s : Supervisor) : Supervisor :=
  match s.shutdownAt with
  | .idle => { s with shutdownRequested := true, shutdownAt := .locking }
  | .locking => if s.loopAt = .waiting then s else { s with shutdownAt := .stopping }
  -- a signal, a wait of some seconds and a kill
  | .stopping => { s with child := none, shutdownAt := .returned }
  | .returned => s

def step (s : Supervisor) : Move → Supervisor
  | .loop fails exhausted => s.loopStep fails exhausted
  | .shutdown => s.shutdownStep
  | .childExits => { s with child := s.child.map fun _ => false }
  | .spawnedExits => { s with spawned := s.spawned.map fun _ => false }

def start (child : Option Bool) : Supervisor := ⟨false, child, none, .top, .idle⟩

/-- After `shutdown` has returned no child runs, so none is spawned either. -/
def Final (s : Supervisor) : Prop :=
  s.shutdownAt = .returned → s.child ≠ some true ∧ s.spawned ≠ some true

instance (s : Supervisor) : Decidable s.Final := inferInstanceAs (Decidable (_ → _))

/-- The loop is between its last look at the flag and the lock. -/
def Respawning (s : Supervisor) : Prop := s.loopAt = .spawning ∨ s.loopAt = .storing

instance (s : Supervisor) : Decidable s.Respawning := inferInstanceAs (Decidable (_ ∨ _))

/-- `shutdown` does not get the lock while the loop respawns. -/
def Clear (s : Supervisor) (move : Move) : Prop :=
  move = .shutdown → s.shutdownAt = .locking → ¬ s.Respawning

instance (s : Supervisor) (move : Move) : Decidable (s.Clear move) := inferInstanceAs (Decidable (_ → _ → _))

structure ShutdownInv (s : Supervisor) : Prop where
  spawned : s.spawned ≠ none → s.loopAt = .storing
  requested : s.shutdownAt ≠ .idle → s.shutdownRequested = true
  settled : s.shutdownAt = .stopping ∨ s.shutdownAt = .returned → ¬ s.Respawning
  gone : s.shutdownAt = .returned → s.child = none

theorem ShutdownInv.final (h : ShutdownInv s) : s.Final := by
  intro hret
  refine ⟨by simp [h.gone hret], fun hrun => h.settled (.inr hret) (.inr (h.spawned ?_))⟩
  simp [hrun]

theorem ShutdownInv.step (h : ShutdownInv s) (hclear : s.Clear move) : ShutdownInv (s.step move) := by
  obtain ⟨hspawned, hreq, hsettled, hgone⟩ := h
  cases move with
  | loop fails exhausted =>
    -- only `sleeping` leads to `spawning`, and not under the flag
    rw [Supervisor.step]
    constructor <;> grind [loopStep, Respawning]
  | shutdown =>
    rw [Supervisor.step]
    constructor <;> grind [shutdownStep, Respawning, Clear]
  | childExits => exact ⟨hspawned, hreq, hsettled, fun hret => by simp [Supervisor.step, hgone hret]⟩
  | spawnedExits => exact ⟨by simpa [Supervisor.step] using hspawned, hreq, hsettled, hgone⟩

/-- If `shutdown` gets the lock only while the loop does not respawn, its return is final. -/
theorem final_of_clear (child : Option Bool) (moves : List Move)
    (h : EachStep step Clear (start child) moves) : Always step Final (start child) moves := by
  have hstart : ShutdownInv (start child) := by
    constructor <;> simp [start]
  have hinv := h.always hstart fun _ _ hinv hclear => hinv.step hclear
  exact fun pre hpre => (hinv pre hpre).final

def respawn : List Move := List.replicate 5 (.loop false false)

/-- The flag is set while the loop sleeps. -/
theorem final_inSleep : Always step Final (start (some false))
    (respawn.take 4 ++ [.shutdown, .shutdown, .shutdown, .loop false false]) :=
  final_of_clear _ _ (by simp [respawn, EachStep]; decide)

/-- `shutdown` runs from its first step to its last after the loop has looked at the flag, and the loop
spawns a child. -/
theorem not_final_respawn : ¬ Always step Final (start (some false))
    (respawn ++ [.shutdown, .shutdown, .shutdown, .loop false false]) :=
  fun h => absurd (h _ (List.prefix_refl _)) (by decide)

end Supervisor

end Gradatum.Engine
