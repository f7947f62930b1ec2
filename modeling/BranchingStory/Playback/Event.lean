import BranchingStory.Playback.Instruction
import BranchingStory.Playback.Pacing

/-!
What goes into playback and what comes out of it.
-/

namespace BranchingStory
namespace Playback

inductive Event
  | advance
  | timerElapsed (token : TimerToken)
  | choose (index : Nat)
  deriving DecidableEq, Repr

inductive Wait
  | input
  /-- The player, or the end of the delay in milliseconds. -/
  | timer (token : TimerToken) (delay : Nat)
  | choice
  | ended
  deriving DecidableEq, Repr

inductive Status
  | idle
  | running
  | awaitingInput
  | awaitingTimer
  | awaitingChoice
  | ended
  deriving DecidableEq, Repr

inductive Rejection
  | notStarted
  | alreadyStarted
  | finished
  | notAwaitingChoice
  | invalidChoice (index available : Nat)
  deriving DecidableEq, Repr

structure Outcome where
  instructions : List Instruction
  wait : Wait
  deriving DecidableEq, Repr

def Wait.status : Wait → Status
  | .input => .awaitingInput
  | .timer .. => .awaitingTimer
  | .choice => .awaitingChoice
  | .ended => .ended

def Rejection.message : Rejection → String
  | .notStarted => "Story has not been started"
  | .alreadyStarted => "Story has already been started"
  | .finished => "Story has finished"
  | .notAwaitingChoice => "No choice is pending"
  | .invalidChoice index available => s!"Choice {index} is out of range ({available} available)"

def Outcome.isFinished (outcome : Outcome) : Bool := outcome.wait = .ended

end Playback
end BranchingStory
