/-!
How a story is paced: how long a line stays before autoplay goes on, and the timer that waits for it.
-/

namespace BranchingStory
namespace Playback

/-- Milliseconds for each character of a line, and the least for any line. -/
structure Pacing where
  perCharacter : Nat
  least : Nat
  deriving DecidableEq, Repr

def longestDelay : Nat := 18446744073709551615

namespace Pacing

def scene : Pacing := ⟨85, 1000⟩

def texting : Pacing := ⟨70, 1000⟩

def delay (pacing : Pacing) (line : String) : Nat :=
  max (min (line.toList.length * pacing.perCharacter) longestDelay) pacing.least

end Pacing

inductive Mode
  | scene
  | texting
  deriving DecidableEq, Repr

inductive BranchPacing
  | immediate
  | awaitInputAtRoot
  deriving DecidableEq, Repr

structure Options where
  mode : Mode := .scene
  pacing : Pacing := .scene
  branchPacing : BranchPacing := .immediate
  deriving DecidableEq, Repr

namespace Options

def scene : Options := {}

def texting : Options := { mode := .texting, pacing := .texting }

end Options

abbrev TimerToken := Nat

/-- The timer of autoplay. Arming it again makes earlier tokens void. -/
structure Timer where
  armings : Nat := 0
  armed : Option TimerToken := none
  deriving DecidableEq, Repr

namespace Timer

def arm (timer : Timer) : TimerToken × Timer :=
  (timer.armings + 1, ⟨timer.armings + 1, some (timer.armings + 1)⟩)

def cancel (timer : Timer) : Option TimerToken × Timer := (timer.armed, { timer with armed := none })

def fire? (timer : Timer) (token : TimerToken) : Option Timer :=
  if timer.armed = some token then some { timer with armed := none } else none

end Timer
end Playback
end BranchingStory
