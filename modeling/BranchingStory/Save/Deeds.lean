import BranchingStory.Playback.Step
import BranchingStory.Save.Basic

/-!
Doing what a step of playback has left to be done. Failures are traced and change nothing else.
-/

namespace BranchingStory
namespace Save

open Playback (Deed)

def failureTrace (message : String) (cause : Error) : Trace :=
  { category := .storage, message, data := .object [("error", .string cause.message)] }

namespace Backend

variable {σ : Type} (backend : Backend σ)

def perform (saved : σ) : Deed → σ × List Trace
  | .trace trace => (saved, [trace])
  | .keepEffects consequences =>
      let kept := backend.keep saved consequences
      (kept.saved, (kept.failure.map (failureTrace "Failed to persist choice effects")).toList)
  | .keepUnlocks ledger =>
      match backend.saveUnlocks saved ledger with
      | (.ok (), saved) => (saved, [])
      | (.error cause, saved) => (saved, [failureTrace "Failed to persist unlocks" cause])

def performAll : σ → List Deed → σ × List Trace
  | saved, [] => (saved, [])
  | saved, deed :: rest =>
      let (saved, first) := backend.perform saved deed
      let (saved, more) := performAll saved rest
      (saved, first ++ more)

end Backend
end Save
end BranchingStory
