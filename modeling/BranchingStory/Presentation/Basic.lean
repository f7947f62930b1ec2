import BranchingStory.Playback.Instruction

/-!
Presentations carry out the instructions of playback. Each instruction can fail without stopping those after
it.
-/

namespace BranchingStory

namespace Presentation

inductive Error
  | missingTarget (target : String)
  | other (message : String)
  deriving DecidableEq, Repr

def Error.message : Error → String
  | .missingTarget target => "Presentation target '" ++ target ++ "' is missing"
  | .other message => "Presentation failed: " ++ message

end Presentation

structure Presentation (π : Type) where
  render : π → Playback.Instruction → Except Presentation.Error Unit × π

namespace Presentation

def dispatch {π : Type} (presentation : Presentation π) :
    π → List Playback.Instruction → π × List Error
  | display, [] => (display, [])
  | display, instruction :: rest =>
      match presentation.render display instruction with
      | (.ok (), display) => presentation.dispatch display rest
      | (.error cause, display) =>
          let (display, failures) := presentation.dispatch display rest
          (display, cause :: failures)

end Presentation
end BranchingStory
