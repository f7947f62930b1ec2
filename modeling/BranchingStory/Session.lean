import BranchingStory.Loading.Story
import BranchingStory.Playback.Machine
import BranchingStory.Presentation.Basic
import BranchingStory.Save.Deeds

/-!
A playthrough: a loaded story, the save, playback and a presentation, tied together. Only affection and
unlocks outlive it.
-/

namespace BranchingStory

open Playback (Wait Rejection Outcome Event Options)

structure Session (σ π : Type) where
  playback : Playback
  saved : σ
  display : π
  announced : Bool := false

namespace Session

structure Setting (σ π : Type) where
  backend : Save.Backend σ
  presentation : Presentation π
  clock : Nat → Instant

inductive Error
  | load (cause : Loading.Error)
  | save (cause : Save.Error)
  | playback (cause : Rejection)
  /-- Instructions failed. Playback has gone on and waits. -/
  | presentation (wait : Wait) (failures : List Presentation.Error)

def Error.message : Error → String
  | .load cause => cause.message
  | .save cause => cause.message
  | .playback cause => cause.message
  | .presentation _ failures => s!"{failures.length} presentation operation(s) failed"

def Error.explanation (error : Error) : String :=
  match error with
  | .save (.io _ reason) => error.message ++ ": " ++ reason
  | _ => error.message

/-- The wait to go on from, if the session is still of use. -/
def Error.wait? : Error → Option Wait
  | .presentation wait _ => some wait
  | _ => none

structure Reply where
  result : Except Error Wait
  traces : List Trace
  announces : Bool := false

variable {σ π : Type} (setting : Setting σ π)

def usualOptions : StoryKind → Options
  | .event => .scene
  | .texting => .texting

def ofStory (saved : σ) (display : π) (story : Loading.LoadedStory) (options : Option Options)
    (assets : AssetBase) : Except Error (Session σ π) :=
  let attempt {α : Type} (result : Except Save.Error α) : Except Error α := result.mapError .save
  do
    let affection ← attempt (setting.backend.loadAffection saved)
    let ledger ← attempt (setting.backend.loadUnlocks saved)
    let autoplay ← attempt (setting.backend.preference saved Save.autoplayKey)
    let teller : Playback.Teller :=
      { options := options.getD (usualOptions story.kind)
        assets
        storyName := story.document.name?
        scope := story.variables affection
        ledger
        autoplay }
    return { playback := .ofStory story.document.story teller, saved, display }

def present (session : Session σ π) (playback : Playback) (reply : Playback.Reply) :
    Session σ π × Reply :=
  let (saved, traces) := setting.backend.performAll session.saved reply.deeds
  match reply.result with
  | .error cause => ({ session with playback, saved }, ⟨.error (.playback cause), traces, false⟩)
  | .ok outcome =>
      let (display, failures) := setting.presentation.dispatch session.display outcome.instructions
      let announces := outcome.isFinished && !session.announced
      let result := match failures with
        | [] => .ok outcome.wait
        | failures => .error (.presentation outcome.wait failures)
      ({ playback, saved, display, announced := session.announced || outcome.isFinished },
        ⟨result, traces, announces⟩)

def start (session : Session σ π) : Session σ π × Reply :=
  let (playback, reply) := session.playback.start setting.clock
  session.present setting playback reply

def handle (session : Session σ π) (event : Event) : Session σ π × Reply :=
  let (playback, reply) := session.playback.handle setting.clock event
  session.present setting playback reply

end Session
end BranchingStory
