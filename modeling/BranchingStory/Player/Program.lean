import BranchingStory.Loading.Folder
import BranchingStory.Player.Arguments
import BranchingStory.Player.Basic
import BranchingStory.Save.Folder

/-!
The program around the player: what a command line asks for, how a playthrough is set up, and a whole run on
files and lines that are given beforehand.
-/

namespace BranchingStory
namespace Player

open Files (Disk)
open Loading (Fetch)

def usage : List String :=
  ["tokimeki - Branching story player",
   "",
   "USAGE:",
   "    tokimeki play <game-dir> <story.json> [OPTIONS]",
   "",
   "COMMANDS:",
   "    play <game-dir> <story>    Play a story from the game directory",
   "    --help, -h                 Show this help message",
   "",
   "OPTIONS:",
   "    --texting             Load from scripts/texting and play as a chat",
   "    --autoplay            Turn on autoplay (remembered in the save directory)",
   "    --debug               Trace the interpreter to stderr",
   "    --save-dir <dir>      Where progress is kept (default: <game-dir>/save)",
   "",
   "ENVIRONMENT:",
   "    TOKIMEKI_DEBUG=1      Same as --debug",
   "",
   "EXAMPLES:",
   "    tokimeki play game first_date.json",
   "    tokimeki play game alice_chat.json --texting --autoplay"]

def debugVariable : String := "TOKIMEKI_DEBUG"

structure Ending where
  code : Nat
  transcript : Transcript

def refuse (reason : String) : Ending := ⟨1, ⟨usage.toArray, #["Error: " ++ reason, ""]⟩⟩

def request : List String → Except Ending Arguments
  | [] => .error ⟨1, ⟨usage.toArray, #[]⟩⟩
  | command :: rest =>
      if command = "play" then (Arguments.ofList rest).mapError fun fault => refuse fault.message
      else if command = "--help" ∨ command = "-h" then .error ⟨0, ⟨usage.toArray, #[]⟩⟩
      else .error (refuse ("Unknown command '" ++ command ++ "'"))

def failed (transcript : Transcript) (cause : Session.Error) : Ending :=
  ⟨1, transcript.complain ["Error: Player mode failed", "Reason: " ++ cause.explanation]⟩

def ending {σ : Type} (player : Player σ) : Ending :=
  match player.status with
  | .failed cause => failed player.transcript cause
  | _ => ⟨0, player.transcript⟩

namespace Arguments

def mode (arguments : Arguments) : Playback.Mode := (Session.usualOptions arguments.kind).mode

def tracing (arguments : Arguments) (environment : Option String) : Trace.Config :=
  if arguments.debug then { Trace.Config.on with output := .standardError }
  else Trace.Config.ofEnvironment environment

def prepare {σ : Type} (arguments : Arguments) (backend : Save.Backend σ) (saved : σ) :
    Except Session.Error Unit × σ :=
  if arguments.autoplay then
    let (result, saved) := backend.setPreference saved Save.autoplayKey true
    (result.mapError .save, saved)
  else (.ok (), saved)

def openSession {m : Type → Type} [Monad m] {σ : Type} (arguments : Arguments) (setting : Setting σ)
    (fetch : Fetch m) (saved : σ) : m (Except Session.Error (Session σ (Terminal Transcript))) := do
  match ← (Loading.load fetch {} arguments.kind arguments.story).run with
  | .error cause => return .error (.load cause)
  | .ok story =>
      return Session.ofStory setting.session saved { mode := arguments.mode, screen := {} } story none
        ⟨arguments.gameDirectory⟩

end Arguments

structure Machine where
  disk : Disk
  environment : Option String
  clock : Nat → Instant
  input : String

/-- A whole run; gives the ending and the disk after it. -/
def run (machine : Machine) (commandLine : List String) : Ending × Disk :=
  match request commandLine with
  | .error ending => (ending, machine.disk)
  | .ok arguments =>
      let backend := Save.folder arguments.saveDirectory
      let setting : Setting Disk :=
        { backend, clock := machine.clock, tracing := arguments.tracing machine.environment }
      let (prepared, disk) := arguments.prepare backend machine.disk
      match prepared with
      | .error cause => (failed {} cause, disk)
      | .ok () =>
          match Id.run (arguments.openSession setting
            (Loading.fetchFrom disk arguments.gameDirectory) disk) with
          | .error cause => (failed {} cause, disk)
          | .ok session =>
              let signals := (linesOf machine.input).map Signal.line ++ [.closed]
              let player := signals.foldl (step setting) (start setting session)
              (ending player, player.session.saved)

end Player
end BranchingStory
