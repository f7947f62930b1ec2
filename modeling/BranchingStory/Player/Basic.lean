import BranchingStory.Player.Command
import BranchingStory.Presentation.Terminal
import BranchingStory.Session
import BranchingStory.Trace.Config

/-!
A playthrough in the terminal. Lines advance it or pick a choice, autoplay advances it by itself, and it is over
when the story ends, the player leaves or the lines run out.
-/

namespace BranchingStory

open Playback (Wait)

structure Transcript where
  output : Array String := #[]
  errors : Array String := #[]

namespace Transcript

def say (transcript : Transcript) (lines : List String) : Transcript :=
  { transcript with output := transcript.output ++ lines }

def complain (transcript : Transcript) (lines : List String) : Transcript :=
  { transcript with errors := transcript.errors ++ lines }

def printer : LinePrinter Transcript := fun transcript line => (.ok (), transcript.say [line])

end Transcript

inductive Player.Status
  | waiting (wait : Wait)
  | done
  | failed (cause : Session.Error)

structure Player (σ : Type) where
  session : Session σ (Terminal Transcript)
  status : Player.Status

namespace Player

inductive Signal
  | line (text : String)
  | closed
  | elapsed

structure Setting (σ : Type) where
  backend : Save.Backend σ
  clock : Nat → Instant
  tracing : Trace.Config
  printer : LinePrinter Transcript := Transcript.printer

variable {σ : Type} (setting : Setting σ)

def Setting.session : Session.Setting σ (Terminal Transcript) :=
  { backend := setting.backend
    presentation := Terminal.presentation setting.printer
    clock := setting.clock }

def transcript (player : Player σ) : Transcript := player.session.display.screen

def write (player : Player σ) (change : Transcript → Transcript) : Player σ :=
  let display := player.session.display
  { player with session := { player.session with display := { display with screen := change display.screen } } }

/-- Prints lines of the player itself. They are taken to be printed always: where the terminal does not take them, the
program stops at once, and nothing more is asked of the session. Only the printer that renders instructions fails. -/
def say (player : Player σ) (lines : List String) : Player σ := player.write (·.say lines)

/-- Prints errors and traces, with the same proviso. -/
def complain (player : Player σ) (lines : List String) : Player σ := player.write (·.complain lines)

def await (player : Player σ) : Wait → Player σ
  | .ended => { player with status := .done }.say ["=== The End ==="]
  | wait => { player with status := .waiting wait }

/-- Takes in what came of a call. Failed instructions are reported, and the playthrough goes on. -/
def settle (player : Player σ) : Session σ (Terminal Transcript) × Session.Reply → Player σ
  | (session, reply) =>
      let player := { player with session }.complain (setting.tracing.lines .standardError reply.traces)
      match reply.result with
      | .ok wait => player.await wait
      | .error (.presentation wait failures) =>
          (player.complain (failures.map fun failure => "Warning: " ++ failure.message)).await wait
      | .error cause => { player with status := .failed cause }

def handle (player : Player σ) (event : Playback.Event) : Player σ :=
  player.settle setting (player.session.handle setting.session event)

def pick (player : Player σ) (number : Nat) : Player σ :=
  let count := player.session.playback.teller.pending.length
  if 1 ≤ number ∧ number ≤ count then player.handle setting (.choose (number - 1))
  else player.say [s!"Enter a number from 1 to {count}"]

def obey (player : Player σ) (wait : Wait) : Command → Player σ
  | .quit => { player with status := .done }
  | command =>
      match wait, command with
      | .choice, .pick number => player.pick setting number
      | .choice, _ => player.pick setting 0
      | _, _ => player.handle setting .advance

def step (player : Player σ) (signal : Signal) : Player σ :=
  match player.status with
  | .done | .failed _ => player
  | .waiting wait =>
      match signal, wait with
      | .line text, _ => player.obey setting wait (Command.ofLine text)
      | .closed, _ => { player with status := .done }
      | .elapsed, .timer token _ => player.handle setting (.timerElapsed token)
      | .elapsed, _ => player

def greeting : List String :=
  ["\x1b[2J\x1b[HControls:", "  Enter: next", "  1-9:   select choice", "  q:     quit", ""]

def start (session : Session σ (Terminal Transcript)) : Player σ :=
  let player := say { session, status := .done } greeting
  player.settle setting (player.session.start setting.session)

end Player
end BranchingStory
