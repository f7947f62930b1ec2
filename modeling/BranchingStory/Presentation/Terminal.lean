import BranchingStory.Playback.Pacing
import BranchingStory.Presentation.Basic

/-!
The terminal as a presentation. It keeps track of who is on stage, so that only changes are printed.
-/

namespace BranchingStory

open Playback (Instruction ChoiceView Mode)

structure Sprite where
  image : String
  position : Position
  deriving DecidableEq, Repr

abbrev LinePrinter (ω : Type) := ω → String → Except String Unit × ω

structure Terminal (ω : Type) where
  mode : Mode
  screen : ω
  stage : Catalog String Sprite := .empty
  background : Option String := none

namespace Terminal

variable {ω : Type}

def messageWidth : Nat := 40

def padLeft (width : Nat) (text : String) : String :=
  String.ofList (List.replicate (width - text.toList.length) ' ') ++ text

def dialogueText (mode : Mode) (speaker : Option String) (line : String) : String :=
  match mode, speaker with
  | .scene, some name => name ++ ": " ++ line
  | .scene, none => line
  | .texting, some name => "[" ++ name ++ "] " ++ line
  | .texting, none => padLeft messageWidth (line ++ " [you]")

def entranceText (name : String) (before : Option Sprite) (now : Sprite) : Option String :=
  match before with
  | none => some ("[" ++ name ++ " enters (" ++ now.position.word ++ ")]")
  | some before =>
      if before.position ≠ now.position then some ("[" ++ name ++ " moves " ++ now.position.word ++ "]")
      else if before.image ≠ now.image then some ("[" ++ name ++ ": " ++ now.image ++ "]")
      else none

def track (terminal : Terminal ω) : Instruction → Terminal ω
  | .showBackground key _ => { terminal with background := some key }
  | .showCharacter name image position =>
      { terminal with stage := terminal.stage.insert name ⟨image, position⟩ }
  | .exitCharacter name => { terminal with stage := terminal.stage.erase name }
  | .endStory => { terminal with stage := .empty, background := none }
  | _ => terminal

def linesFor (terminal : Terminal ω) : Instruction → List String
  | .setTitle title => ["=== " ++ title ++ " ==="]
  | .showBackground key _ =>
      if terminal.background = some key then [] else ["[Background: " ++ key ++ "]"]
  | .showCharacter name image position =>
      (entranceText name (terminal.stage.get? name) ⟨image, position⟩).toList
  | .exitCharacter name =>
      if terminal.stage.contains name then ["[" ++ name ++ " leaves]"] else []
  | .showDialogue line speaker _ _ _ => [dialogueText terminal.mode speaker line]
  | .playSfx key _ => ["[Sound: " ++ key ++ "]"]
  | .playVfx key => ["[Effect: " ++ key ++ "]"]
  | .showChoices choices =>
      "" :: choices.map fun view => s!"  {view.index + 1}) " ++ view.text
  | .choiceSelected _ text => ["> " ++ text]
  | .showToast text => ["* " ++ text ++ " *"]
  | .showTypingIndicator fromPlayer =>
      ["  ... (" ++ (if fromPlayer then "you" else "they") ++ " typing)"]
  | .hideTypingIndicator => []
  | .endStory => [""]

def printLines (printer : LinePrinter ω) : ω → List String → Except String Unit × ω
  | screen, [] => (.ok (), screen)
  | screen, line :: rest =>
      match printer screen line with
      | (.ok (), screen) => printLines printer screen rest
      | (.error cause, screen) => (.error cause, screen)

/-- The stage changes even if the lines cannot be printed. -/
def render (printer : LinePrinter ω) (terminal : Terminal ω) (instruction : Instruction) :
    Except Presentation.Error Unit × Terminal ω :=
  let (result, screen) := printLines printer terminal.screen (terminal.linesFor instruction)
  (result.mapError fun cause => .other ("terminal write failed: " ++ cause),
    { terminal.track instruction with screen })

def presentation (printer : LinePrinter ω) : Presentation (Terminal ω) := ⟨render printer⟩

def onStage (terminal : Terminal ω) : List String := terminal.stage.keys

end Terminal
end BranchingStory
