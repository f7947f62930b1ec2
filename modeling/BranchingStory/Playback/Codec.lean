import BranchingStory.Playback.Context
import BranchingStory.Playback.Event
import BranchingStory.Story.Codec

/-!
Options, events, waits and instructions as JSON. An instruction names its type and has its fields as arguments.
-/

namespace BranchingStory
namespace Playback

open Json (Draft Fault Decoder)

/-! ## Pacing and options -/

def Pacing.encode (pacing : Pacing) : Json :=
  .object [("perCharacterMs", .ofNat pacing.perCharacter), ("floorMs", .ofNat pacing.least)]

def Pacing.decode : Decoder Pacing := fun levels draft => do
  let field (levels : Nat) (record : Option Nat × Option Nat) (name : String) (value : Draft) :
      Except Fault (Option Nat × Option Nat) := do
    if name = "perCharacterMs" then return (some (← Decoder.word64 levels value), record.2)
    else return (record.1, some (← Decoder.word64 levels value))
  let (perCharacter, least) ←
    Decoder.structured ["perCharacterMs", "floorMs"] field (none, none) levels draft
  return ⟨← Decoder.required perCharacter, ← Decoder.required least⟩

def Mode.word : Mode → String
  | .scene => "scene"
  | .texting => "texting"

def Mode.ofWord? (word : String) : Option Mode :=
  [.scene, .texting].find? fun (mode : Mode) => mode.word == word

def BranchPacing.word : BranchPacing → String
  | .immediate => "immediate"
  | .awaitInputAtRoot => "awaitInputAtRoot"

def BranchPacing.ofWord? (word : String) : Option BranchPacing :=
  [.immediate, .awaitInputAtRoot].find? fun (pacing : BranchPacing) => pacing.word == word

def Options.encode (options : Options) : Json :=
  .object
    [("mode", .string options.mode.word),
     ("pacing", options.pacing.encode),
     ("branchPacing", .string options.branchPacing.word)]

def Options.decode : Decoder Options :=
  let field (levels : Nat) (options : Options) (name : String) (value : Draft) :
      Except Fault Options := do
    if name = "mode" then return { options with mode := ← Decoder.name Mode.ofWord? levels value }
    else if name = "pacing" then return { options with pacing := ← Pacing.decode levels value }
    else
      return { options with branchPacing := ← Decoder.name BranchPacing.ofWord? levels value }
  Decoder.structured ["mode", "pacing", "branchPacing"] field .scene

/-! ## Events -/

def Event.encode : Event → Json
  | .advance => .string "Advance"
  | .timerElapsed token => .object [("TimerElapsed", .object [("token", .ofNat token)])]
  | .choose index => .object [("Choose", .object [("index", .ofNat index)])]

def soleNumber (name : String) : Decoder Nat := fun levels draft => do
  let field (levels : Nat) (_ : Option Nat) (_ : String) (value : Draft) :
      Except Fault (Option Nat) := (Decoder.word64 levels value).map some
  Decoder.required (← Decoder.structured [name] field none levels draft)

def Event.decodeBy (number : String → Decoder Nat) : Decoder Event := Decoder.tagged fun name =>
  if name = "Advance" then some (Decoder.nothing .advance)
  else if name = "TimerElapsed" then
    some (Decoder.something fun levels draft => (number "token" levels draft).map .timerElapsed)
  else if name = "Choose" then
    some (Decoder.something fun levels draft => (number "index" levels draft).map .choose)
  else none

def Event.decode : Decoder Event := Event.decodeBy soleNumber

def Event.ofJson (value : Json) : Except Json.Refusal Event :=
  let member (name : String) : Decoder Nat
    | levels, .object members closed => soleNumber name levels (.object members closed)
    | _, draft => .error draft.mismatch
  Json.decodeValue (Event.decodeBy member) value

/-! ## Instructions -/

def Wait.encode : Wait → Json
  | .input => .string "Input"
  | .timer token delay =>
      .object [("Timer", .object [("token", .ofNat token), ("delayMs", .ofNat delay)])]
  | .choice => .string "Choice"
  | .ended => .string "Ended"

def Status.word : Status → String
  | .idle => "Idle"
  | .running => "Running"
  | .awaitingInput => "AwaitingInput"
  | .awaitingTimer => "AwaitingTimer"
  | .awaitingChoice => "AwaitingChoice"
  | .ended => "Ended"

def Peek.encode (peek : Peek) : Json :=
  .object
    [("depth", .ofNat peek.depth), ("nextCharacter", .ofText? peek.speaker),
      ("nextDialogue", .ofText? peek.line)]

def ChoiceView.encode (view : ChoiceView) : Json :=
  .object [("index", .ofNat view.index), ("text", .string view.text)]

def ChoiceView.decode : Decoder ChoiceView := fun levels draft => do
  let field (levels : Nat) (record : Option Nat × Option String) (name : String) (value : Draft) :
      Except Fault (Option Nat × Option String) := do
    if name = "index" then return (some (← Decoder.word64 levels value), record.2)
    else return (record.1, some (← Decoder.text levels value))
  let (index, text) ← Decoder.structured ["index", "text"] field (none, none) levels draft
  return ⟨← Decoder.required index, ← Decoder.required text⟩

def Instruction.parts : Instruction → String × Option (List (String × Json))
  | .setTitle title => ("setTitle", some [("title", .string title)])
  | .showBackground key path =>
      ("showBackground", some [("key", .string key), ("path", .string path)])
  | .showCharacter name image position =>
      ("showCharacter", some
        [("name", .string name), ("image", .string image), ("position", .string position.word)])
  | .exitCharacter name => ("exitCharacter", some [("name", .string name)])
  | .showDialogue text speaker position color avatar =>
      ("showDialogue", some
        [("text", .string text), ("speaker", .ofText? speaker), ("position", .string position.word),
         ("color", .ofText? color), ("avatar", .ofText? avatar)])
  | .playSfx key path => ("playSfx", some [("key", .string key), ("path", .string path)])
  | .playVfx key => ("playVfx", some [("key", .string key)])
  | .showChoices choices =>
      ("showChoices", some [("choices", .array (choices.map ChoiceView.encode))])
  | .choiceSelected index text =>
      ("choiceSelected", some [("index", .ofNat index), ("text", .string text)])
  | .showToast text => ("showToast", some [("text", .string text)])
  | .showTypingIndicator fromPlayer =>
      ("showTypingIndicator", some [("from_player", .bool fromPlayer)])
  | .hideTypingIndicator => ("hideTypingIndicator", none)
  | .endStory => ("endStory", none)

def Instruction.encode (instruction : Instruction) : Json :=
  let (type, arguments) := instruction.parts
  .object (("type", .string type) ::
    match arguments with
    | some arguments => [("args", .object arguments)]
    | none => [])

structure Arguments where
  texts : List (String × String) := []
  position : Option Position := none
  choices : Option (List ChoiceView) := none
  index : Option Nat := none
  fromPlayer : Option Bool := none

namespace Arguments

def optionalTexts : List String := ["speaker", "color", "avatar"]

def take (levels : Nat) (arguments : Arguments) (name : String) (value : Draft) :
    Except Fault Arguments := do
  if name = "position" then
    return { arguments with position := some (← Position.decode levels value) }
  else if name = "choices" then
    return { arguments with choices := some (← Decoder.list ChoiceView.decode levels value) }
  else if name = "index" then
    return { arguments with index := some (← Decoder.word64 levels value) }
  else if name = "from_player" then
    return { arguments with fromPlayer := some (← Decoder.bool levels value) }
  else if optionalTexts.contains name then
    match ← Decoder.optional Decoder.text levels value with
    | some text => return { arguments with texts := (name, text) :: arguments.texts }
    | none => return arguments
  else
    return { arguments with texts := (name, ← Decoder.text levels value) :: arguments.texts }

def text? (arguments : Arguments) (name : String) : Option String := arguments.texts.lookup name

def text (arguments : Arguments) (name : String) : Except Fault String :=
  Decoder.required (arguments.text? name)

end Arguments

def withArguments (names : List String) (finish : Arguments → Except Fault Instruction) :
    Nat → Option Draft → Except Fault Instruction :=
  Decoder.something fun
    | 0, draft => .error draft.tooDeep
    | levels + 1, .object members closed => do
        finish (← Decoder.record names (Arguments.take levels) {} (.object members closed))
    | _, draft => .error draft.mismatch

def Instruction.named (type : String) : Option (Nat → Option Draft → Except Fault Instruction) :=
  if type = "setTitle" then
    some (withArguments ["title"] fun arguments => do return .setTitle (← arguments.text "title"))
  else if type = "showBackground" then
    some (withArguments ["key", "path"] fun arguments => do
      return .showBackground (← arguments.text "key") (← arguments.text "path"))
  else if type = "showCharacter" then
    some (withArguments ["name", "image", "position"] fun arguments => do
      return .showCharacter (← arguments.text "name") (← arguments.text "image")
        (← Decoder.required arguments.position))
  else if type = "exitCharacter" then
    some (withArguments ["name"] fun arguments => do return .exitCharacter (← arguments.text "name"))
  else if type = "showDialogue" then
    some (withArguments ["text", "speaker", "position", "color", "avatar"] fun arguments => do
      return .showDialogue (← arguments.text "text") (arguments.text? "speaker")
        (← Decoder.required arguments.position) (arguments.text? "color") (arguments.text? "avatar"))
  else if type = "playSfx" then
    some (withArguments ["key", "path"] fun arguments => do
      return .playSfx (← arguments.text "key") (← arguments.text "path"))
  else if type = "playVfx" then
    some (withArguments ["key"] fun arguments => do return .playVfx (← arguments.text "key"))
  else if type = "showChoices" then
    some (withArguments ["choices"] fun arguments => do
      return .showChoices (← Decoder.required arguments.choices))
  else if type = "choiceSelected" then
    some (withArguments ["index", "text"] fun arguments => do
      return .choiceSelected (← Decoder.required arguments.index) (← arguments.text "text"))
  else if type = "showToast" then
    some (withArguments ["text"] fun arguments => do return .showToast (← arguments.text "text"))
  else if type = "showTypingIndicator" then
    some (withArguments ["from_player"] fun arguments => do
      return .showTypingIndicator (← Decoder.required arguments.fromPlayer))
  else if type = "hideTypingIndicator" then some (Decoder.nothing .hideTypingIndicator)
  else if type = "endStory" then some (Decoder.nothing .endStory)
  else none

inductive Instruction.Progress
  | nothing
  | typed (take : Nat → Option Draft → Except Fault Instruction)
  | waiting (arguments : Draft)
  | whole (instruction : Instruction)

def Instruction.Progress.take (type : Decoder (Nat → Option Draft → Except Fault Instruction))
    (levels : Nat) (progress : Instruction.Progress) (name : String) (value : Draft) :
    Except Fault Instruction.Progress := do
  if name = "type" then
    let take ← type levels value
    match progress with
    | .waiting arguments =>
        return .whole (← (take levels (some arguments)).mapError fun _ => .wrongShape)
    | _ => return .typed take
  else
    match progress with
    | .typed take => return .whole (← take levels (some value))
    | _ =>
        let _ ← value.read levels
        return .waiting value

/-- An object with the type and the arguments in any order, or an array of the two, where the type is a bare
name. -/
def Instruction.decode : Decoder Instruction := fun levels draft => do
  let type := match draft with
    | .array .. => Decoder.bareName Instruction.named
    | _ => Decoder.name Instruction.named
  let progress ←
    Decoder.structured ["type", "args"] (Instruction.Progress.take type) .nothing levels draft
  match progress, draft with
  | .whole instruction, _ => return instruction
  | .typed take, .object .. => take levels none
  | _, _ => throw .wrongShape

end Playback
end BranchingStory
