import BranchingStory.Asset
import BranchingStory.Condition.Judgement
import BranchingStory.Playback.Context
import BranchingStory.Playback.Event
import BranchingStory.Unlock.Ledger
import BranchingStory.Variables

/-!
The parts of a step of playback. A step gathers instructions for the presentation and deeds for the save and
the traces; neither of them has a say in how playback goes on.
-/

namespace BranchingStory
namespace Playback

def applicationTitle : String := "Tokimeki"

/-- Everything about playback but its place in the story. -/
structure Teller where
  options : Options := .scene
  assets : AssetBase := {}
  storyName : Option String := none
  scope : Variables := .start
  ledger : Ledger := .empty
  autoplay : Bool := false
  status : Status := .idle
  wait : Wait := .input
  timer : Timer := {}
  pending : List Choice := []
  typing : Bool := false
  readings : Nat := 0

inductive Deed
  | trace (trace : Trace)
  | keepEffects (consequences : List Variables.Consequence)
  | keepUnlocks (ledger : Ledger)

structure Step where
  teller : Teller
  instructions : List Instruction := []
  deeds : List Deed := []

namespace Teller

def inScene (teller : Teller) : Bool := teller.options.mode = .scene

def scenery (teller : Teller) (entry : Entry) : List Instruction :=
  match teller.inScene, entry.background? with
  | true, some key => [.showBackground key (teller.assets.background key)]
  | _, _ => []

def sprite (teller : Teller) (entry : Entry) (name : String) : Instruction :=
  match entry.placement with
  | .exit => .exitCharacter name
  | position => .showCharacter name (teller.assets.character name entry.outfit entry.state) position

def dialogue (teller : Teller) (entry : Entry) (line : String) : Instruction :=
  let speaker := entry.speaker?
  .showDialogue line speaker entry.placement
    (speaker.bind teller.scope.speakerColor?)
    (if teller.inScene then none else speaker.map teller.assets.avatar)

def staging (teller : Teller) (entry : Entry) : List Instruction :=
  let inScene (value : Option String) : Option String := if teller.inScene then value else none
  ((inScene entry.speaker?).map (teller.sprite entry)).toList ++
    (entry.line?.map (teller.dialogue entry)).toList ++
    ((inScene entry.sfx?).map fun key => .playSfx key (teller.assets.sfx key)).toList ++
    ((inScene entry.vfx?).map .playVfx).toList

/-- Whether a line with such an entry next is followed by itself. -/
def goesOn (teller : Teller) (next : Option Peek) : Bool :=
  teller.autoplay && (!teller.inScene || next.isSome)

end Teller

namespace Step

def emit (step : Step) (instructions : List Instruction) : Step :=
  { step with instructions := step.instructions ++ instructions }

def leave (step : Step) (deed : Deed) : Step := { step with deeds := step.deeds ++ [deed] }

def trace (step : Step) (category : Trace.Category) (message : String) (data : Json) : Step :=
  step.leave (.trace { category, message, data })

def exhaust (step : Step) (depth : Nat) : Step :=
  step.trace .flow "Context exhausted" (.object [("depth", .ofNat depth)])

def underWay (step : Step) : Step := { step with teller := { step.teller with status := .running } }

def suspend (step : Step) (wait : Wait) : Step :=
  { step with teller := { step.teller with status := wait.status, wait } }

def hideTyping (step : Step) : Step :=
  if step.teller.typing then
    { step with teller := { step.teller with typing := false } }.emit [.hideTypingIndicator]
  else step

/-- Takes the unlocks of an entry into the ledger. They are to be saved if one of them is new. -/
def unlock (step : Step) (clock : Nat → Instant) (entry : Entry) : Step :=
  let unlocks := entry.unlocked
  if unlocks.isEmpty then step
  else
    let teller := step.teller
    let (ledger, changed) := teller.ledger.commit unlocks (clock teller.readings)
    let after := { step with teller := { teller with ledger, readings := teller.readings + 1 } }
    if changed then
      (after.trace .storage "Saving unlocks"
        (.object [("categories", .array (unlocks.keys.map .string))])).leave (.keepUnlocks ledger)
    else after

def reach (step : Step) (clock : Nat → Instant) (entry : Entry) : Step :=
  let step := step.unlock clock entry
  step.emit (step.teller.scenery entry)

def stage (step : Step) (entry : Entry) : Step := step.emit (step.teller.staging entry)

def judge (step : Step) (branch : Branch) (depth : Nat) : Bool × Step :=
  let (taken, traces) := Condition.judge branch.condition step.teller.scope.bindings
  let step := { step with deeds := step.deeds ++ traces.map Deed.trace }
  (taken, step.trace .flow (if taken then "Branch taken" else "Branch skipped")
    (.object [("condition", .string branch.condition), ("depth", .ofNat depth)]))

def offer (step : Step) (choices : List Choice) : Step :=
  (({ step with teller := { step.teller with pending := choices } }).emit
    [.showChoices (choiceViews choices)]).suspend .choice

def showTyping (step : Step) (next : Option Peek) : Step :=
  match step.teller.options.mode, next with
  | .texting, some next =>
      { step with teller := { step.teller with typing := true } }.emit
        [.showTypingIndicator next.speaker.isNone]
  | _, _ => step

def rest (step : Step) (line : String) (next : Option Peek) : Step :=
  let step := step.showTyping next
  if step.teller.goesOn next then
    let (token, timer) := step.teller.timer.arm
    let delay := step.teller.options.pacing.delay line
    (({ step with teller := { step.teller with timer } }).trace .engine "Armed autoplay timer"
      (.object [("token", .ofNat token), ("delayMs", .ofNat delay)])).suspend (.timer token delay)
  else step.suspend .input

def pause? (step : Step) (entry : Entry) (next : Option Peek) : Option Step :=
  match entry.choices with
  | [] => entry.line?.map fun line => step.rest line next
  | choices => some (step.offer choices)

def finish (step : Step) : Step :=
  let (_, timer) := step.teller.timer.cancel
  let step := { step with teller := { step.teller with timer } }.hideTyping
  ((step.emit [.setTitle applicationTitle, .endStory]).trace .engine "Story ended" .null).suspend .ended

end Step
end Playback
end BranchingStory
