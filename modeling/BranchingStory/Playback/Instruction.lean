import BranchingStory.Story.Entry

/-!
What playback asks of a presentation.
-/

namespace BranchingStory
namespace Playback

structure ChoiceView where
  index : Nat
  text : String
  deriving DecidableEq, Repr

inductive Instruction
  | setTitle (title : String)
  | showBackground (key path : String)
  | showCharacter (name image : String) (position : Position)
  | exitCharacter (name : String)
  | showDialogue (text : String) (speaker : Option String) (position : Position)
      (color avatar : Option String)
  | playSfx (key path : String)
  | playVfx (key : String)
  | showChoices (choices : List ChoiceView)
  | choiceSelected (index : Nat) (text : String)
  | showToast (text : String)
  | showTypingIndicator (fromPlayer : Bool)
  | hideTypingIndicator
  | endStory
  deriving DecidableEq, Repr

def Instruction.tag : Instruction → String
  | .setTitle .. => "set_title"
  | .showBackground .. => "show_background"
  | .showCharacter .. => "show_character"
  | .exitCharacter .. => "exit_character"
  | .showDialogue .. => "show_dialogue"
  | .playSfx .. => "play_sfx"
  | .playVfx .. => "play_vfx"
  | .showChoices .. => "show_choices"
  | .choiceSelected .. => "choice_selected"
  | .showToast .. => "show_toast"
  | .showTypingIndicator .. => "show_typing_indicator"
  | .hideTypingIndicator => "hide_typing_indicator"
  | .endStory => "end_story"

def choiceViews (choices : List Choice) : List ChoiceView :=
  choices.zipIdx.map fun (choice, index) => ⟨index, choice.text⟩

end Playback
end BranchingStory
