import BranchingStory.Catalog
import BranchingStory.Json.Basic

/-!
Entries, of which stories are made. An entry shows a line, moves a character, offers choices, records
unlocks, or leads into a sub-story under a condition.
-/

namespace BranchingStory

inductive Position
  | left
  | right
  | center
  | exit
  deriving DecidableEq, Repr

/-- What a choice does to the variables. Under the reserved name `affection` it lists changes of levels by
character; any other name is given a new value. -/
structure Effects where
  members : Members

def affectionName : String := "affection"

structure Choice where
  text : String
  effects : Option Effects := none
  toast : Option String := none

/-- Unlocks by category. The values of a category are the unlocked ids; their keys carry no meaning. -/
abbrev Unlocks := Catalog String Members

mutual

structure Branch where
  condition : String
  story : List Entry

structure Entry where
  character : Option String
  state : Option String
  outfit : Option String
  position : Option Position
  background : Option String
  dialogue : Option String
  sfx : Option String
  vfx : Option String
  responses : Option (List Choice)
  branch : Option Branch
  unlocks : Option Unlocks

end

abbrev Story := List Entry

namespace Position

def word : Position → String
  | .left => "left"
  | .right => "right"
  | .center => "center"
  | .exit => "exit"

/-- Any word that names no other position means the center. -/
def ofWord (word : String) : Position :=
  if word = "left" then .left
  else if word = "right" then .right
  else if word = "exit" then .exit
  else .center

theorem ofWord_word (position : Position) : ofWord position.word = position := by
  cases position <;> decide

end Position

def present (text : Option String) : Option String := text.filter (· ≠ "")

namespace Entry

def blank : Entry :=
  { character := none, state := none, outfit := none, position := none, background := none
    dialogue := none, sfx := none, vfx := none, responses := none, branch := none, unlocks := none }

instance : Inhabited Entry := ⟨blank⟩

def line (speaker : Option String) (text : String) : Entry :=
  { blank with character := speaker, dialogue := some text }

def speaker? (entry : Entry) : Option String := present entry.character

def line? (entry : Entry) : Option String := present entry.dialogue

def background? (entry : Entry) : Option String := present entry.background

def sfx? (entry : Entry) : Option String := present entry.sfx

def vfx? (entry : Entry) : Option String := present entry.vfx

def choices (entry : Entry) : List Choice := entry.responses.getD []

def placement (entry : Entry) : Position := entry.position.getD .center

def unlocked (entry : Entry) : Unlocks := entry.unlocks.getD .empty

end Entry

mutual

/-- The number of entries that telling an entry may pass through. -/
def Entry.weight : Entry → Nat
  | ⟨_, _, _, _, _, _, _, _, _, none, _⟩ => 1
  | ⟨_, _, _, _, _, _, _, _, _, some branch, _⟩ => 1 + branch.weight

def Branch.weight : Branch → Nat
  | ⟨_, story⟩ => storyWeight story

def storyWeight : List Entry → Nat
  | [] => 0
  | entry :: rest => entry.weight + storyWeight rest

end

theorem Entry.weight_of_branch {entry : Entry} {branch : Branch} (found : entry.branch = some branch) :
    entry.weight = 1 + storyWeight branch.story := by
  obtain ⟨⟩ := entry
  subst found
  simp only [Entry.weight]
  obtain ⟨⟩ := branch
  rfl

theorem Entry.weight_pos (entry : Entry) : 0 < entry.weight := by
  cases found : entry.branch with
  | none =>
      obtain ⟨⟩ := entry
      subst found
      simp [Entry.weight]
  | some branch => rw [Entry.weight_of_branch found]; omega

namespace Effects

def empty : Effects := ⟨[]⟩

def ofJson : Json → Effects
  | .object members => ⟨members⟩
  | _ => empty

def isEmpty (effects : Effects) : Bool := effects.members.isEmpty

def affected (effects : Effects) : List String :=
  match effects.members.get? affectionName with
  | some (.object changes) => changes.map (·.1)
  | _ => []

end Effects

namespace Choice

def replaceFirst (placeholder replacement : List Char) : List Char → List Char
  | [] => if placeholder.isEmpty then replacement else []
  | c :: rest =>
      if placeholder.isPrefixOf (c :: rest) then
        replacement ++ (c :: rest).drop placeholder.length
      else c :: replaceFirst placeholder replacement rest

def placeholder : List Char := ['\x7b', '\x7b', 'c', 'h', 'a', 'r', '\x7d', '\x7d']

def naming : List String → String
  | [one] => one
  | [first, second] => first ++ " and " ++ second
  | _ => "They"

def toastText? (choice : Choice) : Option String :=
  (present choice.toast).map fun toast =>
    let names := match choice.effects with
      | some effects => effects.affected
      | none => []
    String.ofList (replaceFirst placeholder (naming names).toList toast.toList)

end Choice
end BranchingStory
