import BranchingStory.Decimal.Index
import BranchingStory.Text.Blank
import BranchingStory.Text.Split

/-!
What the player types: a line to go on, the number of a choice, or a q to leave.
-/

namespace BranchingStory
namespace Player

inductive Command
  | goOn
  | pick (number : Nat)
  | quit
  deriving DecidableEq, Repr

/-- Blanks around the line do not count. A line that is neither a q nor a number goes on. -/
def Command.ofLine (line : String) : Command :=
  let text := trimBlanks line.toList
  if text = ['q'] ∨ text = ['Q'] then .quit
  else
    match index? (String.ofList text) with
    | some number => .pick number
    | none => .goOn

/-- The lines of an input. What follows the last newline is a line unless it is empty. -/
def linesOf (input : String) : List String :=
  let parts := pieces (· = '\n') input.toList
  (match parts.getLast? with
    | some [] => parts.dropLast
    | _ => parts).map String.ofList

end Player
end BranchingStory
