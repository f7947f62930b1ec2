import BranchingStory.Condition.Reader
import BranchingStory.Trace.Basic

/-!
What a branch makes of its condition.
-/

namespace BranchingStory.Condition

/-- Whether a branch is taken. A condition that is wrong or cannot be evaluated keeps it closed, and a
trace says why. -/
def judge (source : String) (scope : Members) : Bool × List Trace :=
  match holds? source scope with
  | .ok holds => (holds, [])
  | .error cause =>
      (false,
        [{ category := .conditions
           message := "Condition evaluation failed"
           data := .object [("condition", .string source), ("error", .string cause.message)] }])

end BranchingStory.Condition
