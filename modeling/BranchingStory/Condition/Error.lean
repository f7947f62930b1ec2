import BranchingStory.Condition.Token

/-!
What can be wrong with a condition, in its text, in its grammar or in its evaluation.
-/

namespace BranchingStory.Condition

def deepestNesting : Nat := 64

def mostOperators : Nat := 256

inductive Nothing
  | undefined
  | null
  deriving DecidableEq, Repr

inductive Error
  | empty
  | unexpectedCharacter (found : Char) (offset : Nat)
  | unterminatedText (offset : Nat)
  | invalidNumber (literal : String) (offset : Nat)
  | unexpectedToken (found : Placed)
  | unexpectedEnd
  | tooDeep
  | tooLong
  | unknownName (name : String)
  | memberOfNothing (property : String) (target : Nothing)

def Nothing.word : Nothing → String
  | .undefined => "undefined"
  | .null => "null"

def Error.message : Error → String
  | .empty => "Condition is empty"
  | .unexpectedCharacter found offset =>
      "Unexpected character '" ++ String.singleton found ++ s!"' at offset {offset}"
  | .unterminatedText offset => s!"Unterminated string starting at offset {offset}"
  | .invalidNumber literal offset => "Invalid number '" ++ literal ++ s!"' at offset {offset}"
  | .unexpectedToken ⟨token, offset⟩ =>
      "Unexpected " ++ token.describe ++ s!" at offset {offset}"
  | .unexpectedEnd => "Unexpected end of condition"
  | .tooDeep => s!"Condition nests deeper than {deepestNesting} levels"
  | .tooLong => s!"Condition has more than {mostOperators} operators"
  | .unknownName name => "'" ++ name ++ "' is not defined"
  | .memberOfNothing property target =>
      "Cannot read property '" ++ property ++ "' of " ++ target.word

end BranchingStory.Condition
