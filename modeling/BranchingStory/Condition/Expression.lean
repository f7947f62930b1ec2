import BranchingStory.Condition.Operand
import BranchingStory.Decimal.Remainder

/-!
Expressions and what they come to. Evaluating an expression looks at nothing but the variables that it
names.
-/

namespace BranchingStory.Condition

inductive UnaryOp
  | not
  | negate
  | plus
  deriving DecidableEq, Repr

inductive BinaryOp
  | or
  | and
  | equal
  | identical
  | unequal
  | distinct
  | less
  | atMost
  | greater
  | atLeast
  | add
  | subtract
  | multiply
  | divide
  | remainder
  deriving DecidableEq, Repr

inductive Expression
  | literal (value : Operand)
  | variable (name : String)
  | member (object property : Expression)
  | unary (op : UnaryOp) (operand : Expression)
  | binary (op : BinaryOp) (left right : Expression)

def UnaryOp.apply : UnaryOp → Operand → Operand
  | .not, value => .bool (!value.truthy)
  | .negate, value => .number (-value.toNumber)
  | .plus, value => .number value.toNumber

namespace BinaryOp

def apply (op : BinaryOp) (left right : Operand) : Operand :=
  match op with
  | .or => if left.truthy then left else right
  | .and => if left.truthy then right else left
  | .equal => .bool (left.looselyEqual right)
  | .unequal => .bool (!left.looselyEqual right)
  | .identical => .bool (left.identical right)
  | .distinct => .bool (!left.identical right)
  | .less => .bool (left.compare? right == some .less)
  | .atMost => .bool (left.compare? right == some .less || left.compare? right == some .equal)
  | .greater => .bool (left.compare? right == some .greater)
  | .atLeast => .bool (left.compare? right == some .greater || left.compare? right == some .equal)
  | .add => left.add right
  | .subtract => .number (left.toNumber - right.toNumber)
  | .multiply => .number (left.toNumber * right.toNumber)
  | .divide => .number (left.toNumber / right.toNumber)
  | .remainder => .number (floatRemainder left.toNumber right.toNumber)

def decided (op : BinaryOp) (left : Operand) : Bool :=
  match op with
  | .or => left.truthy
  | .and => !left.truthy
  | _ => false

end BinaryOp

namespace Expression

/-- The value of an expression over the variables. What the left side decides leaves the right side
unevaluated. -/
def eval (scope : Members) : Expression → Except Error Operand
  | .literal value => .ok value
  | .variable name =>
      match scope.get? name with
      | some value => .ok (.ofJson value)
      | none => .error (.unknownName name)
  | .member object property => do
      let object ← object.eval scope
      let property ← property.eval scope
      object.member property.display
  | .unary op operand => do
      let value ← operand.eval scope
      return op.apply value
  | .binary op left right => do
      let left ← left.eval scope
      if op.decided left then return left
      let right ← right.eval scope
      return op.apply left right

end Expression
end BranchingStory.Condition
