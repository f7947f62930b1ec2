import BranchingStory.Condition.Expression
import BranchingStory.Condition.Lexer

/-!
Reading expressions. Operators of one level are grouped from the left and operators of a higher level bind
tighter. Every operator and every member access is counted against an allowance; signs, parentheses and
brackets are counted against the depth.
-/

namespace BranchingStory.Condition

structure Remaining where
  tokens : List Placed
  allowance : Nat

abbrev Reader := Remaining → Except Error (Expression × Remaining)

namespace UnaryOp

def mark : UnaryOp → Mark
  | .not => .not
  | .negate => .minus
  | .plus => .plus

def ofMark? : Mark → Option UnaryOp
  | .not => some .not
  | .minus => some .negate
  | .plus => some .plus
  | _ => none

theorem ofMark?_eq_some_iff {sign : Mark} {op : UnaryOp} : ofMark? sign = some op ↔ sign = op.mark := by
  cases sign <;> cases op <;> simp [ofMark?, mark]

end UnaryOp

namespace BinaryOp

def mark : BinaryOp → Mark
  | .or => .or
  | .and => .and
  | .equal => .equal
  | .identical => .identical
  | .unequal => .unequal
  | .distinct => .distinct
  | .less => .less
  | .atMost => .atMost
  | .greater => .greater
  | .atLeast => .atLeast
  | .add => .plus
  | .subtract => .minus
  | .multiply => .times
  | .divide => .slash
  | .remainder => .remainder

def ofMark? : Mark → Option BinaryOp
  | .or => some .or
  | .and => some .and
  | .equal => some .equal
  | .identical => some .identical
  | .unequal => some .unequal
  | .distinct => some .distinct
  | .less => some .less
  | .atMost => some .atMost
  | .greater => some .greater
  | .atLeast => some .atLeast
  | .plus => some .add
  | .minus => some .subtract
  | .times => some .multiply
  | .slash => some .divide
  | .remainder => some .remainder
  | _ => none

theorem ofMark?_eq_some_iff {sign : Mark} {op : BinaryOp} : ofMark? sign = some op ↔ sign = op.mark := by
  cases sign <;> cases op <;> simp [ofMark?, mark]

def level : BinaryOp → Nat
  | .or => 0
  | .and => 1
  | .equal | .identical | .unequal | .distinct => 2
  | .less | .atMost | .greater | .atLeast => 3
  | .add | .subtract => 4
  | .multiply | .divide | .remainder => 5

end BinaryOp

namespace Remaining

def spend (state : Remaining) : Except Error Remaining :=
  match state.allowance with
  | 0 => .error .tooLong
  | allowance + 1 => .ok { state with allowance }

def mark? (state : Remaining) : Option Mark :=
  match state.tokens with
  | ⟨.mark sign, _⟩ :: _ => some sign
  | _ => none

def skip (state : Remaining) : Remaining := { state with tokens := state.tokens.tail }

def next (state : Remaining) : Except Error (Placed × Remaining) :=
  match state.tokens with
  | [] => .error .unexpectedEnd
  | token :: rest => .ok (token, { state with tokens := rest })

def expect (state : Remaining) (sign : Mark) : Except Error Remaining := do
  let (found, rest) ← state.next
  match found.token with
  | .mark other => if other = sign then return rest else throw (.unexpectedToken found)
  | _ => throw (.unexpectedToken found)

end Remaining

/-- Joins operands by the operators of one level, from the left. Every step counts an operator, so there
is at most one step more than the allowance. -/
def joinLevel (level : Nat) (operand : Reader) :
    Nat → Expression → Remaining → Except Error (Expression × Remaining)
  | 0, _, _ => .error .tooLong
  | steps + 1, left, state =>
      match state.mark?.bind BinaryOp.ofMark? with
      | some op =>
          if op.level = level then do
            let state ← state.spend
            let (right, state) ← operand state.skip
            joinLevel level operand steps (.binary op left right) state
          else .ok (left, state)
      | none => .ok (left, state)

def joined (operand : Reader) : Nat → Nat → Reader
  | 0, _ => operand
  | count + 1, level => fun state => do
      let (left, state) ← joined operand count (level + 1) state
      joinLevel level (joined operand count (level + 1)) (state.allowance + 1) left state

def expression (operand : Reader) : Reader := joined operand 6 0

def propertyName (found : Placed) : Except Error String :=
  match found.token with
  | .name name => .ok name
  | .keyword word => .ok word.source
  | _ => .error (.unexpectedToken found)

def primary (inner : Reader) : Reader := fun state => do
  let (found, state) ← state.next
  match found.token with
  | .number value => return (.literal (.number value), state)
  | .text value => return (.literal (.text value), state)
  | .keyword .yes => return (.literal (.bool true), state)
  | .keyword .no => return (.literal (.bool false), state)
  | .keyword .null => return (.literal .null, state)
  | .keyword .undefined => return (.literal .undefined, state)
  | .name name => return (.variable name, state)
  | .mark .openParen => do
      let (value, state) ← inner state
      return (value, ← state.expect .closeParen)
  | .mark _ => throw (.unexpectedToken found)

def accesses (inner : Reader) :
    Nat → Expression → Remaining → Except Error (Expression × Remaining)
  | 0, _, _ => .error .tooLong
  | steps + 1, object, state =>
      match state.mark? with
      | some .dot => do
          let (found, state) ← state.skip.next
          let name ← propertyName found
          let state ← state.spend
          accesses inner steps (.member object (.literal (.text name))) state
      | some .openBracket => do
          let (index, state) ← inner state.skip
          let state ← state.expect .closeBracket
          let state ← state.spend
          accesses inner steps (.member object index) state
      | _ => .ok (object, state)

def accessed (inner : Reader) : Reader := fun state => do
  let (object, state) ← primary inner state
  accesses inner (state.allowance + 1) object state

def operand : Nat → Reader
  | 0 => fun _ => .error .tooDeep
  | depth + 1 => fun state =>
      match state.mark?.bind UnaryOp.ofMark? with
      | some op => do
          let state ← state.spend
          let (value, state) ← operand depth state.skip
          return (.unary op value, state)
      | none => accessed (expression (operand depth)) state

def Expression.ofTokens (tokens : List Placed) : Except Error Expression :=
  match tokens with
  | [] => .error .empty
  | tokens => do
      let (value, state) ← expression (operand deepestNesting) ⟨tokens, mostOperators⟩
      match state.tokens with
      | [] => return value
      | extra :: _ => throw (.unexpectedToken extra)

def Expression.read (source : String) : Except Error Expression := do
  Expression.ofTokens (← tokens source.toList)

def holds? (source : String) (scope : Members) : Except Error Bool := do
  let value ← (← Expression.read source).eval scope
  return value.truthy

end BranchingStory.Condition
