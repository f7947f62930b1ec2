import BranchingStory.Condition.Error
import BranchingStory.Decimal.Index
import BranchingStory.Json.Basic
import BranchingStory.Text.Blank

/-!
The values that conditions compute with. They are turned into truth values, numbers and texts as the
operators need them.
-/

namespace BranchingStory.Condition

inductive Operand
  | undefined
  | null
  | bool (value : Bool)
  | number (value : Float)
  | text (value : String)
  | array (items : List Json)
  | object (members : Members)

inductive Order
  | less
  | equal
  | greater
  deriving DecidableEq, Repr

def displayLayout : Layout :=
  { positional := none
    pointZero := false
    plusSign := false
    tie := .up }

def clampWord (value : Int) : Int := max (-9223372036854775808) (min value 9223372036854775807)

/-- The text of a number. Whole numbers below ten to the twenty-first are shown as 64-bit integers. -/
def displayNumber (value : Float) : String :=
  match wholeNumber? value with
  | some whole =>
      if whole.natAbs < 1000000000000000000000 then toString (clampWord whole)
      else displayLayout.render "Infinity" "NaN" value
  | none => displayLayout.render "Infinity" "NaN" value

def isForeignLetter (c : Char) : Bool := c.isAlpha && c != 'e' && c != 'E'

def readNumber (text : String) : Float :=
  let trimmed := trimBlanks text.toList
  if trimmed.isEmpty then 0
  else if trimmed = "Infinity".toList ∨ trimmed = "+Infinity".toList then 1 / 0
  else if trimmed = "-Infinity".toList then -1 / 0
  else if trimmed.any isForeignLetter then 0 / 0
  else
    match Numeral.ofText? trimmed with
    | some numeral => numeral.toFloat
    | none => 0 / 0

mutual

def displayJson : Json → String
  | .null => "null"
  | .bool value => if value then "true" else "false"
  | .number value => displayNumber value.toFloat
  | .string text => text
  | .array items => ",".intercalate (displayItems items)
  | .object _ => "[object Object]"

def displayItems : List Json → List String
  | [] => []
  | .null :: rest => "" :: displayItems rest
  | item :: rest => displayJson item :: displayItems rest

end

namespace Operand

def ofJson : Json → Operand
  | .null => .null
  | .bool value => .bool value
  | .number value => .number value.toFloat
  | .string value => .text value
  | .array items => .array items
  | .object members => .object members

def truthy : Operand → Bool
  | .undefined | .null => false
  | .bool value => value
  | .number value => value != 0 && !value.isNaN
  | .text value => value != ""
  | .array _ | .object _ => true

def display : Operand → String
  | .undefined => "undefined"
  | .null => "null"
  | .bool value => if value then "true" else "false"
  | .number value => displayNumber value
  | .text value => value
  | .array items => displayJson (.array items)
  | .object _ => "[object Object]"

def toNumber : Operand → Float
  | .undefined | .object _ => 0 / 0
  | .null => 0
  | .bool value => if value then 1 else 0
  | .number value => value
  | .text value => readNumber value
  | .array items => readNumber (displayJson (.array items))

def identical : Operand → Operand → Bool
  | .undefined, .undefined => true
  | .null, .null => true
  | .bool left, .bool right => left == right
  | .number left, .number right => left == right
  | .text left, .text right => left == right
  | .array left, .array right => (Json.array left).same (.array right)
  | .object left, .object right => (Json.object left).same (.object right)
  | _, _ => false

def isNothing : Operand → Bool
  | .undefined | .null => true
  | _ => false

def isComposite : Operand → Bool
  | .array _ | .object _ => true
  | _ => false

def unbool : Operand → Operand
  | .bool value => .number (if value then 1 else 0)
  | operand => operand

def scalarEqual : Operand → Operand → Bool
  | .number left, .text right => left == readNumber right
  | .text left, .number right => readNumber left == right
  | left, right => left.identical right

/-- Equality with conversion. Undefined and null equal each other alone, booleans count as numbers, and
a composite value is its text beside a scalar. -/
def looselyEqual (left right : Operand) : Bool :=
  if left.isNothing || right.isNothing then left.isNothing && right.isNothing
  else
    let left := left.unbool
    let right := right.unbool
    if left.isComposite && !right.isComposite then scalarEqual (.text left.display) right
    else if right.isComposite && !left.isComposite then scalarEqual left (.text right.display)
    else scalarEqual left right

def compareFloats (left right : Float) : Option Order :=
  if left < right then some .less
  else if left == right then some .equal
  else if right < left then some .greater
  else none

/-- Texts by their characters, all else by the numbers that they stand for. -/
def compare? : Operand → Operand → Option Order
  | .text left, .text right =>
      some (if left < right then .less else if left = right then .equal else .greater)
  | left, right => compareFloats left.toNumber right.toNumber

def joinsTexts : Operand → Bool
  | .text _ | .array _ | .object _ => true
  | _ => false

def add (left right : Operand) : Operand :=
  if left.joinsTexts || right.joinsTexts then .text (left.display ++ right.display)
  else .number (left.toNumber + right.toNumber)

def at? {α : Type} (items : List α) (key : String) (operand : α → Operand) : Operand :=
  match (index? key).bind fun index => items[index]? with
  | some item => operand item
  | none => .undefined

def member (operand : Operand) (key : String) : Except Error Operand :=
  match operand with
  | .undefined => .error (.memberOfNothing key .undefined)
  | .null => .error (.memberOfNothing key .null)
  | .bool _ | .number _ => .ok .undefined
  | .object members =>
      .ok (match members.get? key with
        | some value => ofJson value
        | none => .undefined)
  | .array items =>
      .ok (if key = "length" then .number (Float.ofNat items.length) else at? items key ofJson)
  | .text value =>
      .ok (if key = "length" then .number (Float.ofNat value.toList.length)
        else at? value.toList key fun c => .text (String.singleton c))

end Operand
end BranchingStory.Condition
