/-!
JSON values. Objects keep their members in the order in which the keys first came, and whole numbers are
kept apart from numbers written with a point or an exponent.
-/

namespace BranchingStory

/-- A JSON number. A literal without point and exponent that fits 64 bits is an integer; any other is
a float. -/
inductive Number
  | integer (value : Int)
  | real (value : Float)

inductive Json
  | null
  | bool (value : Bool)
  | number (value : Number)
  | string (value : String)
  | array (items : List Json)
  | object (members : List (String × Json))

instance : Inhabited Json := ⟨.null⟩

abbrev Members := List (String × Json)

namespace Members

def get? (members : Members) (key : String) : Option Json := members.lookup key

/-- A present key keeps its place and takes the new value; a new key goes to the end. -/
def set (members : Members) (key : String) (value : Json) : Members :=
  match members with
  | [] => [(key, value)]
  | (other, old) :: rest =>
      if other = key then (key, value) :: rest else (other, old) :: set rest key value

def merge (base changes : Members) : Members :=
  changes.foldl (fun members member => members.set member.1 member.2) base

def ofList (pairs : List (String × Json)) : Members := merge [] pairs

end Members

namespace Number

def toFloat : Number → Float
  | .integer value => Float.ofInt value
  | .real value => value

def same : Number → Number → Bool
  | .integer left, .integer right => left == right
  | .real left, .real right => left == right
  | _, _ => false

end Number

namespace Json

def member? (value : Json) (key : String) : Option Json :=
  match value with
  | .object members => Members.get? members key
  | _ => none

def string? : Json → Option String
  | .string text => some text
  | _ => none

def float? : Json → Option Float
  | .number value => some value.toFloat
  | _ => none

def ofFloat (value : Float) : Json :=
  if value.isFinite then .number (.real value) else .null

def ofNat (value : Nat) : Json := .number (.integer value)

def ofText? : Option String → Json
  | some text => .string text
  | none => .null

mutual

/-- Structural equality. The order of members does not count. -/
def same : Json → Json → Bool
  | .null, .null => true
  | .bool left, .bool right => left == right
  | .number left, .number right => left.same right
  | .string left, .string right => left == right
  | .array left, .array right => sameItems left right
  | .object left, .object right => left.length == right.length && sameMembers left right
  | _, _ => false

def sameItems : List Json → List Json → Bool
  | [], [] => true
  | left :: lefts, right :: rights => left.same right && sameItems lefts rights
  | _, _ => false

def sameMembers : List (String × Json) → List (String × Json) → Bool
  | [], _ => true
  | (key, left) :: rest, right =>
      (match Members.get? right key with
        | some value => left.same value
        | none => false) && sameMembers rest right

end

end Json
end BranchingStory
