import BranchingStory.Decimal.Layout
import BranchingStory.Json.Basic

/-!
The compact text of a JSON value: no blanks, members in order, characters beyond ASCII as they are.
-/

namespace BranchingStory
namespace Json

/-- Floats keep a point or an exponent, so that they are not taken for integers; exponents are signed. -/
def floatLayout : Layout :=
  { positional := some (-5, 15)
    pointZero := true
    plusSign := true
    tie := .even }

def hexDigit (n : Nat) : Char :=
  if n < 10 then Char.ofNat ('0'.toNat + n) else Char.ofNat ('a'.toNat + (n - 10))

def escape (c : Char) : List Char :=
  if c = '"' then ['\\', '"']
  else if c = '\\' then ['\\', '\\']
  else if c = '\n' then ['\\', 'n']
  else if c = '\r' then ['\\', 'r']
  else if c = '\t' then ['\\', 't']
  else if c.toNat = 0x08 then ['\\', 'b']
  else if c.toNat = 0x0C then ['\\', 'f']
  else if c.toNat < 0x20 then ['\\', 'u', '0', '0', hexDigit (c.toNat / 16), hexDigit (c.toNat % 16)]
  else [c]

def quote (text : List Char) : List Char := '"' :: text.flatMap escape ++ ['"']

def printNumber : Number → List Char
  | .integer value => (if value < 0 then ['-'] else []) ++ Nat.toDigits 10 value.natAbs
  | .real value =>
      match Binary.ofFloat? value with
      | some finite => (floatLayout.finite finite).toList
      | none => ['n', 'u', 'l', 'l']

mutual

def print : Json → List Char
  | .null => ['n', 'u', 'l', 'l']
  | .bool true => ['t', 'r', 'u', 'e']
  | .bool false => ['f', 'a', 'l', 's', 'e']
  | .number value => printNumber value
  | .string text => quote text.toList
  | .array [] => ['[', ']']
  | .array (first :: rest) => '[' :: first.print ++ printItems rest
  | .object [] => ['\x7b', '\x7d']
  | .object ((key, value) :: rest) =>
      '\x7b' :: quote key.toList ++ ':' :: value.print ++ printMembers rest

def printItems : List Json → List Char
  | [] => [']']
  | item :: rest => ',' :: item.print ++ printItems rest

def printMembers : List (String × Json) → List Char
  | [] => ['\x7d']
  | (key, value) :: rest => ',' :: quote key.toList ++ ':' :: value.print ++ printMembers rest

end

def compact (value : Json) : String := String.ofList value.print

end Json
end BranchingStory
