import BranchingStory.Decimal.Binary

/-!
Reading decimal numerals: an optional sign, digits with an optional point among or before them, and an
optional exponent. The value is the float nearest to the numeral.
-/

namespace BranchingStory

structure Numeral where
  negative : Bool
  whole : List Char
  fraction : List Char
  exponent : Int
  deriving DecidableEq, Repr

namespace Numeral

def isDigit (c : Char) : Bool := '0' ≤ c && c ≤ '9'

def value (digits : List Char) : Nat :=
  digits.foldl (fun total digit => 10 * total + (digit.toNat - '0'.toNat)) 0

def takeSign : List Char → Bool × List Char
  | '-' :: rest => (true, rest)
  | '+' :: rest => (false, rest)
  | rest => (false, rest)

def exponent? : List Char → Option Int
  | [] => some 0
  | mark :: rest =>
      if mark = 'e' ∨ mark = 'E' then
        let (negative, digits) := takeSign rest
        if digits.isEmpty || !digits.all isDigit then none
        else some (if negative then -(value digits : Int) else value digits)
      else none

def ofText? (text : List Char) : Option Numeral :=
  let (negative, unsigned) := takeSign text
  let whole := unsigned.takeWhile isDigit
  let afterWhole := unsigned.dropWhile isDigit
  let (fraction, afterFraction) := match afterWhole with
    | '.' :: rest => (rest.takeWhile isDigit, rest.dropWhile isDigit)
    | rest => ([], rest)
  if whole.isEmpty && fraction.isEmpty then none
  else (exponent? afterFraction).map fun exponent => ⟨negative, whole, fraction, exponent⟩

/-- The float nearest to `digits * 10 ^ exponent`; far outside the range of floats it is infinite or zero,
which `width`, the number of digits without leading zeros, shows without raising ten to the exponent. -/
def nearest (digits width : Nat) (exponent : Int) : Float :=
  if digits = 0 then 0
  else if 400 < exponent + width then Float.ofBits 0x7FF0000000000000
  else if exponent + width < -400 then 0
  else Float.ofScientific digits (exponent < 0) exponent.natAbs

def toFloat (numeral : Numeral) : Float :=
  let digits := numeral.whole ++ numeral.fraction
  let width := (digits.dropWhile (· = '0')).length
  let magnitude := nearest (value digits) width (numeral.exponent - numeral.fraction.length)
  if numeral.negative then -magnitude else magnitude

end Numeral
end BranchingStory
