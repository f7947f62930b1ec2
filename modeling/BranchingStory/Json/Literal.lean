import BranchingStory.Decimal.Numeral
import BranchingStory.Json.Basic

/-!
The values of number literals. A literal that is no 64-bit integer is read as a whole significand scaled by
a power of ten in float arithmetic: fast, and off by a last bit now and then. A literal too great for a
float has no value.
-/

namespace BranchingStory

structure NumberLiteral where
  negative : Bool
  whole : List Char
  fraction : Option (List Char)
  exponent : Option (Bool × List Char)
  deriving DecidableEq, Repr

namespace NumberLiteral

def significandLimit : Nat := 18446744073709551615

/-- Takes digits into the significand as long as it stays within the limit; says how many were left. -/
def accumulate : Nat → List Char → Nat × Nat
  | significand, [] => (significand, 0)
  | significand, digit :: rest =>
      let next := 10 * significand + (digit.toNat - '0'.toNat)
      if significandLimit < next then (significand, (digit :: rest).length)
      else accumulate next rest

/-- A significand times a power of ten, one exact power at a time; `none` when it is beyond every float. -/
def scale (value : Float) (exponent : Int) : Nat → Option Float
  | 0 => some 0
  | rounds + 1 =>
      if exponent.natAbs ≤ 308 then
        let power := Float.ofScientific 1 false exponent.natAbs
        if 0 ≤ exponent then
          let scaled := value * power
          if scaled.isInf then none else some scaled
        else some (value / power)
      else if value == 0 then some value
      else if 0 ≤ exponent then none
      else scale (value / Float.ofScientific 1 false 308) (exponent + 308) rounds

def toFloat (negative : Bool) (significand : Nat) (exponent : Int) : Option Float :=
  (scale (Float.ofNat significand) exponent 4).map fun value => if negative then -value else value

/-- The exponent that was written is limited to 31 bits; beyond, a number is zero or too great. -/
def withExponent (negative : Bool) (significand : Nat) (exponent : Int) :
    Option (Bool × List Char) → Option Float
  | none => toFloat negative significand exponent
  | some (below, digits) =>
      let written := Numeral.value digits
      if written < 2147483648 then
        toFloat negative significand (if below then exponent - written else exponent + written)
      else if significand ≠ 0 ∧ below = false then none
      else some (if negative then -0.0 else 0.0)

def value (literal : NumberLiteral) : Option Number :=
  let (whole, dropped) := accumulate 0 literal.whole
  match literal.fraction, literal.exponent with
  | none, none =>
      if dropped ≠ 0 then (toFloat literal.negative whole dropped).map .real
      else if literal.negative then
        if whole = 0 ∨ 9223372036854775808 < whole then some (.real (-Float.ofNat whole))
        else some (.integer (-whole))
      else some (.integer whole)
  | fraction, exponent =>
      let digits := fraction.getD []
      let (significand, ignored) := accumulate whole digits
      let places := digits.length - ignored
      (withExponent literal.negative significand ((dropped : Int) - places) exponent).map .real

end NumberLiteral
end BranchingStory
