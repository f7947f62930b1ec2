/-!
Finite floats as whole numbers scaled by a power of two. Everything that must be exact (the digits of a
float, whether it is whole, a remainder) is computed on this form with natural numbers.
-/

namespace BranchingStory

structure Binary where
  negative : Bool
  significand : Nat
  exponent : Int
  deriving DecidableEq, Repr

namespace Binary

def hiddenBit : Nat := 4503599627370496

def signBit : Nat := 9223372036854775808

def ofFloat? (x : Float) : Option Binary :=
  let bits : Nat := x.toBits.toNat
  let negative := decide (bits / signBit = 1)
  let biased : Nat := bits / hiddenBit % 2048
  let fraction : Nat := bits % hiddenBit
  if biased = 2047 then none
  else if biased = 0 then some ⟨negative, fraction, -1074⟩
  else some ⟨negative, hiddenBit + fraction, (biased : Int) - 1075⟩

/-- Moves factors of two from the exponent into the significand until it has all 53 bits
or the exponent is the least there is. -/
def widen : Nat → Nat → Int → Nat × Int
  | 0, significand, exponent => (significand, exponent)
  | room + 1, significand, exponent =>
      if hiddenBit ≤ significand ∨ exponent ≤ -1074 then (significand, exponent)
      else widen room (2 * significand) (exponent - 1)

def toFloat (value : Binary) : Float :=
  let (significand, exponent) := widen 53 value.significand value.exponent
  let sign := if value.negative then signBit else 0
  let bits :=
    if significand < hiddenBit then significand
    else (exponent + 1075).toNat * hiddenBit + (significand - hiddenBit)
  Float.ofBits (UInt64.ofNat (sign + bits))

def wholeMagnitude? (value : Binary) : Option Nat :=
  if 0 ≤ value.exponent then some (value.significand * Nat.pow 2 value.exponent.toNat)
  else
    let divisor := Nat.pow 2 (-value.exponent).toNat
    if value.significand % divisor = 0 then some (value.significand / divisor) else none

end Binary

def wholeNumber? (x : Float) : Option Int := do
  let value ← Binary.ofFloat? x
  let magnitude ← value.wholeMagnitude?
  return if value.negative then -(magnitude : Int) else magnitude

end BranchingStory
