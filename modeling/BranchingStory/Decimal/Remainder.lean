import BranchingStory.Decimal.Binary

/-!
The remainder of a division that drops the fraction of the quotient. It is exact: the remainder of two
floats is itself a float, and it has the sign of the dividend.
-/

namespace BranchingStory

def Binary.remainder (dividend divisor : Binary) : Binary :=
  let exponent := min dividend.exponent divisor.exponent
  let scaled (x : Binary) := x.significand * Nat.pow 2 (x.exponent - exponent).toNat
  ⟨dividend.negative, scaled dividend % scaled divisor, exponent⟩

/-- Infinite dividends and divisors that are zero have no remainder; an infinite divisor leaves the
dividend as it is. -/
def floatRemainder (dividend divisor : Float) : Float :=
  match Binary.ofFloat? dividend, Binary.ofFloat? divisor with
  | some a, some b => if b.significand = 0 then 0 / 0 else (a.remainder b).toFloat
  | some _, none => if divisor.isNaN then divisor else dividend
  | none, _ => 0 / 0

end BranchingStory
