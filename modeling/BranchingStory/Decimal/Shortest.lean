import BranchingStory.Decimal.Binary

/-!
The fewest decimal digits that identify a float: among the decimals with that many digits that read back
to the float, the one closest to it.
-/

namespace BranchingStory

structure Decimal where
  digits : Nat
  exponent : Int
  deriving DecidableEq, Repr

inductive Tie
  | even
  | up
  deriving DecidableEq, Repr

namespace Decimal

def width (n : Nat) : Nat := (Nat.toDigits 10 n).length

/-- The reals that read back to a float, as whole multiples of one power of ten: the lower end, the float
itself and the upper end. The ends belong to the interval when `closed`. -/
structure Interval where
  lower : Nat
  value : Nat
  upper : Nat
  closed : Bool
  unit : Int

/-- Halfway to the neighbour on either side. The neighbour below a power of two is only half as far away. -/
def Interval.ofBinary (x : Binary) : Interval :=
  let power := x.exponent - 2
  let scale (n : Nat) : Nat :=
    if 0 ≤ power then n * Nat.pow 2 power.toNat else n * Nat.pow 5 (-power).toNat
  let narrow := decide (x.significand = Binary.hiddenBit ∧ -1074 < x.exponent)
  { lower := scale (4 * x.significand - if narrow then 1 else 2)
    value := scale (4 * x.significand)
    upper := scale (4 * x.significand + 2)
    closed := x.significand % 2 = 0
    unit := if 0 ≤ power then 0 else power }

def Interval.contains (interval : Interval) (n : Nat) : Bool :=
  if interval.closed then interval.lower ≤ n && n ≤ interval.upper
  else interval.lower < n && n < interval.upper

def closer (tie : Tie) (value down grid : Nat) : Nat :=
  let below := value - down * grid
  let above := (down + 1) * grid - value
  if below < above then down
  else if above < below then down + 1
  else match tie with
    | .up => down + 1
    | .even => if down % 2 = 0 then down else down + 1

/-- The first of the grids `10 ^ power`, `10 ^ (power - 1)`, … that has a multiple in the interval. The
finest grid has the value itself. -/
def Interval.search (interval : Interval) (tie : Tie) : Nat → Nat × Nat
  | 0 => (interval.value, 0)
  | power + 1 =>
      let grid := Nat.pow 10 (power + 1)
      let down := interval.value / grid
      match interval.contains (down * grid), interval.contains ((down + 1) * grid) with
      | true, true => (closer tie interval.value down grid, power + 1)
      | true, false => (down, power + 1)
      | false, true => (down + 1, power + 1)
      | false, false => interval.search tie power

def trim : Nat → Decimal → Decimal
  | 0, value => value
  | room + 1, value =>
      if value.digits % 10 = 0 ∧ value.digits ≠ 0 then
        trim room ⟨value.digits / 10, value.exponent + 1⟩
      else value

def shortest (tie : Tie) (x : Binary) : Decimal :=
  if x.significand = 0 then ⟨0, 0⟩
  else
    let interval := Interval.ofBinary x
    let (digits, power) := interval.search tie (width interval.value - 1)
    trim (width digits) ⟨digits, interval.unit + power⟩

end Decimal
end BranchingStory
