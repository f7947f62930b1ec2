import BranchingStory.Proofs.Decimal.Plain
import Mathlib.Algebra.Order.Field.Power
import Mathlib.Algebra.Order.Field.Rat

/-!
Floats as rational numbers, without rounding. The whole number of a float is the integer that it is, and a float that
is no integer has none.
-/

namespace BranchingStory

def rational? (x : Float) : Option ℚ :=
  match x.toModel.unpack with
  | .zero _ => some 0
  | .finite .positive significand exponent _ => some (significand * 2 ^ exponent)
  | .finite .negative significand exponent _ => some (-(significand * 2 ^ exponent))
  | .infinity _ | .notANumber => none

namespace Binary

theorem two_zpow_eq (exponent : Int) : (2 : ℚ) ^ exponent * 2 ^ (-exponent).toNat = 2 ^ exponent.toNat := by
  rw [← zpow_natCast, ← zpow_natCast, ← zpow_add₀ (by norm_num)]
  congr 1
  omega

theorem wholeMagnitude?_eq_some_iff {value : Binary} {magnitude : Nat} :
    value.wholeMagnitude? = some magnitude ↔ (value.significand : ℚ) * 2 ^ value.exponent = magnitude := by
  have power : (0 : ℚ) < 2 ^ (-value.exponent).toNat := by positivity
  have scaled : (value.significand : ℚ) * 2 ^ value.exponent = magnitude ↔
      value.significand * 2 ^ value.exponent.toNat = magnitude * 2 ^ (-value.exponent).toNat := by
    rw [← mul_left_inj' power.ne', mul_assoc, two_zpow_eq]
    norm_cast
  rw [scaled, wholeMagnitude?]
  simp only [Nat.pow_eq]
  by_cases upward : 0 ≤ value.exponent
  · rw [if_pos upward, show (-value.exponent).toNat = 0 by omega, Nat.pow_zero, Nat.mul_one, Option.some.injEq]
  · rw [if_neg upward, show value.exponent.toNat = 0 by omega, Nat.pow_zero, Nat.mul_one]
    constructor
    · intro whole
      split at whole
      · rename_i divides
        rw [← Option.some.inj whole, Nat.div_mul_cancel (Nat.dvd_of_mod_eq_zero divides)]
      · cases whole
    · intro same
      rw [same, Nat.mul_mod_left, if_pos rfl, Nat.mul_div_cancel _ (Nat.two_pow_pos _)]

end Binary

variable {x : Float} {number : Int}

theorem isFinite_of_rational? {number : ℚ} (found : rational? x = some number) : x.isFinite = true := by
  change x.toModel.unpack.isFinite = true
  rw [rational?] at found
  generalize x.toModel.unpack = value at found ⊢
  cases value with
  | zero | finite => rfl
  | infinity | notANumber => cases found

theorem rational?_of_ofFloat? {value : Binary} (found : Binary.ofFloat? x = some value) :
    rational? x = some (if value.negative then -(value.significand * 2 ^ value.exponent : ℚ)
      else value.significand * 2 ^ value.exponent) := by
  by_cases none : value.significand = 0
  · rcases Binary.unpack_of_ofFloat? found with ⟨-, -, zero⟩ | ⟨normal, -⟩
    · obtain ⟨sign, unpacked⟩ := zero none
      rw [rational?, unpacked, none]
      simp
    · exact absurd none normal.pos.ne'
  · obtain ⟨canonical, unpacked⟩ := Binary.unpack_canonical found none
    rw [rational?, unpacked, Binary.sign]
    cases value.negative with
    | false => rfl
    | true => rfl

theorem wholeNumber?_eq_some_iff : wholeNumber? x = some number ↔ rational? x = some (number : ℚ) := by
  constructor
  · intro whole
    simp only [wholeNumber?, Option.bind_eq_bind, Option.bind_eq_some_iff, pure, Option.some.injEq] at whole
    obtain ⟨value, found, magnitude, measured, rfl⟩ := whole
    rw [rational?_of_ofFloat? found, Binary.wholeMagnitude?_eq_some_iff.mp measured]
    cases value.negative with
    | false => simp
    | true => simp
  · intro same
    obtain ⟨value, found⟩ := Binary.exists_of_isFinite (isFinite_of_rational? same)
    have least : (0 : ℚ) ≤ value.significand * 2 ^ value.exponent := by positivity
    rw [rational?_of_ofFloat? found, Option.some.injEq] at same
    have size : (value.significand : ℚ) * 2 ^ value.exponent = number.natAbs := by
      rw [Nat.cast_natAbs, Int.cast_abs, ← same]
      split
      · rw [abs_neg, abs_of_nonneg least]
      · rw [abs_of_nonneg least]
    have measured := Binary.wholeMagnitude?_eq_some_iff.mpr size
    rw [size] at same
    simp only [wholeNumber?, found, Option.bind_eq_bind, Option.bind_some, measured, pure, Option.some.injEq]
    split
    · rename_i negative
      rw [if_pos negative] at same
      have cast : ((-(number.natAbs : Int) : Int) : ℚ) = number := by rw [Int.cast_neg, Int.cast_natCast, same]
      exact Int.cast_injective cast
    · rename_i positive
      rw [if_neg positive] at same
      have cast : ((number.natAbs : Int) : ℚ) = number := by rw [Int.cast_natCast, same]
      exact Int.cast_injective cast

end BranchingStory
