import BranchingStory.Proofs.Decimal.Finite

/-!
Quotients of floats that are rounded to a given float. A quotient is rounded once: to the float whose interval it lies
in, the interval from halfway to the float before it to halfway to the float after it.
-/

namespace BranchingStory

open Float.Model (Format totalExponent UnpackedFloat)
open Float.Model.UnpackedFloat

/-! ## Intervals -/

/-- A fraction lies in the interval of a significand. The ends belong to it if the significand is even, and the float
before a power of two is only half as far away. -/
def RoundsTo (significand numerator denominator : Nat) : Prop :=
  let least := 4 * significand - if significand = 2 ^ 52 then 1 else 2
  let most := 4 * significand + 2
  if significand % 2 = 0 then least * denominator ≤ 4 * numerator ∧ 4 * numerator ≤ most * denominator
  else least * denominator < 4 * numerator ∧ 4 * numerator < most * denominator

variable {significand numerator denominator : Nat}

theorem RoundsTo.of_mul_eq {other another : Nat} (rounds : RoundsTo significand numerator denominator)
    (positive : 0 < denominator) (some : 0 < another)
    (same : numerator * another = other * denominator) : RoundsTo significand other another := by
  have scaled : ∀ bound, bound * denominator * another = bound * another * denominator := fun bound => by ring
  have moved : 4 * numerator * another = 4 * other * denominator := by
    rw [Nat.mul_assoc, same, Nat.mul_assoc]
  simp only [RoundsTo] at rounds ⊢
  generalize 4 * significand - (if significand = 2 ^ 52 then 1 else 2) = least at rounds ⊢
  split
  · rename_i even
    rw [if_pos even] at rounds
    have low := Nat.mul_le_mul_right another rounds.1
    have high := Nat.mul_le_mul_right another rounds.2
    rw [scaled, moved] at low
    rw [scaled, moved] at high
    exact ⟨Nat.le_of_mul_le_mul_right low positive, Nat.le_of_mul_le_mul_right high positive⟩
  · rename_i odd
    rw [if_neg odd] at rounds
    have low := Nat.mul_lt_mul_of_pos_right rounds.1 some
    have high := Nat.mul_lt_mul_of_pos_right rounds.2 some
    rw [scaled, moved] at low
    rw [scaled, moved] at high
    exact ⟨Nat.lt_of_mul_lt_mul_right low, Nat.lt_of_mul_lt_mul_right high⟩

/-! ## Rounding fractions -/

def extended (numerator denominator : Nat) : ExtendedMantissa :=
  .ofMantissaAndAccuracy (numerator / denominator) (accuracyOfFraction (numerator % denominator) denominator)

theorem shiftRightOne_extended (positive : 0 < denominator) :
    (extended numerator denominator).shiftRightOne = extended numerator (denominator * 2) := by
  have below := Nat.mod_lt numerator positive
  have quotient : numerator / (denominator * 2) = numerator / denominator / 2 :=
    (Nat.div_div_eq_div_mul _ _ _).symm
  have remainder : numerator % (denominator * 2) =
      numerator % denominator + denominator * (numerator / denominator % 2) := Nat.mod_mul
  simp only [extended, quotient, remainder]
  generalize numerator / denominator = whole
  generalize numerator % denominator = part at below ⊢
  -- The bit that is dropped says on which side of a half the rest lies, and the rest itself that it is not none.
  have bit : whole % 2 = 0 ∨ whole % 2 = 1 := by omega
  by_cases none : part = 0
  · have kept : (ExtendedMantissa.ofMantissaAndAccuracy whole .exact).shiftRightOne =
        ⟨whole / 2, whole % 2 != 0, false⟩ := rfl
    rw [none, accuracyOfFraction, if_pos rfl, kept]
    obtain even | odd := bit
    · simp [even, accuracyOfFraction, ExtendedMantissa.ofMantissaAndAccuracy]
    · have half : compare (2 * denominator) (denominator * 2) = .eq := by
        rw [Nat.compare_eq_eq]
        omega
      simp [odd, accuracyOfFraction, positive.ne', half, ExtendedMantissa.ofMantissaAndAccuracy]
  · have kept : (ExtendedMantissa.ofMantissaAndAccuracy whole (accuracyOfFraction part denominator)).shiftRightOne =
        ⟨whole / 2, whole % 2 != 0, true⟩ := by
      rw [accuracyOfFraction, if_neg none]
      cases compare (2 * part) denominator <;> rfl
    rw [kept]
    obtain even | odd := bit
    · have less : compare (2 * part) (denominator * 2) = .lt := by
        rw [Nat.compare_eq_lt]
        omega
      simp [even, accuracyOfFraction, none, less, ExtendedMantissa.ofMantissaAndAccuracy]
    · have more : compare (2 * (part + denominator)) (denominator * 2) = .gt := by
        rw [Nat.compare_eq_gt]
        omega
      simp [odd, accuracyOfFraction, none, more, ExtendedMantissa.ofMantissaAndAccuracy]

theorem extended_shiftRight (positive : 0 < denominator) (count : Nat) :
    extended numerator denominator >>> count = extended numerator (denominator * 2 ^ count) := by
  change count.repeat ExtendedMantissa.shiftRightOne _ = _
  induction count with
  | zero => simp [Nat.repeat]
  | succ count ih =>
      rw [Nat.repeat, ih, shiftRightOne_extended (Nat.mul_pos positive (Nat.two_pow_pos count)), Nat.pow_succ,
        Nat.mul_assoc]

theorem accuracy_ofMantissaAndAccuracy (mantissa : Nat) (accuracy : Accuracy) :
    (ExtendedMantissa.ofMantissaAndAccuracy mantissa accuracy).roundedMantissa =
      accuracy.roundToNearestEven mantissa := by
  cases accuracy with
  | exact => rfl
  | inexact place => cases place <;> rfl

theorem roundedMantissa_extended (positive : 0 < denominator)
    (low : (2 * significand - 1) * denominator ≤ 2 * numerator)
    (high : 2 * numerator ≤ (2 * significand + 1) * denominator)
    (inside : significand % 2 = 1 →
      (2 * significand - 1) * denominator < 2 * numerator ∧ 2 * numerator < (2 * significand + 1) * denominator) :
    (extended numerator denominator).roundedMantissa = significand := by
  have below := Nat.mod_lt numerator positive
  have split := Nat.div_add_mod numerator denominator
  rw [extended, accuracy_ofMantissaAndAccuracy]
  generalize numerator / denominator = whole at split ⊢
  generalize numerator % denominator = part at split below ⊢
  have le_of {least most : Nat} (first : least * denominator ≤ 2 * numerator)
      (last : 2 * numerator ≤ most * denominator) : least ≤ most :=
    Nat.le_of_mul_le_mul_right (first.trans last) positive
  have lt_of {least most : Nat} (apart : least * denominator < most * denominator) : least < most :=
    Nat.lt_of_mul_lt_mul_right apart
  have twice : 2 * numerator = 2 * whole * denominator + 2 * part := by
    rw [← split]
    ring
  have next : (2 * whole + 1) * denominator = 2 * whole * denominator + denominator := Nat.succ_mul _ _
  have after : (2 * whole + 2) * denominator = 2 * whole * denominator + 2 * denominator := Nat.add_mul _ _ _
  by_cases none : part = 0
  · have least : 2 * significand - 1 ≤ 2 * whole := le_of low (by omega)
    have most : 2 * whole ≤ 2 * significand + 1 := le_of (by omega) high
    rw [none, accuracyOfFraction, if_pos rfl]
    change whole = significand
    omega
  · rw [accuracyOfFraction, if_neg none]
    rcases Nat.lt_trichotomy (2 * part) denominator with less | half | more
    · have least : 2 * significand - 1 < 2 * whole + 1 := lt_of (by omega)
      have most : 2 * whole < 2 * significand + 1 := lt_of (by omega)
      rw [Nat.compare_eq_lt.mpr less]
      change whole = significand
      omega
    · -- Just between two whole numbers, the even one is taken.
      have least : 2 * significand - 1 ≤ 2 * whole + 1 := le_of low (by omega)
      have most : 2 * whole + 1 ≤ 2 * significand + 1 := le_of (by omega) high
      rw [Nat.compare_eq_eq.mpr half]
      change whole + whole % 2 = significand
      by_cases odd : significand % 2 = 1
      · obtain ⟨first, last⟩ := inside odd
        have later : 2 * significand - 1 < 2 * whole + 1 := lt_of (by omega)
        have earlier : 2 * whole + 1 < 2 * significand + 1 := lt_of (by omega)
        omega
      · omega
    · have least : 2 * significand - 1 < 2 * whole + 2 := lt_of (by omega)
      have most : 2 * whole + 1 < 2 * significand + 1 := lt_of (by omega)
      rw [Nat.compare_eq_gt.mpr more]
      change whole + 1 = significand
      omega

theorem shiftToTargetExponent_extended {exponent : Int} {count : Nat} (least : -1074 ≤ exponent)
    (positive : 0 < denominator) (low : 2 ^ 52 * (denominator * 2 ^ count) ≤ numerator)
    (high : numerator < 2 ^ 53 * (denominator * 2 ^ count)) :
    shiftToTargetExponent Format.binary64 (numerator / denominator) (exponent - count)
        (accuracyOfFraction (numerator % denominator) denominator) =
      (extended numerator (denominator * 2 ^ count), exponent) := by
  have lower : 2 ^ (52 + count) ≤ numerator / denominator := by
    rwa [Nat.le_div_iff_mul_le positive, Nat.pow_add, Nat.mul_assoc, Nat.mul_comm (2 ^ count)]
  have upper : numerator / denominator < 2 ^ (52 + count + 1) := by
    rwa [Nat.div_lt_iff_lt_mul positive, Nat.add_right_comm, Nat.pow_add, Nat.mul_assoc, Nat.mul_comm (2 ^ count)]
  have some : numerator / denominator ≠ 0 := (Nat.lt_of_lt_of_le (Nat.two_pow_pos _) lower).ne'
  have bits : (numerator / denominator).log2 = 52 + count := (Nat.log2_eq_iff some).mpr ⟨lower, upper⟩
  have target : Format.binary64.targetExponent (totalExponent (numerator / denominator) (exponent - count)) =
      exponent := by
    rw [totalExponent, bits, Format.targetExponent]
    simp only [Format.mantissaBits, Format.minExponent]
    omega
  have amount : (exponent - (exponent - count)).toNat = count := by omega
  rw [shiftToTargetExponent, target, shiftToExponent, ← extended_shiftRight positive]
  simp only [amount, extended]
  simp

theorem RoundsTo.near (rounds : RoundsTo significand numerator denominator) :
    (2 * significand - 1) * denominator ≤ 2 * numerator ∧ 2 * numerator ≤ (2 * significand + 1) * denominator ∧
      (significand % 2 = 1 →
        (2 * significand - 1) * denominator < 2 * numerator ∧
          2 * numerator < (2 * significand + 1) * denominator) := by
  obtain ⟨least, low⟩ : ∃ least, least = 4 * significand - if significand = 2 ^ 52 then 1 else 2 := ⟨_, rfl⟩
  have double : 2 * ((2 * significand - 1) * denominator) ≤ least * denominator := by
    rw [← Nat.mul_assoc]
    refine Nat.mul_le_mul_right _ ?_
    split at low <;> omega
  have most : (4 * significand + 2) * denominator = 2 * ((2 * significand + 1) * denominator) := by ring
  simp only [RoundsTo, ← low, most] at rounds
  split at rounds
  · exact ⟨by omega, by omega, by omega⟩
  · exact ⟨by omega, by omega, by omega⟩

namespace Normal

variable {exponent : Int} {count : Nat}

theorem roundWithAccuracy_of_roundsTo (normal : Normal significand exponent) (sign : Sign) (inner : -1074 < exponent)
    (positive : 0 < denominator) (bits : 2 ^ 52 * denominator ≤ numerator)
    (rounds : RoundsTo significand numerator (denominator * 2 ^ count)) :
    roundWithAccuracy Format.binary64 sign (numerator / denominator) (exponent - count)
        (accuracyOfFraction (numerator % denominator) denominator) =
      .finite sign significand exponent normal.pos := by
  have full := normal.full
  have fits := normal.fits
  obtain ⟨low, high, inside⟩ := rounds.near
  have steps : 0 < denominator * 2 ^ count := Nat.mul_pos positive (Nat.two_pow_pos count)
  by_cases reached : 2 ^ 52 * (denominator * 2 ^ count) ≤ numerator
  · have short : numerator < 2 ^ 53 * (denominator * 2 ^ count) := by
      have least : 2 * significand + 1 < 2 * 2 ^ 53 := by omega
      have bound := Nat.mul_lt_mul_of_pos_right least steps
      rw [Nat.mul_assoc] at bound
      omega
    have first := shiftToTargetExponent_extended (by omega : -1074 ≤ exponent) positive reached short
    have rounded := roundedMantissa_extended steps low high inside
    have settled := normal.shiftToTargetExponent_eq 0
    rw [pow_zero, mul_one, Nat.cast_zero, sub_zero] at settled
    simp only [roundWithAccuracy, first, rounded, settled, normal.pos.ne', dite_false]
  · -- Just below a power of two the significand has one bit more, which is rounded away.
    have power : significand = 2 ^ 52 := by
      by_contra other
      have least : 2 * 2 ^ 52 ≤ 2 * significand - 1 := by omega
      have bound := Nat.mul_le_mul_right (denominator * 2 ^ count) least
      rw [Nat.mul_assoc] at bound
      omega
    subst power
    obtain ⟨before, rfl⟩ : ∃ before, count = before + 1 := by
      refine ⟨count - 1, ?_⟩
      by_contra none
      have zero : count = 0 := by omega
      subst zero
      exact reached (by rwa [pow_zero, mul_one])
    have half : denominator * 2 ^ (before + 1) = 2 * (denominator * 2 ^ before) := by ring
    have least : (4 * 2 ^ 52 - 1) * (2 * (denominator * 2 ^ before)) ≤ 4 * numerator := by
      have narrow := rounds
      simp only [RoundsTo, half] at narrow
      exact narrow.1
    rw [half] at reached
    have lower : exponent - ((before + 1 : Nat) : Int) = exponent - 1 - (before : Int) := by omega
    have first := shiftToTargetExponent_extended (by omega : -1074 ≤ exponent - 1) positive
      (by omega : 2 ^ 52 * (denominator * 2 ^ before) ≤ numerator) (by omega)
    have rounded : (extended numerator (denominator * 2 ^ before)).roundedMantissa = 2 ^ 52 * 2 ^ 1 := by
      refine roundedMantissa_extended (Nat.mul_pos positive (Nat.two_pow_pos before)) ?_ ?_ ?_
      · omega
      · omega
      · intro odd
        exact absurd odd (by decide)
    have settled := normal.shiftToTargetExponent_eq 1
    rw [Nat.cast_one] at settled
    rw [lower]
    simp only [roundWithAccuracy, first, rounded, settled, normal.pos.ne', dite_false]

end Normal

/-! ## Bits -/

namespace Binary

theorem model_eq_of_bits {first second : Float.Model} (same : first.toBits.toNat = second.toBits.toNat) :
    first = second := by
  obtain ⟨first, _⟩ := first
  obtain ⟨second, _⟩ := second
  obtain rfl := UInt64.toNat_inj.mp same
  rfl

theorem bits_of_ofFloat?_zero {x : Float} {value : Binary} (found : ofFloat? x = some value)
    (none : value.significand = 0) : x.toBits.toNat = if value.negative then signBit else 0 := by
  have bits : x.toBits.toNat < 2 ^ 64 := x.toBits.toNat_lt
  simp only [ofFloat?] at found
  split at found
  · simp at found
  · split at found
    · rename_i least
      obtain rfl := Option.some.inj found
      simp only [hiddenBit] at least none
      by_cases negative : x.toBits.toNat / signBit = 1
      · simp only [negative, decide_true, if_true]
        simp only [signBit] at negative ⊢
        omega
      · simp only [negative, decide_false, Bool.false_eq_true, if_false]
        simp only [signBit] at negative
        omega
    · obtain rfl := Option.some.inj found
      simp [hiddenBit] at none

end Binary
end BranchingStory
