import BranchingStory.Json.Literal
import BranchingStory.Proofs.Decimal.Whole

/-!
Finite floats. A float is infinite only if its exponent is too great to be written among its bits; a quotient
by ten or more, and a whole number of 64 bits, come nowhere near.
-/

namespace BranchingStory

open Float.Model (Format totalExponent UnpackedFloat)
open Float.Model.UnpackedFloat

/-- What can be written among the bits of a float without becoming infinite. -/
def Packs : UnpackedFloat → Prop
  | .zero _ => True
  | .finite _ _ exponent _ => exponent ≤ 971
  | .infinity _ | .notANumber => False

def atLeastEight : UnpackedFloat → Bool
  | .finite _ significand exponent _ => 4 ≤ totalExponent significand exponent
  | .zero _ | .infinity _ | .notANumber => false

/-! ## Bits -/

theorem isFinite_unpack {sign : Sign} {exponent : BitVec 11} {mantissa : BitVec 52} (bounded : exponent ≠ -1#11) :
    (unpack Format.binary64 (packComponents Format.binary64 sign exponent mantissa)).isFinite = true := by
  simp only [unpack, unpackExponent_packComponents, if_neg bounded]
  split
  · split <;> rfl
  · rfl

theorem isFinite_pack {value : UnpackedFloat} (packs : Packs value) :
    (Float.Model.pack value).isFinite = true := by
  change (unpack Format.binary64 (pack Format.binary64 value)).isFinite = true
  cases value with
  | infinity sign => exact packs.elim
  | notANumber => exact packs.elim
  | zero sign => exact isFinite_unpack (by decide)
  | finite sign significand exponent positive =>
      change exponent ≤ 971 at packs
      have room : ¬ 2 ^ Format.binary64.exponentBits ≤
          (exponent + Format.binary64.exponentBias + Format.binary64.mantissaBitsWithoutImplicit).toNat + 1 := by
        change ¬ 2048 ≤ (exponent + 1023 + 52).toNat + 1
        omega
      simp only [pack, if_neg room]
      split
      · refine isFinite_unpack fun full => room ?_
        have bits := congrArg BitVec.toNat full
        change (exponent + 1023 + 52).toNat % 2 ^ 11 = 2047 at bits
        change 2048 ≤ (exponent + 1023 + 52).toNat + 1
        omega
      · exact isFinite_unpack (by decide)

theorem isFinite_pack_of_not_isInf {value : UnpackedFloat} (definite : value ≠ .notANumber)
    (bounded : (Float.Model.pack value).isInf = false) : (Float.Model.pack value).isFinite = true := by
  by_cases packs : Packs value
  · exact isFinite_pack packs
  · exfalso
    change (unpack Format.binary64 (pack Format.binary64 value)).isInf = false at bounded
    cases value with
    | infinity sign => cases sign <;> exact absurd bounded (by decide)
    | notANumber => exact definite rfl
    | zero sign => exact packs trivial
    | finite sign significand exponent positive =>
        change ¬ exponent ≤ 971 at packs
        have full : 2 ^ Format.binary64.exponentBits ≤
            (exponent + Format.binary64.exponentBias + Format.binary64.mantissaBitsWithoutImplicit).toNat + 1 := by
          change 2048 ≤ (exponent + 1023 + 52).toNat + 1
          omega
        simp only [pack, if_pos full] at bounded
        cases sign <;> exact absurd bounded (by decide)

theorem unpack_of_isFinite {x : Float} (finite : x.isFinite = true) :
    (∃ sign, x.toModel.unpack = .zero sign) ∨
      ∃ sign significand exponent positive, x.toModel.unpack = .finite sign significand exponent positive ∧
        significand < 2 ^ 53 ∧ exponent ≤ 971 := by
  change x.toModel.unpack.isFinite = true at finite
  generalize shape : x.toModel.unpack = value at finite
  cases value with
  | infinity sign => exact Bool.noConfusion finite
  | notANumber => exact Bool.noConfusion finite
  | zero sign => exact .inl ⟨sign, rfl⟩
  | finite sign significand exponent positive =>
      refine .inr ⟨sign, significand, exponent, positive, rfl, ?_⟩
      change unpack Format.binary64 (Binary.word x) = _ at shape
      have exponents : (unpackExponent (Binary.word x)).toNat < 2 ^ 11 := (unpackExponent (Binary.word x)).isLt
      have mantissas : (unpackMantissa (Binary.word x)).toNat < 2 ^ 52 := (unpackMantissa (Binary.word x)).isLt
      simp only [unpack] at shape
      split at shape
      · split at shape <;> simp at shape
      · rename_i bounded
        have below : (unpackExponent (Binary.word x)).toNat ≠ 2047 := fun full =>
          bounded (BitVec.eq_of_toNat_eq full)
        split at shape
        · rename_i least
          split at shape
          · simp at shape
          · obtain ⟨-, rfl, rfl⟩ := UnpackedFloat.finite.inj shape
            refine ⟨by omega, ?_⟩
            change ((unpackExponent (Binary.word x)).toNat : Int) - (1023 + 52) + 1 ≤ 971
            rw [least]
            decide
        · obtain ⟨-, rfl, rfl⟩ := UnpackedFloat.finite.inj shape
          constructor
          · rw [Normal.toNat_one_append]
            omega
          · change ((unpackExponent (Binary.word x)).toNat : Int) - (1023 + 52) ≤ 971
            omega

theorem beq_self_of_isFinite {value : Float} (finite : value.isFinite = true) : (value == value) = true := by
  refine Float.beq_self_iff.mpr fun indefinite => ?_
  rw [indefinite] at finite
  exact absurd finite (by decide)

/-! ## Rounding -/

theorem mantissa_shiftRight (extended : ExtendedMantissa) (count : Nat) :
    (extended >>> count).mantissa = extended.mantissa / 2 ^ count := by
  change (count.repeat ExtendedMantissa.shiftRightOne extended).mantissa = _
  induction count with
  | zero => exact (Nat.div_one _).symm
  | succ count ih =>
      change (count.repeat ExtendedMantissa.shiftRightOne extended).mantissa / 2 = _
      rw [ih, Nat.div_div_eq_div_mul, Nat.pow_succ]

theorem roundedMantissa_le (extended : ExtendedMantissa) :
    extended.roundedMantissa ≤ extended.mantissa + 1 := by
  obtain ⟨mantissa, round, sticky⟩ := extended
  cases round <;> cases sticky <;>
    simp only [ExtendedMantissa.roundedMantissa, ExtendedMantissa.accuracy, Accuracy.roundToNearestEven] <;>
    omega

theorem log2_le_of_le_two_pow {number count : Nat} (bound : number ≤ 2 ^ count) : number.log2 ≤ count := by
  by_cases none : number = 0
  · simp [none]
  · refine Nat.lt_succ_iff.mp ((Nat.log2_lt none).mpr ?_)
    have doubled : 2 ^ count < 2 ^ (count + 1) := Nat.pow_lt_pow_right (by decide) (Nat.lt_succ_self count)
    omega

theorem log2_rounded_le (significand count : Nat) (accuracy : Accuracy) :
    ((ExtendedMantissa.ofMantissaAndAccuracy significand accuracy) >>> count).roundedMantissa.log2 ≤
      significand.log2 + 1 - count := by
  refine log2_le_of_le_two_pow (Nat.le_trans (roundedMantissa_le _) ?_)
  have start : (ExtendedMantissa.ofMantissaAndAccuracy significand accuracy).mantissa = significand := by
    cases accuracy with
    | exact => rfl
    | inexact place => cases place <;> rfl
  rw [mantissa_shiftRight, start, Nat.succ_le_iff, Nat.div_lt_iff_lt_mul (Nat.two_pow_pos count), ← Nat.pow_add]
  refine Nat.lt_of_lt_of_le (Nat.lt_log2_self) (Nat.pow_le_pow_right (by decide) ?_)
  omega

theorem packs_of_exponent {sign : Sign} {significand : Nat} {exponent : Int} (bounded : exponent ≤ 971) :
    Packs (if none : significand = 0 then .zero sign
      else .finite sign significand exponent (Nat.pos_of_ne_zero none)) := by
  split
  · trivial
  · exact bounded

theorem packs_roundWithAccuracy {significand : Nat} {exponent : Int} (sign : Sign) (accuracy : Accuracy)
    (bounded : exponent ≤ 970) (small : totalExponent significand exponent ≤ 1023) :
    Packs (roundWithAccuracy Format.binary64 sign significand exponent accuracy) := by
  refine packs_of_exponent ?_
  generalize amount : (Format.binary64.targetExponent (totalExponent significand exponent) - exponent).toNat = count
  have bits := log2_rounded_le significand count accuracy
  simp only [totalExponent, Format.targetExponent, Format.mantissaBits, Format.minExponent] at *
  omega

/-! ## Operations -/

section

variable {x y : Float}

theorem isFinite_neg (finite : x.isFinite = true) : (-x).isFinite = true := by
  refine isFinite_pack ?_
  rcases unpack_of_isFinite finite with ⟨sign, zero⟩ | ⟨sign, significand, exponent, positive, some, -, bounded⟩
  · rw [zero]
    trivial
  · rw [some]
    exact bounded

theorem isFinite_mul (left : x.isFinite = true) (right : y.isFinite = true) (bounded : (x * y).isInf = false) :
    (x * y).isFinite = true := by
  refine isFinite_pack_of_not_isInf ?_ bounded
  rcases unpack_of_isFinite left with ⟨_, first⟩ | ⟨_, _, _, _, first, -⟩ <;>
    rcases unpack_of_isFinite right with ⟨_, second⟩ | ⟨_, _, _, _, second, -⟩ <;>
    rw [first, second]
  · exact UnpackedFloat.noConfusion
  · exact UnpackedFloat.noConfusion
  · exact UnpackedFloat.noConfusion
  · simp only [UnpackedFloat.mul, roundWithAccuracy]
    split <;> exact UnpackedFloat.noConfusion

theorem log2_div_le (dividend count : Nat) {divisor : Nat} (positive : 0 < divisor) :
    (dividend <<< count / divisor).log2 ≤ dividend.log2 + 1 + count - divisor.log2 := by
  refine log2_le_of_le_two_pow (Nat.le_of_lt ?_)
  rw [Nat.shiftLeft_eq, Nat.div_lt_iff_lt_mul positive]
  have above : dividend * 2 ^ count < 2 ^ (dividend.log2 + 1 + count) := by
    rw [Nat.pow_add]
    exact Nat.mul_lt_mul_of_pos_right Nat.lt_log2_self (Nat.two_pow_pos count)
  have below : 2 ^ divisor.log2 ≤ divisor := Nat.log2_self_le positive.ne'
  refine Nat.lt_of_lt_of_le above ?_
  refine Nat.le_trans ?_ (Nat.mul_le_mul_left _ below)
  rw [← Nat.pow_add]
  exact Nat.pow_le_pow_right (by decide) (by omega)

theorem isFinite_div (finite : x.isFinite = true) (large : atLeastEight y.toModel.unpack = true) :
    (x / y).isFinite = true := by
  refine isFinite_pack ?_
  cases divisor : y.toModel.unpack with
  | infinity sign => simp [divisor, atLeastEight] at large
  | notANumber => simp [divisor, atLeastEight] at large
  | zero sign => simp [divisor, atLeastEight] at large
  | finite sign significand exponent positive =>
      simp only [divisor, atLeastEight, decide_eq_true_eq] at large
      rcases unpack_of_isFinite finite with ⟨_, zero⟩ | ⟨_, dividend, scale, some, unpacked, fits, bounded⟩
      · rw [zero]
        trivial
      · rw [unpacked]
        have bits : dividend.log2 < 53 := (Nat.log2_lt some.ne').mpr fits
        simp only [UnpackedFloat.div, divCore]
        generalize target : min (scale - exponent) (Format.binary64.targetExponent
          (totalExponent dividend scale - totalExponent significand exponent)) = least
        have quotient := log2_div_le dividend (scale - exponent - least).toNat positive
        simp only [totalExponent, Format.targetExponent, Format.mantissaBits, Format.minExponent] at target large
        refine packs_roundWithAccuracy _ _ ?_ ?_
        · omega
        · simp only [totalExponent]
          omega

end

/-! ## Whole numbers -/

theorem normal_of_lt {number : Nat} (positive : number ≠ 0) (short : number < 2 ^ 53) :
    Normal (number * 2 ^ (52 - number.log2)) (number.log2 - 52) := by
  have bits : number.log2 < 53 := (Nat.log2_lt positive).mpr short
  have lower := Nat.mul_le_mul_right (2 ^ (52 - number.log2)) (Nat.log2_self_le positive)
  have upper := Nat.mul_lt_mul_of_pos_right (Nat.lt_log2_self (n := number)) (Nat.two_pow_pos (52 - number.log2))
  rw [← Nat.pow_add, show number.log2 + (52 - number.log2) = 52 by omega] at lower
  rw [← Nat.pow_add, show number.log2 + 1 + (52 - number.log2) = 53 by omega] at upper
  exact ⟨lower, upper, by omega, by omega⟩

theorem mul_two_pow_log2 {number : Nat} (positive : number ≠ 0) (short : number < 2 ^ 53) :
    number * 2 ^ 52 = number * 2 ^ (52 - number.log2) * 2 ^ number.log2 := by
  have bits : number.log2 < 53 := (Nat.log2_lt positive).mpr short
  rw [Nat.mul_assoc, ← Nat.pow_add, Nat.sub_add_cancel (Nat.lt_succ_iff.mp bits)]

theorem ofScientific_eq {number : Nat} (positive : number ≠ 0) :
    UnpackedFloat.ofScientific Format.binary64 number 0 =
      roundWithAccuracy Format.binary64 .positive (number <<< 53 * 1) (-53) .exact := by
  have usual : ¬ (0 : Int) > 2 ^ Format.binary64.exponentBits := by decide
  have reached : ¬ (0 : Int) < -((2 ^ Format.binary64.exponentBits : Int) + number.log2) := by
    change ¬ (0 : Int) < -(2048 + (number.log2 : Int))
    omega
  rw [UnpackedFloat.ofScientific, dif_neg positive, if_neg usual, if_neg reached, if_pos (le_refl 0)]
  rfl

theorem isFinite_ofNat {number : Nat} (small : number < 2 ^ 64) : (Float.ofNat number).isFinite = true := by
  by_cases none : number = 0
  · rw [none]
    exact of_decide_eq_true rfl
  · by_cases short : number < 2 ^ 53
    · have normal := normal_of_lt none short
      change (Float.ofNat number).toModel.isFinite = true
      rw [normal.ofNat_toModel rfl (mul_two_pow_log2 none short)]
      exact isFinite_pack normal.most
    · have bits : number.log2 < 64 := (Nat.log2_lt none).mpr small
      change (Float.ofScientific number false 0).toModel.isFinite = true
      rw [Float.ofScientific, dif_neg fun both => short both.1]
      refine isFinite_pack ?_
      change Packs (UnpackedFloat.ofScientific Format.binary64 number 0)
      have shifted := log2_div_le number 53 Nat.one_pos
      rw [Nat.div_one, ← Nat.mul_one (number <<< 53)] at shifted
      have below : totalExponent (number <<< 53 * 1) (-53) ≤ 1023 := by
        simp only [totalExponent]
        omega
      rw [ofScientific_eq none]
      generalize number <<< 53 * 1 = significand at below
      exact packs_roundWithAccuracy .positive .exact (by decide) below

theorem isFinite_ofInt {number : Int} (small : number.natAbs < 2 ^ 64) : (Float.ofInt number).isFinite = true := by
  cases number with
  | ofNat number => exact isFinite_ofNat small
  | negSucc number => exact isFinite_neg (isFinite_ofNat small)

theorem isNaN_eq_false_iff {x : Float} : x.isNaN = false ↔ x.toModel.unpack ≠ .notANumber := by
  change x.toModel.unpack.isNaN = false ↔ _
  cases x.toModel.unpack with
  | notANumber => exact ⟨fun definite => Bool.noConfusion definite, fun definite => absurd rfl definite⟩
  | infinity | zero | finite => exact ⟨fun _ => UnpackedFloat.noConfusion, fun _ => rfl⟩

theorem unpack_pack_ne_notANumber {value : UnpackedFloat} (definite : value ≠ .notANumber) :
    (Float.Model.pack value).unpack ≠ .notANumber := by
  intro indefinite
  have bounded : (Float.Model.pack value).unpack.isInf = false := by rw [indefinite]; rfl
  have finite : (Float.Model.pack value).unpack.isFinite = true := isFinite_pack_of_not_isInf definite bounded
  rw [indefinite] at finite
  cases finite

theorem roundWithAccuracy_ne_notANumber (sign : Sign) (significand : Nat) (exponent : Int) (accuracy : Accuracy) :
    roundWithAccuracy Format.binary64 sign significand exponent accuracy ≠ .notANumber := by
  simp only [roundWithAccuracy]
  split <;> exact UnpackedFloat.noConfusion

theorem unpack_ofNat_ne_notANumber (number : Nat) : (Float.ofNat number).toModel.unpack ≠ .notANumber := by
  by_cases small : number < 2 ^ 64
  · have finite : (Float.ofNat number).toModel.unpack.isFinite = true := isFinite_ofNat small
    intro indefinite
    rw [indefinite] at finite
    cases finite
  · have long : ¬ (number < 2 ^ 53 ∧ 0 ≤ 22) := by omega
    change (Float.ofScientific number false 0).toModel.unpack ≠ _
    rw [Float.ofScientific, dif_neg long]
    change (Float.Model.pack (UnpackedFloat.ofScientific Format.binary64 number 0)).unpack ≠ _
    rw [ofScientific_eq (by omega)]
    exact unpack_pack_ne_notANumber (roundWithAccuracy_ne_notANumber _ _ _ _)

theorem unpack_neg_ne_notANumber {x : Float} (definite : x.toModel.unpack ≠ .notANumber) :
    (-x).toModel.unpack ≠ .notANumber := by
  refine unpack_pack_ne_notANumber ?_
  generalize x.toModel.unpack = value at definite
  cases value with
  | notANumber => exact absurd rfl definite
  | infinity | zero | finite => exact UnpackedFloat.noConfusion

theorem ofInt_beq_self (number : Int) : (Float.ofInt number == Float.ofInt number) = true := by
  have definite : (Float.ofInt number).toModel.unpack ≠ .notANumber := by
    cases number with
    | ofNat number => exact unpack_ofNat_ne_notANumber number
    | negSucc number => exact unpack_neg_ne_notANumber (unpack_ofNat_ne_notANumber (number + 1))
  change (Float.ofInt number).toModel.unpack.beq (Float.ofInt number).toModel.unpack = true
  rw [beq_iff_ne_notANumber_and_eq]
  exact ⟨definite, definite, .inl rfl⟩

/-! ## Powers of ten -/

theorem le_roundedMantissa (extended : ExtendedMantissa) : extended.mantissa ≤ extended.roundedMantissa := by
  obtain ⟨mantissa, round, sticky⟩ := extended
  cases round <;> cases sticky <;>
    simp only [ExtendedMantissa.roundedMantissa, ExtendedMantissa.accuracy, Accuracy.roundToNearestEven] <;>
    omega

theorem exists_normal_roundWithAccuracy (sign : Sign) (significand : Nat) (exponent : Int)
    (bits : 52 ≤ significand.log2) (least : -1021 ≤ totalExponent significand exponent)
    (most : totalExponent significand exponent ≤ 1023) :
    ∃ rounded scale, ∃ normal : Normal rounded scale,
      roundWithAccuracy Format.binary64 sign significand exponent .exact =
          .finite sign rounded scale normal.pos ∧
        totalExponent significand exponent ≤ 53 + scale := by
  have positive : significand ≠ 0 := by
    rintro rfl
    simp at bits
  obtain ⟨count, length⟩ : ∃ count, significand.log2 = 52 + count := ⟨significand.log2 - 52, by omega⟩
  have target : Format.binary64.targetExponent (totalExponent significand exponent) = exponent + count := by
    simp only [totalExponent, Format.targetExponent, Format.mantissaBits, Format.minExponent] at *
    omega
  have amount : (exponent + (count : Int) - exponent).toNat = count := by omega
  have first : shiftToTargetExponent Format.binary64 significand exponent .exact =
      (ExtendedMantissa.mk significand false false >>> count, exponent + count) := by
    simp only [shiftToTargetExponent, target, shiftToExponent, amount, ExtendedMantissa.ofMantissaAndAccuracy]
  obtain ⟨lower, upper⟩ := (Nat.log2_eq_iff positive).mp length
  have above := le_roundedMantissa (ExtendedMantissa.mk significand false false >>> count)
  have below := roundedMantissa_le (ExtendedMantissa.mk significand false false >>> count)
  rw [mantissa_shiftRight] at above below
  change significand / 2 ^ count ≤ _ at above
  change _ ≤ significand / 2 ^ count + 1 at below
  have full : 2 ^ 52 ≤ significand / 2 ^ count := by
    rwa [Nat.le_div_iff_mul_le (Nat.two_pow_pos count), ← Nat.pow_add]
  have fits : significand / 2 ^ count < 2 ^ 53 := by
    rwa [Nat.div_lt_iff_lt_mul (Nat.two_pow_pos count), ← Nat.pow_add, show 53 + count = 52 + count + 1 by omega]
  simp only [totalExponent, length] at least most ⊢
  generalize rounding : (ExtendedMantissa.mk significand false false >>> count).roundedMantissa = rounded at *
  by_cases short : rounded < 2 ^ 53
  · have normal : Normal rounded (exponent + count) := ⟨by omega, short, by omega, by omega⟩
    have settled := normal.shiftToTargetExponent_eq 0
    rw [pow_zero, mul_one, Nat.cast_zero, sub_zero] at settled
    refine ⟨rounded, exponent + count, normal, ?_, by omega⟩
    simp only [roundWithAccuracy, first, rounding, settled, normal.pos.ne', dite_false]
  · -- The number grew by a bit, which goes again.
    have normal : Normal (2 ^ 52) (exponent + count + 1) := ⟨by omega, by omega, by omega, by omega⟩
    have settled := normal.shiftToTargetExponent_eq 1
    have grown : rounded = 2 ^ 52 * 2 ^ 1 := by omega
    rw [← grown, Nat.cast_one, add_sub_cancel_right] at settled
    refine ⟨2 ^ 52, exponent + count + 1, normal, ?_, by omega⟩
    simp only [roundWithAccuracy, first, rounding, settled, normal.pos.ne', dite_false]

theorem ofScientific_power {exponent : Nat} (bounded : exponent ≤ 308) :
    UnpackedFloat.ofScientific Format.binary64 1 exponent =
      roundWithAccuracy Format.binary64 .positive (1 <<< 53 * 10 ^ exponent) (-53) .exact := by
  have usual : ¬ (exponent : Int) > 2 ^ Format.binary64.exponentBits := by
    change ¬ (exponent : Int) > 2048
    omega
  have reached : ¬ (exponent : Int) < -((2 ^ Format.binary64.exponentBits : Int) + Nat.log2 1) := by
    change ¬ (exponent : Int) < -(2048 + (Nat.log2 1 : Int))
    omega
  rw [UnpackedFloat.ofScientific, dif_neg Nat.one_ne_zero, if_neg usual, if_neg reached,
    if_pos (Int.natCast_nonneg exponent)]
  rfl

theorem atLeastEight_power {exponent : Nat} (positive : exponent ≠ 0) (bounded : exponent ≤ 308) :
    atLeastEight (Float.ofScientific 1 false exponent).toModel.unpack = true := by
  by_cases small : exponent ≤ 22
  · have table : ∀ exponent ≤ 22, exponent ≠ 0 →
        atLeastEight (Float.ofScientific 1 false exponent).toModel.unpack = true := by decide +kernel
    exact table exponent small positive
  · by_cases last : exponent = 308
    · rw [last]
      decide +kernel
    · obtain ⟨tens, bits, tens_eq, bits_eq, size⟩ : ∃ tens bits, tens = 307 ∧ bits = 1023 ∧ 10 ^ tens < 2 ^ bits :=
        ⟨307, 1023, rfl, rfl, by decide +kernel⟩
      have least : 10 ^ 1 ≤ 10 ^ exponent := Nat.pow_le_pow_right (by decide) (by omega)
      have most : 10 ^ exponent < 2 ^ bits :=
        Nat.lt_of_le_of_lt (Nat.pow_le_pow_right (by decide) (by omega)) size
      have unit : 1 <<< 53 = 2 ^ 53 := rfl
      have lower : 2 ^ (53 + 3) ≤ 1 <<< 53 * 10 ^ exponent := by
        rw [unit, Nat.pow_add]
        exact Nat.mul_le_mul_left _ (Nat.le_trans (by decide) least)
      have upper : 1 <<< 53 * 10 ^ exponent < 2 ^ (53 + bits) := by
        rw [unit, Nat.pow_add]
        exact Nat.mul_lt_mul_of_pos_left most (by decide)
      have product := ofScientific_power bounded
      generalize 1 <<< 53 * 10 ^ exponent = significand at lower upper product
      have some : significand ≠ 0 := by
        rintro rfl
        exact absurd lower (by decide)
      have low := (Nat.le_log2 some).mpr lower
      have high := (Nat.log2_lt some).mpr upper
      clear lower upper size least most
      obtain ⟨rounded, scale, normal, rounding, large⟩ :=
        exists_normal_roundWithAccuracy .positive significand (-53) (by omega)
          (by rw [totalExponent]; omega) (by rw [totalExponent]; omega)
      rw [Float.ofScientific, dif_neg fun both => small both.2]
      change atLeastEight (Float.Model.unpack (.pack (UnpackedFloat.ofScientific Format.binary64 1 exponent))) = true
      rw [product, rounding]
      have back : Float.Model.unpack (.pack (.finite .positive rounded scale normal.pos)) =
          .finite .positive rounded scale normal.pos := normal.unpack_pack .positive
      have bits := normal.log2_eq 0
      rw [pow_zero, mul_one] at bits
      rw [back, atLeastEight, decide_eq_true_eq, totalExponent, bits]
      rw [totalExponent] at large
      omega

end BranchingStory
