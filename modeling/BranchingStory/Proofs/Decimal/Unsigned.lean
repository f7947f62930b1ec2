import BranchingStory.Proofs.Decimal.Nearest

/-!
Numerals without a sign. What they are read as has no sign either, so a zero among them is the one without; and it is
a number, as it is for all numerals.
-/

namespace BranchingStory

open Float.Model (Format UnpackedFloat)
open Float.Model.UnpackedFloat

inductive Unsigned : UnpackedFloat → Prop
  | notANumber : Unsigned .notANumber
  | infinity : Unsigned (.infinity .positive)
  | zero : Unsigned (.zero .positive)
  | finite {significand : Nat} {exponent : Int} {positive : 0 < significand} :
      Unsigned (.finite .positive significand exponent positive)

namespace Unsigned

variable {value left right : UnpackedFloat}

theorem roundWithAccuracy (significand : Nat) (exponent : Int) (accuracy : Accuracy) :
    Unsigned (roundWithAccuracy Format.binary64 .positive significand exponent accuracy) := by
  simp only [UnpackedFloat.roundWithAccuracy]
  split
  · exact .zero
  · exact .finite

theorem mul (first : Unsigned left) (second : Unsigned right) : Unsigned (left.mul Format.binary64 right) := by
  cases first with
  | notANumber => exact .notANumber
  | infinity =>
      cases second with
      | notANumber | zero => exact .notANumber
      | infinity | finite => exact .infinity
  | zero =>
      cases second with
      | notANumber | infinity => exact .notANumber
      | zero | finite => exact .zero
  | finite =>
      cases second with
      | notANumber => exact .notANumber
      | infinity => exact .infinity
      | zero => exact .zero
      | finite => exact roundWithAccuracy _ _ _

theorem div (first : Unsigned left) (second : Unsigned right) : Unsigned (left.div Format.binary64 right) := by
  cases first with
  | notANumber => exact .notANumber
  | infinity =>
      cases second with
      | notANumber | infinity => exact .notANumber
      | zero | finite => exact .infinity
  | zero =>
      cases second with
      | notANumber | zero => exact .notANumber
      | infinity | finite => exact .zero
  | finite =>
      cases second with
      | notANumber => exact .notANumber
      | infinity => exact .zero
      | zero => exact .infinity
      | finite => exact roundWithAccuracy _ _ _

theorem unpack_packComponents (exponent : BitVec 11) (mantissa : BitVec 52) :
    Unsigned (unpack Format.binary64 (packComponents Format.binary64 .positive exponent mantissa)) := by
  simp only [unpack, unpackSign_packComponents, Sign.ofBitVec_toBitVec]
  split
  · split
    · exact .infinity
    · exact .notANumber
  · split
    · split
      · exact .zero
      · exact .finite
    · exact .finite

theorem unpack_pack (unsigned : Unsigned value) : Unsigned (Float.Model.pack value).unpack := by
  change Unsigned (unpack Format.binary64 (pack Format.binary64 value))
  cases unsigned with
  | notANumber =>
      have indefinite : unpack Format.binary64 (packedNaN Format.binary64) = .notANumber := unpack_packedNaN
      exact indefinite.symm ▸ .notANumber
  | infinity | zero => exact unpack_packComponents _ _
  | finite =>
      simp only [pack]
      split
      · exact unpack_packComponents _ _
      · split
        · exact unpack_packComponents _ _
        · exact unpack_packComponents _ _

section

variable {sign : Sign} {significand : Nat} {exponent : Int} {positive : 0 < significand}

theorem mul_finite_ne_notANumber (definite : value ≠ .notANumber) :
    value.mul Format.binary64 (.finite sign significand exponent positive) ≠ .notANumber := by
  cases value with
  | notANumber => exact absurd rfl definite
  | infinity | zero => exact UnpackedFloat.noConfusion
  | finite => exact roundWithAccuracy_ne_notANumber _ _ _ _

theorem div_finite_ne_notANumber (definite : value ≠ .notANumber) :
    value.div Format.binary64 (.finite sign significand exponent positive) ≠ .notANumber := by
  cases value with
  | notANumber => exact absurd rfl definite
  | infinity | zero => exact UnpackedFloat.noConfusion
  | finite => exact roundWithAccuracy_ne_notANumber _ _ _ _

end

theorem model_ofScientific (digits : Nat) (power : Int) :
    Unsigned (UnpackedFloat.ofScientific Format.binary64 digits power) ∧
      UnpackedFloat.ofScientific Format.binary64 digits power ≠ .notANumber := by
  rw [UnpackedFloat.ofScientific]
  split
  · exact ⟨.zero, UnpackedFloat.noConfusion⟩
  · split
    · exact ⟨.infinity, UnpackedFloat.noConfusion⟩
    · split
      · exact ⟨.zero, UnpackedFloat.noConfusion⟩
      · split
        · exact ⟨mul .finite .finite, mul_finite_ne_notANumber UnpackedFloat.noConfusion⟩
        · exact ⟨div .finite .finite, div_finite_ne_notANumber UnpackedFloat.noConfusion⟩

theorem toFloat_toUInt64 {digits : Nat} (short : digits < 2 ^ 53) :
    Unsigned digits.toUInt64.toFloat.toModel.unpack ∧ digits.toUInt64.toFloat.toModel.unpack ≠ .notANumber := by
  by_cases none : digits = 0
  · subst none
    have zero : (0 : Nat).toUInt64.toFloat.toModel.unpack = .zero .positive := rfl
    rw [zero]
    exact ⟨.zero, UnpackedFloat.noConfusion⟩
  · have bits : digits.log2 < 53 := (Nat.log2_lt none).mpr short
    rw [(normal_of_lt none short).unpack_toFloat (Nat.lt_succ_iff.mp bits) rfl rfl]
    exact ⟨.finite, UnpackedFloat.noConfusion⟩

theorem exists_pack_ofScientific (digits : Nat) (negative : Bool) (power : Nat) :
    ∃ value, (Float.ofScientific digits negative power).toModel = .pack value ∧ Unsigned value ∧
      value ≠ .notANumber := by
  by_cases fast : digits < 2 ^ 53 ∧ power ≤ 22
  · obtain ⟨_, held⟩ := Array.getElem?_eq_some_iff.mp (exactlyRepresentablePowersOfTen_eq fast.2)
    obtain ⟨_, _, _, -, -, scale⟩ := exists_normal_power fast.2
    obtain ⟨digit, definite⟩ := toFloat_toUInt64 fast.1
    have scaled : Unsigned (Float.ofScientific 1 false power).toModel.unpack := scale.symm ▸ .finite
    rw [Float.ofScientific, dif_pos fast, held]
    split
    · exact ⟨_, rfl, div digit scaled, scale ▸ div_finite_ne_notANumber definite⟩
    · exact ⟨_, rfl, mul digit scaled, scale ▸ mul_finite_ne_notANumber definite⟩
  · rw [Float.ofScientific, dif_neg fast]
    exact ⟨_, rfl, model_ofScientific digits _⟩

end Unsigned

namespace Numeral

variable {numeral : Numeral}

theorem nearest_unsigned (digits width : Nat) (exponent : Int) :
    Unsigned (nearest digits width exponent).toModel.unpack ∧
      (nearest digits width exponent).toModel.unpack ≠ .notANumber := by
  have zero : (0 : Float).toModel.unpack = .zero .positive := rfl
  rw [nearest]
  split
  · rw [zero]
    exact ⟨.zero, UnpackedFloat.noConfusion⟩
  · split
    · have infinite : (Float.ofBits 0x7FF0000000000000).toModel.unpack = .infinity .positive := rfl
      rw [infinite]
      exact ⟨.infinity, UnpackedFloat.noConfusion⟩
    · split
      · rw [zero]
        exact ⟨.zero, UnpackedFloat.noConfusion⟩
      · obtain ⟨value, packed, unsigned, definite⟩ :=
          Unsigned.exists_pack_ofScientific digits (exponent < 0) exponent.natAbs
        rw [packed]
        exact ⟨unsigned.unpack_pack, unpack_pack_ne_notANumber definite⟩

theorem unsigned_toFloat (positive : numeral.negative = false) : Unsigned numeral.toFloat.toModel.unpack := by
  rw [toFloat]
  simp only [positive, Bool.false_eq_true, if_false]
  exact (nearest_unsigned _ _ _).1

theorem toFloat_ne_notANumber (numeral : Numeral) : numeral.toFloat.toModel.unpack ≠ .notANumber := by
  rw [toFloat]
  have magnitude := (nearest_unsigned (value (numeral.whole ++ numeral.fraction))
    ((numeral.whole ++ numeral.fraction).dropWhile (· = '0')).length
    (numeral.exponent - numeral.fraction.length)).2
  cases numeral.negative with
  | false => exact magnitude
  | true => exact unpack_neg_ne_notANumber magnitude

end Numeral

theorem eq_of_beq_of_unsigned {x y : Float} (same : (x == y) = true) (first : Unsigned x.toModel.unpack)
    (second : y ≠ -0) : x = y := by
  change x.toModel.unpack.beq y.toModel.unpack = true at same
  rw [beq_iff_ne_notANumber_and_eq] at same
  obtain ⟨-, -, same | ⟨-, negative⟩ | ⟨negative, -⟩⟩ := same
  · have packed := congrArg Float.Model.pack same
    rw [← toModel_eq_pack, ← toModel_eq_pack] at packed
    exact congrArg Float.ofModel packed
  · refine absurd (congrArg Float.ofModel ((toModel_eq_pack y).trans ?_)) second
    rw [negative]
    exact Binary.model_eq_of_bits (by decide +kernel)
  · rw [negative] at first
    cases first

end BranchingStory
