import BranchingStory.Decimal.Binary
import Mathlib

/-!
Whole floats. What a float that is whole comes to as a whole number, turned into a float again, is equal to
it: such a number has no more than 53 significant bits, so nothing is rounded.
-/

namespace BranchingStory

open Float.Model (Format totalExponent UnpackedFloat)
open Float.Model.UnpackedFloat

/-- The significand and the exponent of a float of 64 bits that is not among the least. -/
structure Normal (significand : Nat) (exponent : Int) : Prop where
  full : 2 ^ 52 ≤ significand
  fits : significand < 2 ^ 53
  least : -1074 ≤ exponent
  most : exponent ≤ 971

namespace Normal

variable {significand : Nat} {exponent : Int}

theorem pos (normal : Normal significand exponent) : 0 < significand := by
  have full := normal.full
  omega

/-! ## Rounding -/

theorem log2_eq (normal : Normal significand exponent) (count : Nat) :
    (significand * 2 ^ count).log2 = 52 + count := by
  have power : 0 < 2 ^ count := Nat.two_pow_pos count
  have positive : significand * 2 ^ count ≠ 0 := (Nat.mul_pos normal.pos power).ne'
  rw [Nat.log2_eq_iff positive, Nat.pow_add, Nat.add_right_comm, Nat.pow_add]
  exact ⟨Nat.mul_le_mul_right _ normal.full, Nat.mul_lt_mul_of_pos_right normal.fits power⟩

theorem targetExponent_eq (normal : Normal significand exponent) (count : Nat) :
    Format.binary64.targetExponent (totalExponent (significand * 2 ^ count) (exponent - count)) =
      exponent := by
  have least := normal.least
  rw [totalExponent, normal.log2_eq, Format.targetExponent]
  simp only [Format.mantissaBits, Format.minExponent]
  omega

theorem shiftRight_eq (significand count : Nat) :
    (⟨significand * 2 ^ count, false, false⟩ : ExtendedMantissa) >>> count =
      ⟨significand, false, false⟩ := by
  change count.repeat ExtendedMantissa.shiftRightOne _ = _
  induction count generalizing significand with
  | zero => rw [pow_zero, mul_one]; rfl
  | succ count ih =>
      have doubled : significand * 2 ^ (count + 1) = 2 * significand * 2 ^ count := by ring
      rw [Nat.repeat, doubled, ih, ExtendedMantissa.shiftRightOne]
      simp

theorem shiftToTargetExponent_eq (normal : Normal significand exponent) (count : Nat) :
    shiftToTargetExponent Format.binary64 (significand * 2 ^ count) (exponent - count) .exact =
      (⟨significand, false, false⟩, exponent) := by
  rw [shiftToTargetExponent, normal.targetExponent_eq, shiftToExponent]
  have amount : (exponent - (exponent - count)).toNat = count := by omega
  simp only [amount, ExtendedMantissa.ofMantissaAndAccuracy, shiftRight_eq]
  simp

theorem roundWithAccuracy_eq (normal : Normal significand exponent) (sign : Sign) (count : Nat) :
    roundWithAccuracy Format.binary64 sign (significand * 2 ^ count) (exponent - count) .exact =
      .finite sign significand exponent normal.pos := by
  have settled := normal.shiftToTargetExponent_eq 0
  rw [pow_zero, mul_one, Nat.cast_zero, sub_zero] at settled
  rw [roundWithAccuracy, normal.shiftToTargetExponent_eq]
  simp only [ExtendedMantissa.roundedMantissa, ExtendedMantissa.accuracy, Accuracy.roundToNearestEven,
    settled, normal.pos.ne', dite_false]

/-! ## Bits -/

theorem toNat_one_append (bits : BitVec 52) : (1#1 ++ bits).toNat = 2 ^ 52 + bits.toNat := by
  rw [BitVec.toNat_append, Nat.shiftLeft_eq]
  change 2 ^ 52 ||| bits.toNat = _
  rw [Nat.or_comm, Nat.or_two_pow_eq_add_of_lt bits.isLt, Nat.add_comm]

def biased (exponent : Int) : Nat := (exponent + 1075).toNat

theorem pack_eq (normal : Normal significand exponent) (sign : Sign) :
    pack Format.binary64 (.finite sign significand exponent normal.pos) =
      packComponents Format.binary64 sign (BitVec.ofNat 11 (biased exponent))
        (BitVec.ofNat 52 significand) := by
  have most := normal.most
  have log : significand.log2 = 52 := by
    have shifted := normal.log2_eq 0
    rwa [pow_zero, mul_one] at shifted
  have biased_eq : (exponent + Format.binary64.exponentBias +
      Format.binary64.mantissaBitsWithoutImplicit).toNat = biased exponent := by
    change (exponent + 1023 + 52).toNat = (exponent + 1075).toNat
    omega
  have bounded : ¬ 2 ^ Format.binary64.exponentBits ≤ biased exponent + 1 := by
    change ¬ 2048 ≤ (exponent + 1075).toNat + 1
    omega
  simp only [pack, biased_eq, if_neg bounded, log]
  exact if_pos rfl

theorem unpack_pack (normal : Normal significand exponent) (sign : Sign) :
    unpack Format.binary64 (pack Format.binary64 (.finite sign significand exponent normal.pos)) =
      .finite sign significand exponent normal.pos := by
  have full := normal.full
  have fits := normal.fits
  have least := normal.least
  have most := normal.most
  have range : (BitVec.ofNat 11 (biased exponent)).toNat = biased exponent := by
    change (exponent + 1075).toNat % 2 ^ 11 = (exponent + 1075).toNat
    omega
  have finite : BitVec.ofNat 11 (biased exponent) ≠ 2047#11 := by
    intro same
    have bits : biased exponent = 2047 := by rw [← range, same]; rfl
    simp only [biased] at bits
    omega
  have usual : BitVec.ofNat 11 (biased exponent) ≠ 0#11 := by
    intro same
    have bits : biased exponent = 0 := by rw [← range, same]; rfl
    simp only [biased] at bits
    omega
  have back : ((biased exponent : Nat) : Int) - (Format.binary64.exponentBias + 52) = exponent := by
    change (((exponent + 1075).toNat : Nat) : Int) - (1023 + 52) = exponent
    omega
  have filled : (1#1 ++ BitVec.ofNat 52 significand).toNat = significand := by
    rw [toNat_one_append, BitVec.toNat_ofNat]
    omega
  rw [normal.pack_eq, unpack]
  simp [finite, usual, range, back, filled]

/-! ## Whole numbers as floats -/

section

variable {count number : Nat}

theorem log2_number (normal : Normal significand exponent) (small : count ≤ 52)
    (whole : number * 2 ^ (52 - count) = significand) : number.log2 = count := by
  have power : 0 < 2 ^ (52 - count) := Nat.two_pow_pos _
  have split : 2 ^ count * 2 ^ (52 - count) = 2 ^ 52 := by rw [← Nat.pow_add]; congr 1; omega
  have full := normal.full
  have fits := normal.fits
  have positive : number ≠ 0 := by
    rintro rfl
    omega
  rw [Nat.log2_eq_iff positive]
  constructor
  · refine Nat.le_of_mul_le_mul_right ?_ power
    omega
  · refine Nat.lt_of_mul_lt_mul_right (a := 2 ^ (52 - count)) ?_
    rw [Nat.pow_succ, Nat.mul_right_comm]
    omega

theorem ofNat_eq (normal : Normal significand exponent) (small : count ≤ 52) (shift : exponent = count - 52)
    (whole : number * 2 ^ (52 - count) = significand) :
    UnpackedFloat.ofNat Format.binary64 number = .finite .positive significand exponent normal.pos := by
  have positive : 0 < number := by
    have pos := normal.pos
    rw [← whole] at pos
    exact Nat.pos_of_mul_pos_right pos
  have greater : compare (number : Int) 0 = .gt := by
    rw [Int.compare_eq_gt]
    omega
  have target : Format.binary64.targetExponent (totalExponent number 0) = exponent := by
    rw [totalExponent, normal.log2_number small whole, Format.targetExponent]
    simp only [Format.mantissaBits, Format.minExponent]
    omega
  have amount : (0 - exponent).toNat = 52 - count := by omega
  have lowered : (0 : Int) - ((52 - count : Nat) : Int) = exponent := by omega
  have settled := normal.roundWithAccuracy_eq .positive 0
  rw [pow_zero, mul_one, Nat.cast_zero, sub_zero] at settled
  simp only [UnpackedFloat.ofNat, UnpackedFloat.ofInt, UnpackedFloat.normalize, greater, UnpackedFloat.round,
    Int.toNat_natCast, target, decreaseExponent, amount, lowered, Nat.shiftLeft_eq, whole, settled]

theorem unpack_toFloat (normal : Normal significand exponent) (small : count ≤ 52)
    (shift : exponent = count - 52) (whole : number * 2 ^ (52 - count) = significand) :
    number.toUInt64.toFloat.toModel.unpack = .finite .positive significand exponent normal.pos := by
  have fits : number.toUInt64.toNat = number := by
    have bound : number ≤ significand := by
      rw [← whole]
      exact Nat.le_mul_of_pos_right _ (Nat.two_pow_pos _)
    have below := normal.fits
    change number % 2 ^ 64 = number
    omega
  change unpack Format.binary64 (pack Format.binary64
    (UnpackedFloat.ofNat Format.binary64 number.toUInt64.toNat)) = _
  rw [fits, normal.ofNat_eq small shift whole, normal.unpack_pack]

theorem fast_toModel (normal : Normal significand exponent) (small : count ≤ 52)
    (shift : exponent = count - 52) (whole : number * 2 ^ (52 - count) = significand) :
    (number.toUInt64.toFloat * Float.ofBits 0x3FF0000000000000).toModel =
      .pack (.finite .positive significand exponent normal.pos) := by
  have right : (Float.ofBits 0x3FF0000000000000).toModel.unpack =
      .finite .positive (2 ^ 52) (-52) (by decide) := rfl
  have product := normal.roundWithAccuracy_eq .positive 52
  change Float.Model.pack (UnpackedFloat.mul Format.binary64 number.toUInt64.toFloat.toModel.unpack
    (Float.ofBits 0x3FF0000000000000).toModel.unpack) = _
  rw [normal.unpack_toFloat small shift whole, right]
  exact congrArg Float.Model.pack product

theorem slow_eq (normal : Normal significand exponent) (shift : exponent = count - 52)
    (whole : number * 2 ^ 53 = significand * 2 ^ (count + 1)) :
    UnpackedFloat.ofScientific Format.binary64 number 0 =
      .finite .positive significand exponent normal.pos := by
  have positive : number ≠ 0 := by
    rintro rfl
    have raised := Nat.mul_pos normal.pos (Nat.two_pow_pos (count + 1))
    omega
  have product := normal.roundWithAccuracy_eq .positive (count + 1)
  have lowered : exponent - ((count + 1 : Nat) : Int) = -53 := by omega
  rw [← whole, lowered] at product
  have usual : ¬ (0 : Int) > 2 ^ Format.binary64.exponentBits := by decide
  have reached : ¬ (0 : Int) < -((2 ^ Format.binary64.exponentBits : Int) + number.log2) := by
    change ¬ (0 : Int) < -(2048 + (number.log2 : Int))
    omega
  rw [UnpackedFloat.ofScientific, dif_neg positive, if_neg usual, if_neg reached, if_pos (le_refl 0)]
  change roundWithAccuracy Format.binary64 .positive (number <<< 53 * 1) (-53 + 0) .exact = _
  rw [mul_one, add_zero, Nat.shiftLeft_eq]
  exact product

theorem ofNat_toModel (normal : Normal significand exponent) (shift : exponent = count - 52)
    (whole : number * 2 ^ 52 = significand * 2 ^ count) :
    (Float.ofNat number).toModel = .pack (.finite .positive significand exponent normal.pos) := by
  change (Float.ofScientific number false 0).toModel = _
  -- A number that fits in 53 bits is taken over and multiplied by one; a larger one is rounded from its bits.
  by_cases short : number < 2 ^ 53
  · have small : count ≤ 52 := by
      by_contra large
      have power : 2 ^ 53 ≤ 2 ^ count := Nat.pow_le_pow_right (by decide) (by omega)
      have least := Nat.mul_le_mul normal.full power
      rw [← whole] at least
      omega
    have exact : number * 2 ^ (52 - count) = significand := by
      have split : 2 ^ (52 - count) * 2 ^ count = 2 ^ 52 := by rw [← Nat.pow_add]; congr 1; omega
      refine Nat.eq_of_mul_eq_mul_right (Nat.two_pow_pos count) ?_
      rw [Nat.mul_assoc, split, whole]
    rw [Float.ofScientific, dif_pos ⟨short, by decide⟩]
    exact normal.fast_toModel small shift exact
  · have further : number * 2 ^ 53 = significand * 2 ^ (count + 1) := by
      rw [Nat.pow_succ, ← Nat.mul_assoc, whole, Nat.pow_succ, Nat.mul_assoc]
    rw [Float.ofScientific, dif_neg fun both => short both.1]
    exact congrArg Float.Model.pack (normal.slow_eq shift further)

end

end Normal

/-! ## Whole floats -/

namespace Binary

variable {x : Float} {value : Binary}

def word (x : Float) : BitVec Format.binary64.numBits := x.toModel.toBits.toBitVec

def sign (value : Binary) : Sign := if value.negative then .negative else .positive

theorem toNat_unpackExponent (x : Float) :
    (unpackExponent (word x)).toNat =
      x.toBits.toNat / hiddenBit % 2048 := by
  rw [unpackExponent_def, BitVec.extractLsb'_toNat, Nat.shiftRight_eq_div_pow]
  rfl

theorem toNat_unpackMantissa (x : Float) :
    (unpackMantissa (word x)).toNat =
      x.toBits.toNat % hiddenBit := by
  rw [unpackMantissa_def, BitVec.extractLsb'_toNat, Nat.shiftRight_zero]
  rfl

theorem ofBitVec_unpackSign (x : Float) :
    Sign.ofBitVec (unpackSign (word x)) =
      if x.toBits.toNat / signBit = 1 then .negative else .positive := by
  have bits : (unpackSign (word x)).toNat =
      x.toBits.toNat / signBit % 2 := by
    rw [unpackSign_def, BitVec.extractLsb'_toNat, Nat.shiftRight_eq_div_pow]
    rfl
  have bound : x.toBits.toNat < 2 ^ 64 := x.toBits.toNat_lt
  have top : x.toBits.toNat / signBit % 2 = x.toBits.toNat / signBit := by
    simp only [signBit]
    omega
  rw [top] at bits
  by_cases negative : x.toBits.toNat / signBit = 1
  · have apart : unpackSign (word x) ≠ 0#1 := by
      intro same
      rw [same, negative] at bits
      exact absurd bits (by decide)
    rw [if_pos negative, Sign.ofBitVec, if_neg apart]
  · have same : unpackSign (word x) = 0#1 := by
      apply BitVec.eq_of_toNat_eq
      rw [bits]
      change x.toBits.toNat / signBit = 0
      simp only [signBit] at negative ⊢
      omega
    rw [if_neg negative, same]
    rfl

theorem unpack_normal (x : Float) (bounded : unpackExponent (word x) ≠ -1#11)
    (usual : unpackExponent (word x) ≠ 0#11) :
    x.toModel.unpack =
      .finite (Sign.ofBitVec (unpackSign (word x))) (2 ^ 52 + (unpackMantissa (word x)).toNat)
        ((unpackExponent (word x)).toNat - 1075) (by omega) := by
  change unpack Format.binary64 (word x) = _
  rw [unpack]
  simp only [if_neg bounded, if_neg usual, UnpackedFloat.finite.injEq, true_and]
  exact ⟨Normal.toNat_one_append _, rfl⟩

theorem unpack_zero (x : Float) (least : unpackExponent (word x) = 0#11)
    (none : unpackMantissa (word x) = 0#52) :
    x.toModel.unpack = .zero (Sign.ofBitVec (unpackSign (word x))) := by
  change unpack Format.binary64 (word x) = _
  rw [unpack]
  simp [least, none]

theorem unpack_of_ofFloat? (found : ofFloat? x = some value) :
    (value.significand < 2 ^ 52 ∧ value.exponent = -1074 ∧
        (value.significand = 0 → ∃ sign, x.toModel.unpack = .zero sign)) ∨
      ∃ normal : Normal value.significand value.exponent,
        x.toModel.unpack = .finite value.sign value.significand value.exponent normal.pos := by
  have exponent := toNat_unpackExponent x
  have fraction := toNat_unpackMantissa x
  have below : x.toBits.toNat % hiddenBit < 2 ^ 52 := Nat.mod_lt _ (by decide)
  have range : x.toBits.toNat / hiddenBit % 2048 < 2048 := Nat.mod_lt _ (by decide)
  simp only [ofFloat?] at found
  split at found
  · simp at found
  · rename_i finite
    split at found
    · rename_i least
      obtain rfl := Option.some.inj found
      refine .inl ⟨below, rfl, fun none => ⟨_, unpack_zero x ?_ ?_⟩⟩
      · exact BitVec.eq_of_toNat_eq (exponent.trans least)
      · exact BitVec.eq_of_toNat_eq (fraction.trans none)
    · rename_i usual
      obtain rfl := Option.some.inj found
      have normal : Normal (hiddenBit + x.toBits.toNat % hiddenBit)
          ((x.toBits.toNat / hiddenBit % 2048 : Nat) - 1075) := by
        constructor <;> simp only [hiddenBit] at * <;> omega
      refine .inr ⟨normal, ?_⟩
      have bounded : unpackExponent (word x) ≠ -1#11 := by
        intro same
        rw [same] at exponent
        exact finite exponent.symm
      have some : unpackExponent (word x) ≠ 0#11 := by
        intro same
        rw [same] at exponent
        exact usual exponent.symm
      rw [unpack_normal x bounded some, UnpackedFloat.finite.injEq]
      refine ⟨?_, ?_, ?_⟩
      · rw [ofBitVec_unpackSign, sign]
        simp
      · rw [fraction]
        rfl
      · rw [exponent]

theorem wholeMagnitude?_normal {magnitude : Nat} (normal : Normal value.significand value.exponent)
    (whole : value.wholeMagnitude? = some magnitude) :
    ∃ count : Nat, value.exponent = count - 52 ∧ magnitude * 2 ^ 52 = value.significand * 2 ^ count := by
  have fits := normal.fits
  have pos := normal.pos
  simp only [wholeMagnitude?, Nat.pow_eq] at whole
  split at whole
  · rename_i up
    refine ⟨value.exponent.toNat + 52, by omega, ?_⟩
    rw [← Option.some.inj whole, Nat.pow_add, Nat.mul_assoc]
  · rename_i down
    split at whole
    · rename_i divides
      have multiple : value.significand / 2 ^ (-value.exponent).toNat * 2 ^ (-value.exponent).toNat =
          value.significand := Nat.div_mul_cancel (Nat.dvd_of_mod_eq_zero divides)
      have few : (-value.exponent).toNat ≤ 52 := by
        by_contra many
        have power : 2 ^ 53 ≤ 2 ^ (-value.exponent).toNat := Nat.pow_le_pow_right (by decide) (by omega)
        rw [Nat.div_eq_of_lt (by omega), Nat.zero_mul] at multiple
        omega
      refine ⟨52 - (-value.exponent).toNat, by omega, ?_⟩
      have split : 2 ^ (-value.exponent).toNat * 2 ^ (52 - (-value.exponent).toNat) = 2 ^ 52 := by
        rw [← Nat.pow_add]
        congr 1
        omega
      rw [← Option.some.inj whole, ← split, ← Nat.mul_assoc, multiple]
    · simp at whole

theorem wholeMagnitude?_least {magnitude : Nat} (below : value.significand < 2 ^ 52)
    (least : value.exponent = -1074) (whole : value.wholeMagnitude? = some magnitude) :
    value.significand = 0 ∧ magnitude = 0 := by
  have small : value.significand < 2 ^ (-value.exponent).toNat :=
    Nat.lt_of_lt_of_le below (Nat.pow_le_pow_right (by decide) (by omega))
  simp only [wholeMagnitude?, Nat.pow_eq] at whole
  split at whole
  · omega
  · split at whole
    · rename_i divides
      rw [Nat.mod_eq_of_lt small] at divides
      rw [Nat.div_eq_of_lt small] at whole
      exact ⟨divides, (Option.some.inj whole).symm⟩
    · simp at whole

end Binary

theorem ofInt_toModel {significand : Nat} {exponent : Int} {count magnitude : Nat}
    (normal : Normal significand exponent) (shift : exponent = count - 52)
    (whole : magnitude * 2 ^ 52 = significand * 2 ^ count) (negative : Bool) :
    (Float.ofInt (if negative then -(magnitude : Int) else magnitude)).toModel.unpack =
      .finite (if negative then .negative else .positive) significand exponent normal.pos := by
  have plain : (Float.ofNat magnitude).toModel.unpack =
      .finite .positive significand exponent normal.pos := by
    rw [normal.ofNat_toModel shift whole]
    exact normal.unpack_pack .positive
  cases negative with
  | false => exact plain
  | true =>
      have positive : 0 < magnitude := by
        have raised := Nat.mul_pos normal.pos (Nat.two_pow_pos count)
        rw [← whole] at raised
        exact Nat.pos_of_mul_pos_right raised
      obtain ⟨before, rfl⟩ : ∃ before, magnitude = before + 1 := ⟨magnitude - 1, by omega⟩
      change Float.Model.unpack (.pack (Float.ofNat (before + 1)).toModel.unpack.neg) = _
      rw [plain]
      exact normal.unpack_pack .negative

theorem ofInt_beq_of_wholeNumber? {x : Float} {whole : Int} (found : wholeNumber? x = some whole) :
    (Float.ofInt whole == x) = true := by
  simp only [wholeNumber?, Option.bind_eq_bind, Option.bind_eq_some_iff, pure, Option.some.injEq] at found
  obtain ⟨value, read, magnitude, measured, rfl⟩ := found
  change (Float.ofInt _).toModel.unpack.beq x.toModel.unpack = true
  rcases Binary.unpack_of_ofFloat? read with ⟨below, least, zero⟩ | ⟨normal, unpacked⟩
  · obtain ⟨none, rfl⟩ := Binary.wholeMagnitude?_least below least measured
    obtain ⟨sign, unpacked⟩ := zero none
    have start : (Float.ofInt 0).toModel.unpack = .zero .positive := rfl
    have vanishes : (if value.negative then -((0 : Nat) : Int) else (0 : Nat)) = 0 := by simp
    rw [vanishes, start, unpacked]
    cases sign <;> rfl
  · obtain ⟨count, shift, exact⟩ := Binary.wholeMagnitude?_normal normal measured
    rw [ofInt_toModel normal shift exact, unpacked, beq_iff_ne_notANumber_and_eq]
    exact ⟨by simp, by simp, .inl rfl⟩

end BranchingStory
