import BranchingStory.Proofs.Decimal.Division

/-!
Decimals that are rounded to a given float, the least floats among them. A decimal that lies in the interval of a
float is read as that float, however many digits it has and wherever its point stands.
-/

namespace BranchingStory

open Float.Model (Format totalExponent UnpackedFloat)
open Float.Model.UnpackedFloat

variable {significand numerator denominator : Nat} {exponent : Int}

/-- The significand and the exponent of a float other than zero. Only the least exponent goes with less than 53 bits. -/
structure Canonical (significand : Nat) (exponent : Int) : Prop where
  pos : 0 < significand
  fits : significand < 2 ^ 53
  least : -1074 ≤ exponent
  most : exponent ≤ 971
  full : -1074 < exponent → 2 ^ 52 ≤ significand

theorem Normal.canonical (normal : Normal significand exponent) : Canonical significand exponent where
  pos := normal.pos
  fits := normal.fits
  least := normal.least
  most := normal.most
  full := fun _ => normal.full

namespace Canonical

theorem normal (canonical : Canonical significand exponent) (full : 2 ^ 52 ≤ significand) :
    Normal significand exponent :=
  ⟨full, canonical.fits, canonical.least, canonical.most⟩

/-! ## Bits -/

theorem unpack_pack (canonical : Canonical significand exponent) (sign : Sign) :
    unpack Format.binary64 (pack Format.binary64 (.finite sign significand exponent canonical.pos)) =
      .finite sign significand exponent canonical.pos := by
  by_cases full : 2 ^ 52 ≤ significand
  · exact (canonical.normal full).unpack_pack sign
  · obtain rfl : exponent = -1074 := by
      have low := canonical.least
      have high := canonical.full
      omega
    have pos := canonical.pos
    have bits : significand.log2 < 52 := (Nat.log2_lt pos.ne').mpr (Nat.not_le.mp full)
    have short : ¬ significand.log2 + 1 = Format.binary64.mantissaBits := by
      change ¬ significand.log2 + 1 = 53
      omega
    have room : ¬ 2 ^ Format.binary64.exponentBits ≤
        ((-1074 : Int) + Format.binary64.exponentBias + Format.binary64.mantissaBitsWithoutImplicit).toNat + 1 := by
      decide
    have digits : (BitVec.ofNat 52 significand).toNat = significand := by
      rw [BitVec.toNat_ofNat]
      omega
    have some : BitVec.ofNat 52 significand ≠ 0#52 := by
      intro none
      rw [none] at digits
      exact pos.ne digits
    simp only [pack, if_neg room, if_neg short, unpack, unpackExponent_packComponents, unpackMantissa_packComponents,
      unpackSign_packComponents, Sign.ofBitVec_toBitVec]
    have finite : 0#11 ≠ -1#11 := by decide
    simp only [if_neg finite, if_true, dif_neg some, UnpackedFloat.finite.injEq, digits, true_and]
    decide

end Canonical

namespace Binary

variable {x : Float} {value : Binary}

theorem unpack_least (x : Float) (least : unpackExponent (word x) = 0#11) (some : unpackMantissa (word x) ≠ 0#52) :
    ∃ positive, x.toModel.unpack =
      .finite (Sign.ofBitVec (unpackSign (word x))) (unpackMantissa (word x)).toNat (-1074) positive := by
  have finite : 0#11 ≠ -1#11 := by decide
  have positive : 0 < (unpackMantissa (word x)).toNat := by
    refine Nat.pos_of_ne_zero fun none => some ?_
    exact BitVec.eq_of_toNat_eq none
  refine ⟨positive, ?_⟩
  change unpack Format.binary64 (word x) = _
  simp only [unpack, least, if_neg finite, if_true, dif_neg some, UnpackedFloat.finite.injEq, true_and]
  decide

theorem unpack_canonical (found : ofFloat? x = some value) (some : value.significand ≠ 0) :
    ∃ canonical : Canonical value.significand value.exponent,
      x.toModel.unpack = .finite value.sign value.significand value.exponent canonical.pos := by
  rcases unpack_of_ofFloat? found with ⟨below, least, -⟩ | ⟨normal, unpacked⟩
  · have exponents := toNat_unpackExponent x
    have mantissas := toNat_unpackMantissa x
    have canonical : Canonical value.significand value.exponent :=
      ⟨Nat.pos_of_ne_zero some, by omega, by omega, by omega, by omega⟩
    refine ⟨canonical, ?_⟩
    simp only [ofFloat?] at found
    split at found
    · simp at found
    · split at found
      · rename_i zero
        obtain rfl := Option.some.inj found
        have lowest : unpackExponent (word x) = 0#11 := BitVec.eq_of_toNat_eq (exponents.trans zero)
        have filled : unpackMantissa (word x) ≠ 0#52 := by
          intro none
          rw [none] at mantissas
          exact some mantissas.symm
        obtain ⟨positive, unpacked⟩ := unpack_least x lowest filled
        rw [unpacked, UnpackedFloat.finite.injEq]
        refine ⟨?_, mantissas, rfl⟩
        rw [ofBitVec_unpackSign, sign]
        simp
      · obtain rfl := Option.some.inj found
        simp only [hiddenBit] at below
        omega
  · exact ⟨normal.canonical, unpacked⟩

end Binary

theorem toModel_eq_pack (x : Float) : x.toModel = .pack x.toModel.unpack := by
  refine Binary.model_eq_of_bits ?_
  exact congrArg BitVec.toNat (pack_unpack_of_valid x.toModel.valid).symm

section

variable {x magnitude : Float} {value : Binary}

theorem Canonical.eq_self (canonical : Canonical value.significand value.exponent)
    (found : Binary.ofFloat? x = some value) (positive : ¬ value.negative = true)
    (same : magnitude.toModel = .pack (.finite .positive value.significand value.exponent canonical.pos)) :
    x = magnitude := by
  have unpacked := (Binary.unpack_canonical found canonical.pos.ne').2
  rw [Binary.sign, if_neg positive] at unpacked
  exact congrArg Float.ofModel ((toModel_eq_pack x).trans ((congrArg Float.Model.pack unpacked).trans same.symm))

theorem Canonical.eq_neg (canonical : Canonical value.significand value.exponent)
    (found : Binary.ofFloat? x = some value) (negative : value.negative = true)
    (same : magnitude.toModel = .pack (.finite .positive value.significand value.exponent canonical.pos)) :
    x = -magnitude := by
  have unpacked := (Binary.unpack_canonical found canonical.pos.ne').2
  rw [Binary.sign, if_pos negative] at unpacked
  refine congrArg Float.ofModel ((toModel_eq_pack x).trans ?_)
  change Float.Model.pack x.toModel.unpack = Float.Model.pack magnitude.toModel.unpack.neg
  rw [unpacked, same]
  exact congrArg (fun number => Float.Model.pack number.neg) (canonical.unpack_pack .positive).symm

theorem Binary.eq_of_magnitude (found : ofFloat? x = some value)
    (zero : value.significand = 0 → magnitude.toBits.toNat = 0)
    (same : ∀ canonical : Canonical value.significand value.exponent,
      magnitude.toModel = .pack (.finite .positive value.significand value.exponent canonical.pos)) :
    x = if value.negative then -magnitude else magnitude := by
  by_cases none : value.significand = 0
  · obtain rfl : magnitude = Float.ofNat 0 :=
      congrArg Float.ofModel (model_eq_of_bits ((zero none).trans (by decide +kernel)))
    have bits := bits_of_ofFloat?_zero found none
    split
    · rename_i negative
      rw [if_pos negative] at bits
      exact congrArg Float.ofModel (model_eq_of_bits (bits.trans (by decide +kernel)))
    · rename_i positive
      rw [if_neg positive] at bits
      exact congrArg Float.ofModel (model_eq_of_bits (bits.trans (by decide +kernel)))
  · obtain ⟨canonical, -⟩ := unpack_canonical found none
    split
    · rename_i negative
      exact canonical.eq_neg found negative (same canonical)
    · rename_i positive
      exact canonical.eq_self found positive (same canonical)

end

/-! ## Rounding -/

theorem shiftToTargetExponent_least (fits : significand < 2 ^ 53) (accuracy : Accuracy) :
    shiftToTargetExponent Format.binary64 significand (-1074) accuracy =
      (.ofMantissaAndAccuracy significand accuracy, -1074) := by
  have bits : significand.log2 ≤ 52 := by
    by_cases none : significand = 0
    · simp [none]
    · exact Nat.lt_succ_iff.mp ((Nat.log2_lt none).mpr fits)
  have target : Format.binary64.targetExponent (totalExponent significand (-1074)) = -1074 := by
    rw [totalExponent, Format.targetExponent]
    simp only [Format.mantissaBits, Format.minExponent]
    omega
  rw [shiftToTargetExponent, target, shiftToExponent]
  rfl

theorem roundWithAccuracy_least (sign : Sign) (pos : 0 < significand) (fits : significand < 2 ^ 53)
    (positive : 0 < denominator) (rounds : RoundsTo significand numerator denominator) :
    roundWithAccuracy Format.binary64 sign (numerator / denominator) (-1074)
        (accuracyOfFraction (numerator % denominator) denominator) =
      .finite sign significand (-1074) pos := by
  obtain ⟨low, high, inside⟩ := rounds.near
  have rounded := roundedMantissa_extended positive low high inside
  have short : numerator / denominator < 2 ^ 53 := by
    have below := le_roundedMantissa (extended numerator denominator)
    rw [rounded] at below
    refine Nat.lt_of_le_of_lt ?_ fits
    refine Nat.le_trans (Nat.le_of_eq ?_) below
    rw [extended]
    cases accuracyOfFraction (numerator % denominator) denominator with
    | exact => rfl
    | inexact place => cases place <;> rfl
  have settled := shiftToTargetExponent_least fits .exact
  rw [extended] at rounded
  simp only [roundWithAccuracy, shiftToTargetExponent_least short, rounded, settled]
  exact dif_neg pos.ne'

section

variable {dividend divisor up down : Nat} {above below : Int}

theorem RoundsTo.lt (rounds : RoundsTo significand numerator denominator) (positive : 0 < denominator) :
    numerator < (significand + 1) * denominator := by
  have high := rounds.near.2.1
  rw [Nat.succ_mul]
  have split : (2 * significand + 1) * denominator = 2 * (significand * denominator) + denominator := by ring
  omega

theorem RoundsTo.le (rounds : RoundsTo significand numerator denominator) :
    (2 * significand - 1) * denominator ≤ 2 * numerator := rounds.near.1

namespace Canonical

theorem div_of_roundsTo (canonical : Canonical significand exponent) (first : 0 < dividend) (second : 0 < divisor)
    (room : -1074 ≤ above - below) (scaled : above - below - exponent = up - down)
    (rounds : RoundsTo significand (dividend * 2 ^ up) (divisor * 2 ^ down)) :
    UnpackedFloat.div Format.binary64 (.finite .positive dividend above first)
        (.finite .positive divisor below second) =
      .finite .positive significand exponent canonical.pos := by
  have fits := canonical.fits
  have least := canonical.least
  have bits : dividend.log2 + up < divisor.log2 + down + 54 := by
    have powers : 2 ^ (dividend.log2 + up) < 2 ^ (divisor.log2 + down + 54) := by
      calc 2 ^ (dividend.log2 + up) = 2 ^ dividend.log2 * 2 ^ up := Nat.pow_add _ _ _
        _ ≤ dividend * 2 ^ up := Nat.mul_le_mul_right _ (Nat.log2_self_le first.ne')
        _ < (significand + 1) * (divisor * 2 ^ down) := rounds.lt (Nat.mul_pos second (Nat.two_pow_pos down))
        _ ≤ 2 ^ 53 * (divisor * 2 ^ down) := Nat.mul_le_mul_right _ fits
        _ ≤ 2 ^ 53 * (2 ^ (divisor.log2 + 1) * 2 ^ down) :=
            Nat.mul_le_mul_left _ (Nat.mul_le_mul_right _ Nat.lt_log2_self.le)
        _ = 2 ^ (divisor.log2 + down + 54) := by rw [← Nat.pow_add, ← Nat.pow_add]; congr 1; omega
    exact (Nat.pow_lt_pow_iff_right (by decide)).mp powers
  obtain ⟨target, target_eq⟩ : ∃ target, target = min (above - below)
      (Format.binary64.targetExponent (totalExponent dividend above - totalExponent divisor below)) := ⟨_, rfl⟩
  obtain ⟨amount, amount_eq⟩ : ∃ amount, amount = (above - below - target).toNat := ⟨_, rfl⟩
  have reached : target ≤ exponent := by
    rw [target_eq, totalExponent, totalExponent, Format.targetExponent]
    simp only [Format.mantissaBits, Format.minExponent]
    omega
  obtain ⟨count, shift⟩ : ∃ count : Nat, target = exponent - count := ⟨(exponent - target).toNat, by omega⟩
  have moved : RoundsTo significand (dividend * 2 ^ amount) (divisor * 2 ^ count) := by
    refine rounds.of_mul_eq (Nat.mul_pos second (Nat.two_pow_pos down)) (Nat.mul_pos second (Nat.two_pow_pos count)) ?_
    have powers : up + count = amount + down := by omega
    calc dividend * 2 ^ up * (divisor * 2 ^ count) = dividend * divisor * 2 ^ (up + count) := by ring
      _ = dividend * 2 ^ amount * (divisor * 2 ^ down) := by rw [powers]; ring
  have quotient : UnpackedFloat.div Format.binary64 (.finite .positive dividend above first)
      (.finite .positive divisor below second) =
        roundWithAccuracy Format.binary64 .positive (dividend * 2 ^ amount / divisor) target
          (accuracyOfFraction (dividend * 2 ^ amount % divisor) divisor) := by
    simp only [UnpackedFloat.div, divCore, ← target_eq, ← amount_eq, Nat.shiftLeft_eq]
    rfl
  rw [quotient]
  by_cases inner : -1074 < exponent
  · have normal := canonical.normal (canonical.full inner)
    have enough : 2 ^ 52 * divisor ≤ dividend * 2 ^ amount := by
      have full := normal.full
      by_cases shifted : count = 0
      · -- The exponent is the one that was aimed at, so the quotient has a bit more than it needs.
        have length : divisor.log2 + 53 ≤ dividend.log2 + amount := by
          rw [totalExponent, totalExponent, Format.targetExponent] at target_eq
          simp only [Format.mantissaBits, Format.minExponent] at target_eq
          omega
        calc 2 ^ 52 * divisor ≤ 2 ^ 52 * 2 ^ (divisor.log2 + 1) := Nat.mul_le_mul_left _ Nat.lt_log2_self.le
          _ = 2 ^ (divisor.log2 + 53) := by rw [← Nat.pow_add]; congr 1; omega
          _ ≤ 2 ^ (dividend.log2 + amount) := Nat.pow_le_pow_right (by decide) length
          _ = 2 ^ dividend.log2 * 2 ^ amount := Nat.pow_add _ _ _
          _ ≤ dividend * 2 ^ amount := Nat.mul_le_mul_right _ (Nat.log2_self_le first.ne')
      · have double : 2 ≤ 2 ^ count := by
          have power := Nat.pow_le_pow_right (n := 2) (by decide) (Nat.one_le_iff_ne_zero.mpr shifted)
          rwa [pow_one] at power
        have steps : divisor * 2 ≤ divisor * 2 ^ count := Nat.mul_le_mul_left _ double
        have low := moved.le
        have least : (2 ^ 53 - 1) * (divisor * 2) ≤ (2 * significand - 1) * (divisor * 2 ^ count) :=
          Nat.mul_le_mul (by omega) steps
        omega
    rw [shift]
    exact normal.roundWithAccuracy_of_roundsTo .positive inner second enough moved
  · obtain rfl : exponent = -1074 := by omega
    have lowest : target = -1074 := by
      rw [target_eq, totalExponent, totalExponent, Format.targetExponent]
      simp only [Format.mantissaBits, Format.minExponent]
      omega
    obtain rfl : count = 0 := by omega
    rw [lowest]
    rw [pow_zero, mul_one] at moved
    exact roundWithAccuracy_least .positive canonical.pos fits second moved

variable {number : Nat}

theorem ofScientific_of_roundsTo (canonical : Canonical significand exponent) (some : number ≠ 0)
    (scaled : -exponent = up - down) (rounds : RoundsTo significand (number * 2 ^ up) (2 ^ down)) :
    UnpackedFloat.ofScientific Format.binary64 number 0 = .finite .positive significand exponent canonical.pos := by
  have bits : up < 53 + down := by
    have powers : 2 ^ up < 2 ^ (53 + down) := by
      calc 2 ^ up ≤ number * 2 ^ up := Nat.le_mul_of_pos_left _ (Nat.pos_of_ne_zero some)
        _ < (significand + 1) * 2 ^ down := rounds.lt (Nat.two_pow_pos down)
        _ ≤ 2 ^ 53 * 2 ^ down := Nat.mul_le_mul_right _ canonical.fits
        _ = 2 ^ (53 + down) := (Nat.pow_add _ _ _).symm
    exact (Nat.pow_lt_pow_iff_right (by decide)).mp powers
  have normal := canonical.normal (canonical.full (by omega))
  obtain ⟨count, shift⟩ : ∃ count : Nat, -53 = exponent - count := ⟨(exponent + 53).toNat, by omega⟩
  have moved : RoundsTo significand (number * 2 ^ 53) (1 * 2 ^ count) := by
    refine rounds.of_mul_eq (Nat.two_pow_pos down) (Nat.mul_pos Nat.one_pos (Nat.two_pow_pos count)) ?_
    have powers : up + count = 53 + down := by omega
    calc number * 2 ^ up * (1 * 2 ^ count) = number * 2 ^ (up + count) := by ring
      _ = number * 2 ^ 53 * 2 ^ down := by rw [powers]; ring
  have enough : 2 ^ 52 * 1 ≤ number * 2 ^ 53 := by omega
  have rounded := normal.roundWithAccuracy_of_roundsTo .positive (by omega) Nat.one_pos enough moved
  rw [Nat.div_one, Nat.mod_one, ← shift] at rounded
  rw [ofScientific_eq some, Nat.shiftLeft_eq, Nat.mul_one]
  exact rounded

end Canonical

theorem toModel_ofNat {number : Nat} (some : number ≠ 0) :
    (Float.ofNat number).toModel = .pack (UnpackedFloat.ofScientific Format.binary64 number 0) := by
  by_cases short : number < 2 ^ 53
  · have normal := normal_of_lt some short
    have bits : number.log2 < 53 := (Nat.log2_lt some).mpr short
    have whole := mul_two_pow_log2 some short
    rw [normal.ofNat_toModel rfl whole]
    refine congrArg Float.Model.pack (normal.slow_eq rfl ?_).symm
    rw [Nat.pow_succ, ← Nat.mul_assoc, whole, Nat.pow_succ, Nat.mul_assoc]
  · change (Float.ofScientific number false 0).toModel = _
    rw [Float.ofScientific, dif_neg fun both => short both.1]
    rfl

/-! ## Division by powers of ten -/

theorem exists_normal_power {exponent : Nat} (few : exponent ≤ 22) :
    ∃ mantissa count : Nat, ∃ normal : Normal mantissa (count - 52),
      10 ^ exponent * 2 ^ 52 = mantissa * 2 ^ count ∧ count ≤ 73 ∧
        (Float.ofScientific 1 false exponent).toModel.unpack =
          .finite .positive mantissa (count - 52) normal.pos := by
  -- 5 ^ 22 is the last power of five below 2 ^ 53, so the powers up to it are exact
  have table : ∀ exponent ≤ 22,
      (Float.ofScientific 1 false exponent).toModel = (Float.ofNat (10 ^ exponent)).toModel := by
    decide +kernel
  have bits : ∀ exponent ≤ 22, (10 ^ exponent).log2 ≤ 73 ∧
      10 ^ exponent * 2 ^ 52 / 2 ^ (10 ^ exponent).log2 * 2 ^ (10 ^ exponent).log2 = 10 ^ exponent * 2 ^ 52 ∧
        2 ^ 52 ≤ 10 ^ exponent * 2 ^ 52 / 2 ^ (10 ^ exponent).log2 ∧
          10 ^ exponent * 2 ^ 52 / 2 ^ (10 ^ exponent).log2 < 2 ^ 53 := by
    decide +kernel
  obtain ⟨bounded, whole, full, fits⟩ := bits exponent few
  have normal : Normal (10 ^ exponent * 2 ^ 52 / 2 ^ (10 ^ exponent).log2) (((10 ^ exponent).log2 : Int) - 52) :=
    ⟨full, fits, by omega, by omega⟩
  refine ⟨_, (10 ^ exponent).log2, normal, whole.symm, bounded, ?_⟩
  rw [table exponent few, normal.ofNat_toModel rfl whole.symm]
  exact normal.unpack_pack .positive

theorem exactlyRepresentablePowersOfTen_eq {places : Nat} (few : places ≤ 22) :
    Float.exactlyRepresentablePowersOfTen[places]? = some (Float.ofScientific 1 false places) := by
  have table : ∀ places ≤ 22,
      Float.exactlyRepresentablePowersOfTen[places]? = some (Float.ofScientific 1 false places) := by
    decide +kernel
  exact table places few

namespace Canonical

variable {x : Float} {number places : Nat}

theorem div_power (canonical : Canonical significand exponent) (some : number ≠ 0) (short : number < 2 ^ 53)
    (whole : x.toModel.unpack = .finite .positive (number * 2 ^ (52 - number.log2)) (number.log2 - 52)
      (normal_of_lt some short).pos)
    (few : places ≤ 22) (scaled : -exponent = up - down)
    (rounds : RoundsTo significand (number * 2 ^ up) (10 ^ places * 2 ^ down)) :
    (x / Float.ofScientific 1 false places).toModel = .pack (.finite .positive significand exponent canonical.pos) := by
  have bits : number.log2 < 53 := (Nat.log2_lt some).mpr short
  have ten : 0 < 10 ^ places := Nat.pow_pos (by decide)
  obtain ⟨divisor, below, second, power, low, right⟩ := exists_normal_power few
  have moved : RoundsTo significand (number * 2 ^ (52 - number.log2) * 2 ^ (up + number.log2))
      (divisor * 2 ^ (down + below)) := by
    refine rounds.of_mul_eq (Nat.mul_pos ten (Nat.two_pow_pos down)) (Nat.mul_pos second.pos (Nat.two_pow_pos _)) ?_
    have split : 52 - number.log2 + (up + number.log2) = up + 52 := by omega
    calc number * 2 ^ up * (divisor * 2 ^ (down + below))
        = number * 2 ^ up * 2 ^ down * (divisor * 2 ^ below) := by ring
      _ = number * 2 ^ (up + 52) * (10 ^ places * 2 ^ down) := by rw [← power]; ring
      _ = number * 2 ^ (52 - number.log2) * 2 ^ (up + number.log2) * (10 ^ places * 2 ^ down) := by
          rw [← split, Nat.pow_add]; ring
  change Float.Model.pack (UnpackedFloat.div Format.binary64 x.toModel.unpack
    (Float.ofScientific 1 false places).toModel.unpack) = _
  rw [whole, right]
  exact congrArg Float.Model.pack
    (canonical.div_of_roundsTo (normal_of_lt some short).pos second.pos (by omega) (by omega) moved)

theorem ofNat_div_power (canonical : Canonical significand exponent) (some : number ≠ 0) (short : number < 2 ^ 53)
    (few : places ≤ 22) (scaled : -exponent = up - down)
    (rounds : RoundsTo significand (number * 2 ^ up) (10 ^ places * 2 ^ down)) :
    (Float.ofNat number / Float.ofScientific 1 false places).toModel =
      .pack (.finite .positive significand exponent canonical.pos) := by
  refine canonical.div_power some short ?_ few scaled rounds
  rw [(normal_of_lt some short).ofNat_toModel rfl (mul_two_pow_log2 some short)]
  exact (normal_of_lt some short).unpack_pack .positive

theorem ofScientific_places (canonical : Canonical significand exponent) (some : number ≠ 0) (pointed : 0 < places)
    (bounded : places ≤ 2048) (scaled : -exponent = up - down)
    (rounds : RoundsTo significand (number * 2 ^ up) (10 ^ places * 2 ^ down)) :
    (Float.ofScientific number true places).toModel = .pack (.finite .positive significand exponent canonical.pos) := by
  have ten : 0 < 10 ^ places := Nat.pow_pos (by decide)
  by_cases fast : number < 2 ^ 53 ∧ places ≤ 22
  · -- Both the digits and the power of ten are floats themselves.
    obtain ⟨short, few⟩ := fast
    have bits : number.log2 < 53 := (Nat.log2_lt some).mpr short
    obtain ⟨_, held⟩ := Array.getElem?_eq_some_iff.mp (exactlyRepresentablePowersOfTen_eq few)
    rw [Float.ofScientific, dif_pos ⟨short, few⟩, if_pos rfl, held]
    exact canonical.div_power some short
      ((normal_of_lt some short).unpack_toFloat (Nat.lt_succ_iff.mp bits) rfl rfl) few scaled rounds
  · have usual : ¬ -(places : Int) > 2 ^ Format.binary64.exponentBits := by
      change ¬ -(places : Int) > 2048
      omega
    have reached : ¬ -(places : Int) < -((2 ^ Format.binary64.exponentBits : Int) + number.log2) := by
      change ¬ -(places : Int) < -(2048 + (number.log2 : Int))
      omega
    have quotient : UnpackedFloat.div Format.binary64 (.finite .positive number 0 (Nat.pos_of_ne_zero some))
        (.finite .positive (10 ^ places) 0 ten) = .finite .positive significand exponent canonical.pos :=
      canonical.div_of_roundsTo (Nat.pos_of_ne_zero some) ten (by decide) (by omega) rounds
    have negative : Int.negOfNat places = -(places : Int) := Int.negOfNat_eq
    rw [Float.ofScientific, dif_neg fast]
    change Float.Model.pack (UnpackedFloat.ofScientific Format.binary64 number (Int.negOfNat places)) = _
    rw [negative, UnpackedFloat.ofScientific, dif_neg some, if_neg usual, if_neg reached, if_neg (by omega)]
    simp only [neg_neg, Int.toNat_natCast, quotient]

/-! ## Numerals -/

theorem nearest_of_roundsTo {digits width : Nat} (canonical : Canonical significand exponent)
    (some : digits ≠ 0) (long : 10 ^ width ≤ 10 * digits) (short : digits < 10 ^ width) (bounded : places ≤ 2048)
    (scaled : -exponent = up - down) (rounds : RoundsTo significand (digits * 2 ^ up) (10 ^ places * 2 ^ down)) :
    (Numeral.nearest digits width (-places)).toModel =
      .pack (.finite .positive significand exponent canonical.pos) := by
  have fits := canonical.fits
  have least := canonical.least
  have most := canonical.most
  have steps : 0 < 10 ^ places * 2 ^ down := Nat.mul_pos (Nat.pow_pos (by decide)) (Nat.two_pow_pos down)
  -- The bounds of the exponents go by names, so that their powers of two are not multiplied out.
  obtain ⟨top, depth, limit, top_eq, depth_eq, limit_eq, tens, twos⟩ : ∃ top depth limit, top = 971 ∧ depth = 1074 ∧
      limit = 400 ∧ 10 * 2 ^ (53 + top) < 10 ^ limit ∧ 2 ^ (depth + 1) < 10 ^ limit :=
    ⟨971, 1074, 400, rfl, rfl, rfl, by decide +kernel⟩
  have great : ¬ 400 < -(places : Int) + width := by
    intro far
    have wide : 10 ^ (limit + places) * 2 ^ up < 10 * 2 ^ (53 + top) * 10 ^ places * 2 ^ up := by
      calc 10 ^ (limit + places) * 2 ^ up ≤ 10 ^ width * 2 ^ up :=
            Nat.mul_le_mul_right _ (Nat.pow_le_pow_right (by decide) (by omega))
        _ ≤ 10 * digits * 2 ^ up := Nat.mul_le_mul_right _ long
        _ = 10 * (digits * 2 ^ up) := Nat.mul_assoc _ _ _
        _ < 10 * ((significand + 1) * (10 ^ places * 2 ^ down)) :=
            Nat.mul_lt_mul_of_pos_left (rounds.lt steps) (by decide)
        _ ≤ 10 * (2 ^ 53 * (10 ^ places * 2 ^ (up + top))) := by
            refine Nat.mul_le_mul_left _ (Nat.mul_le_mul fits (Nat.mul_le_mul_left _ ?_))
            exact Nat.pow_le_pow_right (by decide) (by omega)
        _ = 10 * 2 ^ (53 + top) * 10 ^ places * 2 ^ up := by ring
    rw [Nat.pow_add] at wide
    exact Nat.lt_asymm tens (Nat.lt_of_mul_lt_mul_right (Nat.lt_of_mul_lt_mul_right wide))
  have small : ¬ -(places : Int) + width < -400 := by
    intro far
    have low := rounds.le
    have narrow : 10 ^ (limit + width) * 2 ^ down < 2 ^ (depth + 1) * 10 ^ width * 2 ^ down := by
      calc 10 ^ (limit + width) * 2 ^ down ≤ 10 ^ places * 2 ^ down :=
            Nat.mul_le_mul_right _ (Nat.pow_le_pow_right (by decide) (by omega))
        _ ≤ (2 * significand - 1) * (10 ^ places * 2 ^ down) := by
            have pos := canonical.pos
            exact Nat.le_mul_of_pos_left _ (by omega)
        _ ≤ 2 * (digits * 2 ^ up) := low
        _ < 2 * (10 ^ width * 2 ^ up) :=
            Nat.mul_lt_mul_of_pos_left (Nat.mul_lt_mul_of_pos_right short (Nat.two_pow_pos up)) (by decide)
        _ ≤ 2 * (10 ^ width * 2 ^ (down + depth)) := by
            refine Nat.mul_le_mul_left _ (Nat.mul_le_mul_left _ ?_)
            exact Nat.pow_le_pow_right (by decide) (by omega)
        _ = 2 ^ (depth + 1) * 10 ^ width * 2 ^ down := by ring
    rw [Nat.pow_add] at narrow
    exact Nat.lt_asymm twos (Nat.lt_of_mul_lt_mul_right (Nat.lt_of_mul_lt_mul_right narrow))
  rw [Numeral.nearest, if_neg some, if_neg great, if_neg small, Int.natAbs_neg, Int.natAbs_natCast]
  by_cases none : places = 0
  · subst none
    rw [pow_zero, one_mul] at rounds
    have rounded := canonical.ofScientific_of_roundsTo some scaled rounds
    change (Float.ofNat digits).toModel = _
    rw [toModel_ofNat some, rounded]
  · have pointed : decide (-(places : Int) < 0) = true := decide_eq_true (by omega)
    rw [pointed]
    exact canonical.ofScientific_places some (Nat.pos_of_ne_zero none) bounded scaled rounds

end Canonical

end

end BranchingStory
