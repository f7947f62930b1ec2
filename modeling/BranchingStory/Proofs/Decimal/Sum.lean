import BranchingStory.Proofs.Decimal.Finite

/-!
Sums of whole floats. Two floats that are whole have the sum of their whole numbers for a sum, as long as it has no
more than 53 bits. Nothing is rounded then, whatever bits the two floats have themselves.
-/

namespace BranchingStory

open Float.Model (Format totalExponent UnpackedFloat)
open Float.Model.UnpackedFloat

namespace Normal

variable {significand mantissa count shift : Nat}

/-- A number is rounded to its one form with a full significand, wherever its factors of two stand before. -/
theorem round_eq (normal : Normal significand (count - 52)) (sign : Sign)
    (same : mantissa * 2 ^ shift = significand * 2 ^ count) :
    round Format.binary64 sign mantissa (shift - 52) = .finite sign significand (count - 52) normal.pos := by
  by_cases far : shift ≤ count
  · obtain ⟨more, rfl⟩ := Nat.exists_eq_add_of_le far
    have raised : mantissa = significand * 2 ^ more := by
      rw [Nat.pow_add, ← Nat.mul_assoc, Nat.mul_right_comm] at same
      exact Nat.eq_of_mul_eq_mul_right (Nat.two_pow_pos shift) same
    have lowered : (shift : Int) - 52 = ((shift + more : Nat) : Int) - 52 - more := by omega
    have amount : ((shift + more : Nat) - 52 - (more : Int) - ((shift + more : Nat) - 52)).toNat = 0 := by omega
    rw [raised, lowered, UnpackedFloat.round, normal.targetExponent_eq]
    simp only [decreaseExponent, amount, Nat.shiftLeft_zero, Nat.cast_zero, sub_zero]
    exact normal.roundWithAccuracy_eq sign more
  · obtain ⟨more, rfl⟩ := Nat.exists_eq_add_of_le (Nat.le_of_not_le far)
    have whole : mantissa * 2 ^ more = significand := by
      rw [Nat.pow_add, Nat.mul_comm (2 ^ count), ← Nat.mul_assoc] at same
      exact Nat.eq_of_mul_eq_mul_right (Nat.two_pow_pos count) same
    have some : mantissa ≠ 0 := by
      rintro rfl
      have pos := normal.pos
      omega
    have few : more ≤ 52 := by
      by_contra many
      have power : 2 ^ 53 ≤ 2 ^ more := Nat.pow_le_pow_right (by decide) (by omega)
      have least := Nat.le_mul_of_pos_left (2 ^ more) (Nat.pos_of_ne_zero some)
      have fits := normal.fits
      omega
    have log : mantissa.log2 = 52 - more :=
      normal.log2_number (by omega) (by rwa [show 52 - (52 - more) = more by omega])
    have target : Format.binary64.targetExponent (totalExponent mantissa ((count + more : Nat) - 52)) = count - 52 := by
      have least := normal.least
      rw [totalExponent, log, Format.targetExponent]
      simp only [Format.mantissaBits, Format.minExponent]
      omega
    have amount : (((count + more : Nat) : Int) - 52 - (count - 52)).toNat = more := by omega
    have lowered : ((count + more : Nat) : Int) - 52 - more = count - 52 := by omega
    have settled := normal.roundWithAccuracy_eq sign 0
    rw [pow_zero, mul_one, Nat.cast_zero, sub_zero] at settled
    simp only [UnpackedFloat.round, target, decreaseExponent, amount, lowered, Nat.shiftLeft_eq, whole, settled]

theorem exists_of_le {magnitude : Nat} (some : magnitude ≠ 0) (small : magnitude ≤ 2 ^ 53) :
    ∃ significand count : Nat, Normal significand (count - 52) ∧ magnitude * 2 ^ 52 = significand * 2 ^ count := by
  by_cases short : magnitude < 2 ^ 53
  · exact ⟨_, _, normal_of_lt some short, mul_two_pow_log2 some short⟩
  · obtain rfl : magnitude = 2 ^ 53 := by omega
    exact ⟨2 ^ 52, 53, ⟨by decide, by decide, by decide, by decide⟩, by decide⟩

end Normal

/-! ## Whole numbers behind floats -/

inductive Stands : UnpackedFloat → Int → Prop
  | zero (sign : Sign) : Stands (.zero sign) 0
  | finite (sign : Sign) {significand count magnitude : Nat} (normal : Normal significand (count - 52))
      (whole : magnitude * 2 ^ 52 = significand * 2 ^ count) :
      Stands (.finite sign significand (count - 52) normal.pos) (sign.apply magnitude)

namespace Stands

variable {value other : UnpackedFloat} {number more : Int}

theorem unpack_pack (stands : Stands value number) : Stands (Float.Model.unpack (.pack value)) number := by
  cases stands with
  | zero sign => cases sign <;> exact .zero _
  | finite sign normal whole =>
      change Stands (unpack Format.binary64 (pack Format.binary64 _)) _
      rw [normal.unpack_pack sign]
      exact .finite sign normal whole

theorem normalize {mantissa : Int} {shift : Nat} (same : mantissa * 2 ^ shift = number * 2 ^ 52)
    (small : number.natAbs ≤ 2 ^ 53) :
    Stands (normalize Format.binary64 mantissa (shift - 52) .positive) number := by
  have power : (0 : Int) < 2 ^ shift := by positivity
  rcases lt_trichotomy number 0 with negative | rfl | positive
  · obtain ⟨magnitude, rfl⟩ : ∃ magnitude : Nat, number = -magnitude := ⟨number.natAbs, by omega⟩
    have below : mantissa < 0 := by
      by_contra above
      have product := mul_nonneg (not_lt.mp above) power.le
      omega
    obtain ⟨size, rfl⟩ : ∃ size : Nat, mantissa = -size := ⟨mantissa.natAbs, by omega⟩
    have some : magnitude ≠ 0 := by omega
    obtain ⟨significand, count, normal, whole⟩ := Normal.exists_of_le some (by omega)
    have sizes : size * 2 ^ shift = significand * 2 ^ count := by
      rw [← whole]
      zify
      linarith
    have less : compare (-(size : Int)) 0 = .lt := Int.compare_eq_lt.mpr below
    simp only [UnpackedFloat.normalize, less, neg_neg, Int.toNat_natCast, normal.round_eq .negative sizes]
    exact .finite .negative normal whole
  · obtain rfl : mantissa = 0 := by
      rw [zero_mul] at same
      exact (mul_eq_zero.mp same).resolve_right power.ne'
    exact .zero .positive
  · obtain ⟨magnitude, rfl⟩ : ∃ magnitude : Nat, number = magnitude := ⟨number.natAbs, by omega⟩
    have above : 0 < mantissa := by
      by_contra below
      have product := mul_nonneg (neg_nonneg.mpr (not_lt.mp below)) power.le
      rw [neg_mul] at product
      omega
    obtain ⟨size, rfl⟩ : ∃ size : Nat, mantissa = size := ⟨mantissa.natAbs, by omega⟩
    have some : magnitude ≠ 0 := by omega
    obtain ⟨significand, count, normal, whole⟩ := Normal.exists_of_le some (by omega)
    have sizes : size * 2 ^ shift = significand * 2 ^ count := by
      rw [← whole]
      exact_mod_cast same
    have greater : compare (size : Int) 0 = .gt := Int.compare_eq_gt.mpr above
    simp only [UnpackedFloat.normalize, greater, Int.toNat_natCast, normal.round_eq .positive sizes]
    exact .finite .positive normal whole

theorem apply_mul_two_pow (sign : Sign) {significand magnitude count low : Nat} (below : low ≤ count)
    (whole : magnitude * 2 ^ 52 = significand * 2 ^ count) :
    sign.apply ((significand * 2 ^ (count - low) : Nat) : Int) * 2 ^ low = sign.apply magnitude * 2 ^ 52 := by
  have same : significand * 2 ^ (count - low) * 2 ^ low = magnitude * 2 ^ 52 := by
    rw [whole, Nat.mul_assoc, ← Nat.pow_add, Nat.sub_add_cancel below]
  have cast : ((significand * 2 ^ (count - low) : Nat) : Int) * 2 ^ low = magnitude * 2 ^ 52 := by
    exact_mod_cast same
  cases sign with
  | positive => exact cast
  | negative => simp only [Sign.apply, neg_mul, cast]

theorem add (first : Stands value number) (second : Stands other more) (small : (number + more).natAbs ≤ 2 ^ 53) :
    Stands (UnpackedFloat.add Format.binary64 value other) (number + more) := by
  cases first with
  | zero sign =>
      rw [zero_add]
      cases second with
      | zero mark =>
          simp only [UnpackedFloat.add]
          split <;> exact .zero _
      | finite mark normal whole => exact .finite mark normal whole
  | @finite sign significand count magnitude normal whole =>
      cases second with
      | zero mark =>
          rw [add_zero]
          exact .finite sign normal whole
      | @finite mark digits shift size plain exact =>
          -- Both are brought to the smaller of the two exponents.
          have least : min ((count : Int) - 52) (shift - 52) = ((min count shift : Nat) : Int) - 52 := by omega
          have left : ((count : Int) - 52 - ((min count shift : Nat) - 52)).toNat = count - min count shift := by omega
          have right : ((shift : Int) - 52 - ((min count shift : Nat) - 52)).toNat = shift - min count shift := by omega
          simp only [UnpackedFloat.add, least, decreaseExponent, left, right, Nat.shiftLeft_eq]
          refine normalize ?_ small
          rw [add_mul, add_mul, apply_mul_two_pow sign (Nat.min_le_left count shift) whole,
            apply_mul_two_pow mark (Nat.min_le_right count shift) exact]

end Stands

/-! ## Whole floats -/

section

variable {x y : Float} {number more : Int}

theorem stands_of_wholeNumber? (found : wholeNumber? x = some number) : Stands x.toModel.unpack number := by
  simp only [wholeNumber?, Option.bind_eq_bind, Option.bind_eq_some_iff, pure, Option.some.injEq] at found
  obtain ⟨value, read, magnitude, measured, rfl⟩ := found
  rcases Binary.unpack_of_ofFloat? read with ⟨below, least, zero⟩ | ⟨normal, unpacked⟩
  · obtain ⟨none, rfl⟩ := Binary.wholeMagnitude?_least below least measured
    obtain ⟨sign, unpacked⟩ := zero none
    have vanishes : (if value.negative then -((0 : Nat) : Int) else (0 : Nat)) = 0 := by simp
    rw [vanishes, unpacked]
    exact .zero sign
  · obtain ⟨count, shift, whole⟩ := Binary.wholeMagnitude?_normal normal measured
    have stands := Stands.finite value.sign (shift ▸ normal) whole
    have signed : value.sign.apply magnitude = if value.negative then -(magnitude : Int) else magnitude := by
      rw [Binary.sign]
      cases value.negative <;> rfl
    rw [unpacked, ← signed]
    simp only [shift]
    exact stands

theorem wholeMagnitude?_of_eq {value : Binary} {count magnitude : Nat} (shift : value.exponent = count - 52)
    (whole : magnitude * 2 ^ 52 = value.significand * 2 ^ count) : value.wholeMagnitude? = some magnitude := by
  rw [Binary.wholeMagnitude?]
  simp only [Nat.pow_eq]
  by_cases high : 52 ≤ count
  · have raised : value.significand * 2 ^ (count - 52) = magnitude := by
      refine Nat.eq_of_mul_eq_mul_right (Nat.two_pow_pos 52) ?_
      rw [Nat.mul_assoc, ← Nat.pow_add, Nat.sub_add_cancel high, whole]
    rw [if_pos (by omega), show value.exponent.toNat = count - 52 by omega, raised]
  · have multiple : value.significand = magnitude * 2 ^ (52 - count) := by
      refine Nat.eq_of_mul_eq_mul_right (Nat.two_pow_pos count) ?_
      rw [← whole, Nat.mul_assoc, ← Nat.pow_add, Nat.sub_add_cancel (Nat.le_of_not_le high)]
    rw [if_neg (by omega), show (-value.exponent).toNat = 52 - count by omega, multiple, Nat.mul_mod_left, if_pos rfl,
      Nat.mul_div_cancel _ (Nat.two_pow_pos _)]

theorem Stands.of_finite {sign : Sign} {significand : Nat} {exponent : Int} {positive : 0 < significand}
    (stands : Stands (.finite sign significand exponent positive) number) :
    Normal significand exponent ∧ ∃ count magnitude : Nat, exponent = count - 52 ∧
      magnitude * 2 ^ 52 = significand * 2 ^ count ∧ number = sign.apply magnitude := by
  generalize shape : UnpackedFloat.finite sign significand exponent positive = value at stands
  cases stands with
  | zero mark => exact UnpackedFloat.noConfusion shape
  | @finite mark digits count magnitude normal whole =>
      obtain ⟨rfl, rfl, rfl⟩ := UnpackedFloat.finite.inj shape
      exact ⟨normal, count, magnitude, rfl, whole, rfl⟩

theorem wholeNumber?_of_read {value : Binary} {magnitude : Nat} (read : Binary.ofFloat? x = some value)
    (measured : value.wholeMagnitude? = some magnitude) : wholeNumber? x = some (value.sign.apply magnitude) := by
  simp only [wholeNumber?, read, Option.bind_eq_bind, Option.bind_some, measured, pure]
  rw [Binary.sign]
  cases value.negative <;> rfl

theorem wholeNumber?_of_stands (stands : Stands x.toModel.unpack number) : wholeNumber? x = some number := by
  have exponents := Binary.toNat_unpackExponent x
  have mantissas := Binary.toNat_unpackMantissa x
  have finite : unpackExponent (Binary.word x) ≠ -1#11 := by
    intro full
    change Stands (unpack Format.binary64 (Binary.word x)) number at stands
    simp only [unpack, if_pos full] at stands
    split at stands <;> cases stands
  have bounded : x.toBits.toNat / Binary.hiddenBit % 2048 ≠ 2047 := by
    intro full
    rw [full] at exponents
    exact finite (BitVec.eq_of_toNat_eq exponents)
  by_cases least : unpackExponent (Binary.word x) = 0#11
  · have none : x.toBits.toNat / Binary.hiddenBit % 2048 = 0 := by rw [← exponents, least]; rfl
    have empty : unpackMantissa (Binary.word x) = 0#52 := by
      by_contra some
      have below : (unpackMantissa (Binary.word x)).toNat < 2 ^ 52 := (unpackMantissa (Binary.word x)).isLt
      change Stands (unpack Format.binary64 (Binary.word x)) number at stands
      simp only [unpack, if_neg finite, if_pos least, dif_neg some] at stands
      exact Nat.not_lt.mpr stands.of_finite.1.full below
    rw [Binary.unpack_zero x least empty] at stands
    cases stands
    have fraction : x.toBits.toNat % Binary.hiddenBit = 0 := by rw [← mantissas, empty]; rfl
    have read : Binary.ofFloat? x = some ⟨decide (x.toBits.toNat / Binary.signBit = 1), 0, -1074⟩ := by
      simp only [Binary.ofFloat?, if_neg bounded, if_pos none, fraction]
    have measured : (⟨decide (x.toBits.toNat / Binary.signBit = 1), 0, -1074⟩ : Binary).wholeMagnitude? = some 0 := by
      simp only [Binary.wholeMagnitude?, Nat.zero_mod, Nat.zero_div]
      rfl
    rw [wholeNumber?_of_read read measured, Binary.sign]
    split <;> rfl
  · have usual : x.toBits.toNat / Binary.hiddenBit % 2048 ≠ 0 := by
      intro none
      rw [none] at exponents
      exact least (BitVec.eq_of_toNat_eq exponents)
    rw [Binary.unpack_normal x finite least] at stands
    obtain ⟨-, count, magnitude, shift, whole, rfl⟩ := stands.of_finite
    rw [exponents] at shift
    rw [mantissas] at whole
    have read : Binary.ofFloat? x = some ⟨decide (x.toBits.toNat / Binary.signBit = 1),
        Binary.hiddenBit + x.toBits.toNat % Binary.hiddenBit, (x.toBits.toNat / Binary.hiddenBit % 2048 : Nat) - 1075⟩ := by
      simp only [Binary.ofFloat?, if_neg bounded, if_neg usual]
    rw [wholeNumber?_of_read read (wholeMagnitude?_of_eq shift whole), Binary.ofBitVec_unpackSign]
    simp [Binary.sign]

theorem wholeNumber?_of_beq (same : (x == y) = true) (found : wholeNumber? y = some number) :
    wholeNumber? x = some number := by
  have stands := stands_of_wholeNumber? found
  change x.toModel.unpack.beq y.toModel.unpack = true at same
  rw [beq_iff_ne_notANumber_and_eq] at same
  obtain ⟨-, -, same | zeros⟩ := same
  · exact wholeNumber?_of_stands (same ▸ stands)
  · obtain ⟨left, right⟩ | ⟨left, right⟩ := zeros
    all_goals
      rw [right] at stands
      cases stands
      exact wholeNumber?_of_stands (left ▸ .zero _)

theorem wholeNumber?_add (left : wholeNumber? x = some number) (right : wholeNumber? y = some more)
    (small : (number + more).natAbs ≤ 2 ^ 53) : wholeNumber? (x + y) = some (number + more) :=
  wholeNumber?_of_stands ((stands_of_wholeNumber? left).add (stands_of_wholeNumber? right) small).unpack_pack

theorem wholeNumber?_ofInt (small : number.natAbs ≤ 2 ^ 53) : wholeNumber? (Float.ofInt number) = some number := by
  refine wholeNumber?_of_stands ?_
  by_cases none : number = 0
  · subst none
    exact .zero .positive
  · obtain ⟨significand, count, normal, whole⟩ := Normal.exists_of_le (Int.natAbs_ne_zero.mpr none) small
    rcases Int.natAbs_eq number with positive | negative
    · have unpacked := ofInt_toModel normal rfl whole false
      simp only [Bool.false_eq_true, if_false] at unpacked
      rw [positive, unpacked]
      exact .finite .positive normal whole
    · have unpacked := ofInt_toModel normal rfl whole true
      simp only [if_true] at unpacked
      rw [negative, unpacked]
      exact .finite .negative normal whole

end

end BranchingStory
