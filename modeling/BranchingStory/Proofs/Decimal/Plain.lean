import BranchingStory.Proofs.Decimal.Shortest
import BranchingStory.Proofs.Decimal.Spelled

/-!
Floats that are written without an exponent and read again. However many digits that takes, they are read as the float
that they were written for, sign and all.
-/

namespace BranchingStory

/-! ## Leading zeros -/

namespace Numeral

variable {digits : List Char}

theorem foldl_digits (digits : List Char) (start : Nat) :
    digits.foldl (fun total digit => 10 * total + (digit.toNat - '0'.toNat)) start =
      start * 10 ^ digits.length + value digits := by
  induction digits using List.reverseRecOn with
  | nil => simp [value]
  | append_singleton earlier last ih =>
      simp only [value, List.foldl_append, List.foldl_cons, List.foldl_nil, List.length_append, List.length_singleton]
      rw [ih, value, Nat.pow_succ]
      ring

theorem width_bounds (all : ∀ c ∈ digits, isDigit c = true) (some : value digits ≠ 0) :
    10 ^ (digits.dropWhile (· = '0')).length ≤ 10 * value digits ∧
      value digits < 10 ^ (digits.dropWhile (· = '0')).length := by
  induction digits with
  | nil => exact absurd rfl some
  | cons first rest ih =>
      by_cases zero : first = '0'
      · subst zero
        rw [List.dropWhile_cons_of_pos (by simp)]
        exact ih (fun c member => all c (List.mem_cons_of_mem _ member)) some
      · rw [List.dropWhile_cons_of_neg (by simpa using zero)]
        refine ⟨?_, value_lt all⟩
        have digit := all first List.mem_cons_self
        rw [isDigit, Bool.and_eq_true, decide_eq_true_eq, decide_eq_true_eq] at digit
        have low : '0'.toNat ≤ first.toNat := digit.1
        have other : first.toNat ≠ '0'.toNat := fun same => zero (Char.toNat_inj.mp same)
        have split : value (first :: rest) = (first.toNat - '0'.toNat) * 10 ^ rest.length + value rest := by
          rw [value, List.foldl_cons, Nat.mul_zero, Nat.zero_add, foldl_digits]
        have most : 10 ^ rest.length ≤ (first.toNat - '0'.toNat) * 10 ^ rest.length :=
          Nat.le_mul_of_pos_left _ (by omega)
        rw [List.length_cons, Nat.pow_succ, split]
        omega

theorem spells_toDigits (number : Nat) : Spells ⟨false, Nat.toDigits 10 number, [], 0⟩ (Nat.toDigits 10 number) := by
  have all : ∀ c ∈ Nat.toDigits 10 number, isDigit c = true := fun c => isDigit_of_mem_toDigits
  have spelled := Spells.parts all .absent (.inl Nat.toDigits_ne_nil) .absent
  rwa [List.append_nil, List.append_nil] at spelled

theorem toFloat_toDigits (negative : Bool) {number : Nat} (few : number < 10 ^ 21) :
    toFloat ⟨negative, Nat.toDigits 10 number, [], 0⟩ =
      if negative then -Float.ofNat number else Float.ofNat number := by
  have read : nearest number ((Nat.toDigits 10 number).dropWhile (· = '0')).length 0 = Float.ofNat number := by
    rw [nearest]
    split
    · rename_i none
      rw [none]
      rfl
    · rename_i some
      rw [← value_toDigits number] at some
      obtain ⟨long, -⟩ := width_bounds (fun c => isDigit_of_mem_toDigits) some
      rw [value_toDigits] at long
      have narrow : 10 ^ ((Nat.toDigits 10 number).dropWhile (· = '0')).length < 10 ^ 22 := by omega
      have short := (Nat.pow_lt_pow_iff_right (by decide)).mp narrow
      rw [if_neg (by omega), if_neg (by omega)]
      rfl
  rw [toFloat]
  simp only [List.append_nil, value_toDigits, List.length_nil, Nat.cast_zero, sub_zero, read]

end Numeral

/-! ## Floats -/

theorem Binary.exists_of_isFinite {x : Float} (finite : x.isFinite = true) :
    ∃ value, Binary.ofFloat? x = some value := by
  have exponents := toNat_unpackExponent x
  by_cases great : x.toBits.toNat / hiddenBit % 2048 = 2047
  · rw [great] at exponents
    have full : Float.Model.UnpackedFloat.unpackExponent (word x) = -1#11 := BitVec.eq_of_toNat_eq exponents
    change (Float.Model.UnpackedFloat.unpack Float.Model.Format.binary64 (word x)).isFinite = true at finite
    simp only [Float.Model.UnpackedFloat.unpack, if_pos full] at finite
    split at finite <;> exact Bool.noConfusion finite
  · simp only [ofFloat?, if_neg great]
    split
    · exact ⟨_, rfl⟩
    · exact ⟨_, rfl⟩

namespace Decimal

variable {x : Float} {value : Binary}

theorem plain_reads (layout : Layout) (found : Binary.ofFloat? x = some value) :
    ∃ whole fraction, Numeral.Spells ⟨false, whole, fraction, 0⟩ (layout.plain (shortest layout.tie value)) ∧
      Numeral.toFloat ⟨value.negative, whole, fraction, 0⟩ = x := by
  obtain ⟨whole, fraction, parts, behind, read⟩ := layout.plain_parts (shortest_proper layout.tie value)
  obtain ⟨point, pointed, text⟩ := parts.pointed
  have spelled : Numeral.Spells ⟨false, whole, fraction, 0⟩ (layout.plain (shortest layout.tie value)) := by
    have spelled := Numeral.Spells.parts parts.digits pointed (.inl parts.filled) .absent
    rwa [List.append_nil, ← text] at spelled
  refine ⟨whole, fraction, spelled, ?_⟩
  refine (Binary.eq_of_magnitude found (fun none => ?_) fun canonical => ?_).symm
  · have zero : shortest layout.tie value = ⟨0, 0⟩ := if_pos none
    rw [zero, Nat.zero_mul] at read
    rw [read, Numeral.nearest, if_pos rfl]
    decide +kernel
  · obtain ⟨up, down, scaled⟩ : ∃ up down : Nat, -value.exponent = up - down :=
      ⟨(-value.exponent).toNat, value.exponent.toNat, by omega⟩
    have some : Numeral.value (whole ++ fraction) ≠ 0 := by
      rw [read]
      exact Nat.mul_ne_zero (shortest_digits_ne_zero layout.tie canonical.pos.ne') (Nat.pow_pos (by decide)).ne'
    have all : ∀ c ∈ whole ++ fraction, Numeral.isDigit c = true := fun c member =>
      (List.mem_append.mp member).elim (parts.digits c) (pointed.all_digits c)
    obtain ⟨long, short⟩ := Numeral.width_bounds all some
    have enough : (-(shortest layout.tie value).exponent).toNat ≤ layout.places (shortest layout.tie value) ∧
        layout.places (shortest layout.tie value) ≤ 2048 := by
      have least := least_exponent layout.tie canonical
      rw [Layout.places]
      split
      · split <;> omega
      · omega
    have rounds := shifted_roundsTo canonical enough.1 scaled
    rw [← read] at rounds
    simp only [zero_sub, behind]
    exact canonical.nearest_of_roundsTo some long short enough.2 scaled rounds

end Decimal
end BranchingStory
