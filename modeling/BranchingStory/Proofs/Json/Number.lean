import BranchingStory.Proofs.Decimal.Finite

/-!
The numbers that JSON text can stand for. A literal that is too great for a float has no value, so every number
that is read is finite.
-/

namespace BranchingStory

/-- A number that JSON text can stand for: an integer of 64 bits, signed or not, or a finite float. -/
def Number.Finite : Number → Prop
  | .integer value => value.natAbs < 2 ^ 64
  | .real value => value.isFinite = true

instance : (number : Number) → Decidable number.Finite
  | .integer value => inferInstanceAs (Decidable (value.natAbs < 2 ^ 64))
  | .real value => inferInstanceAs (Decidable (value.isFinite = true))

theorem Number.Finite.toFloat {number : Number} (finite : number.Finite) : number.toFloat.isFinite = true := by
  cases number with
  | integer value => exact isFinite_ofInt finite
  | real value => exact finite

namespace NumberLiteral

theorem accumulate_le {significand : Nat} (digits : List Char) (small : significand ≤ significandLimit) :
    (accumulate significand digits).1 ≤ significandLimit := by
  induction digits generalizing significand with
  | nil => exact small
  | cons digit rest ih =>
      rw [accumulate]
      split
      · exact small
      · rename_i below
        exact ih (Nat.not_lt.mp below)

theorem le_foldl (digits : List Char) (start : Nat) :
    start ≤ digits.foldl (fun total digit => 10 * total + (digit.toNat - '0'.toNat)) start := by
  induction digits generalizing start with
  | nil => exact Nat.le_refl start
  | cons digit rest ih =>
      have more : start ≤ 10 * start + (digit.toNat - '0'.toNat) := by omega
      exact Nat.le_trans more (ih _)

theorem accumulate_of_le {significand : Nat} {digits : List Char}
    (small : digits.foldl (fun total digit => 10 * total + (digit.toNat - '0'.toNat)) significand ≤
      significandLimit) :
    accumulate significand digits =
      (digits.foldl (fun total digit => 10 * total + (digit.toNat - '0'.toNat)) significand, 0) := by
  induction digits generalizing significand with
  | nil => rfl
  | cons digit rest ih =>
      have fits := Nat.le_trans (le_foldl rest _) small
      rw [accumulate]
      simp only [if_neg (Nat.not_lt.mpr fits)]
      exact ih small

theorem isFinite_power {exponent : Nat} (bounded : exponent ≤ 308) :
    (Float.ofScientific 1 false exponent).isFinite = true := by
  by_cases none : exponent = 0
  · rw [none]
    exact of_decide_eq_true rfl
  · have large := atLeastEight_power none bounded
    change (Float.ofScientific 1 false exponent).toModel.unpack.isFinite = true
    cases shape : (Float.ofScientific 1 false exponent).toModel.unpack <;> rw [shape] at large <;>
      first | rfl | exact Bool.noConfusion large

theorem isFinite_scale {value scaled : Float} {exponent : Int} {rounds : Nat} (finite : value.isFinite = true)
    (found : scale value exponent rounds = some scaled) : scaled.isFinite = true := by
  induction rounds generalizing value exponent with
  | zero =>
      obtain rfl := Option.some.inj found
      exact of_decide_eq_true rfl
  | succ rounds ih =>
      rw [scale] at found
      split at found
      · rename_i bounded
        split at found
        · simp only at found
          split at found
          · simp at found
          · rename_i usual
            obtain rfl := Option.some.inj found
            exact isFinite_mul finite (isFinite_power bounded) (by simpa using usual)
        · rename_i below
          obtain rfl := Option.some.inj found
          exact isFinite_div finite (atLeastEight_power (by omega) bounded)
      · split at found
        · obtain rfl := Option.some.inj found
          exact finite
        · split at found
          · simp at found
          · exact ih (isFinite_div finite (atLeastEight_power (by decide) (Nat.le_refl 308))) found

theorem isFinite_toFloat {negative : Bool} {significand : Nat} {exponent : Int} {read : Float}
    (small : significand ≤ significandLimit) (found : toFloat negative significand exponent = some read) :
    read.isFinite = true := by
  obtain ⟨value, scaled, rfl⟩ := Option.map_eq_some_iff.mp found
  have finite := isFinite_scale (isFinite_ofNat (Nat.lt_succ_of_le small)) scaled
  split
  · exact isFinite_neg finite
  · exact finite

theorem isFinite_withExponent {negative : Bool} {significand : Nat} {exponent : Int}
    {written : Option (Bool × List Char)} {read : Float} (small : significand ≤ significandLimit)
    (found : withExponent negative significand exponent written = some read) : read.isFinite = true := by
  cases written with
  | none => exact isFinite_toFloat small found
  | some written =>
      simp only [withExponent] at found
      split at found
      · exact isFinite_toFloat small found
      · split at found
        · simp at found
        · obtain rfl := Option.some.inj found
          split <;> exact of_decide_eq_true rfl

theorem finite_of_value {literal : NumberLiteral} {number : Number} (found : literal.value = some number) :
    number.Finite := by
  have small : (accumulate 0 literal.whole).1 ≤ significandLimit := accumulate_le _ (Nat.zero_le _)
  simp only [value] at found
  split at found
  · split at found
    · obtain ⟨read, scaled, rfl⟩ := Option.map_eq_some_iff.mp found
      exact isFinite_toFloat small scaled
    · split at found
      · split at found
        · obtain rfl := Option.some.inj found
          exact isFinite_neg (isFinite_ofNat (Nat.lt_succ_of_le small))
        · rename_i bounded
          obtain rfl := Option.some.inj found
          simp only [Number.Finite]
          omega
      · obtain rfl := Option.some.inj found
        exact Nat.lt_succ_of_le small
  · obtain ⟨read, scaled, rfl⟩ := Option.map_eq_some_iff.mp found
    exact isFinite_withExponent (accumulate_le _ small) scaled

end NumberLiteral
end BranchingStory
