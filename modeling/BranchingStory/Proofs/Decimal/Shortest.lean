import BranchingStory.Decimal.Layout
import BranchingStory.Proofs.Decimal.Nearest

/-!
The digits that a float is written with. The search for them stops at a decimal in the interval of the float, and to
drop zeros at the end changes nothing of that.
-/

namespace BranchingStory

namespace Decimal

/-! ## The search -/

theorem closer_eq (tie : Tie) (value down grid : Nat) :
    closer tie value down grid = down ∨ closer tie value down grid = down + 1 := by
  simp only [closer]
  split
  · exact .inl rfl
  · split
    · exact .inr rfl
    · cases tie with
      | up => exact .inr rfl
      | even =>
          change (if down % 2 = 0 then down else down + 1) = down ∨ (if down % 2 = 0 then down else down + 1) = down + 1
          split
          · exact .inl rfl
          · exact .inr rfl

namespace Interval

variable {interval : Interval}

theorem contains_search (tie : Tie) (inside : interval.contains interval.value = true) (power : Nat) :
    interval.contains ((interval.search tie power).1 * 10 ^ (interval.search tie power).2) = true := by
  induction power with
  | zero => simpa [search] using inside
  | succ power ih =>
      simp only [search, Nat.pow_eq]
      split
      · rename_i down up
        obtain same | same := closer_eq tie interval.value (interval.value / 10 ^ (power + 1)) (10 ^ (power + 1))
        · rw [same]
          exact down
        · rw [same]
          exact up
      · rename_i down _
        exact down
      · rename_i _ up
        exact up
      · exact ih

end Interval

theorem trim_eq (room : Nat) (value : Decimal) :
    ∃ count : Nat, (trim room value).exponent = value.exponent + count ∧
      value.digits = (trim room value).digits * 10 ^ count := by
  induction room generalizing value with
  | zero => exact ⟨0, by simp [trim], by simp [trim]⟩
  | succ room ih =>
      rw [trim]
      split
      · rename_i zero
        obtain ⟨count, exponent, digits⟩ := ih ⟨value.digits / 10, value.exponent + 1⟩
        simp only at exponent digits
        refine ⟨count + 1, by omega, ?_⟩
        rw [Nat.pow_succ, ← Nat.mul_assoc, ← digits]
        omega
      · exact ⟨0, by simp, by simp⟩

/-! ## Intervals of floats -/

namespace Interval

def step (value : Binary) : Nat :=
  if 0 ≤ value.exponent - 2 then 2 ^ (value.exponent - 2).toNat else 5 ^ (-(value.exponent - 2)).toNat

theorem step_pos (value : Binary) : 0 < step value := by
  rw [step]
  split
  · exact Nat.pow_pos (by decide)
  · exact Nat.pow_pos (by decide)

theorem lower_ofBinary (value : Binary) :
    (ofBinary value).lower =
      (4 * value.significand - if value.significand = 2 ^ 52 ∧ -1074 < value.exponent then 1 else 2) * step value := by
  have hidden : Binary.hiddenBit = 2 ^ 52 := rfl
  simp only [ofBinary, step, hidden, Nat.pow_eq, decide_eq_true_eq]
  split <;> rfl

theorem value_ofBinary (value : Binary) : (ofBinary value).value = 4 * value.significand * step value := by
  simp only [ofBinary, step, Nat.pow_eq]
  split <;> rfl

theorem upper_ofBinary (value : Binary) : (ofBinary value).upper = (4 * value.significand + 2) * step value := by
  simp only [ofBinary, step, Nat.pow_eq]
  split <;> rfl

theorem contains_value {value : Binary} (some : value.significand ≠ 0) :
    (ofBinary value).contains (ofBinary value).value = true := by
  have low : (ofBinary value).lower < (ofBinary value).value := by
    rw [lower_ofBinary, value_ofBinary]
    refine Nat.mul_lt_mul_of_pos_right ?_ (step_pos value)
    split <;> omega
  have high : (ofBinary value).value < (ofBinary value).upper := by
    rw [value_ofBinary, upper_ofBinary]
    exact Nat.mul_lt_mul_of_pos_right (by omega) (step_pos value)
  rw [contains]
  split
  · rw [Bool.and_eq_true, decide_eq_true_eq, decide_eq_true_eq]
    omega
  · rw [Bool.and_eq_true, decide_eq_true_eq, decide_eq_true_eq]
    omega

theorem le_of_contains {interval : Interval} {number : Nat} (inside : interval.contains number = true) :
    interval.lower ≤ number ∧ number ≤ interval.upper := by
  rw [contains] at inside
  split at inside
  · rw [Bool.and_eq_true, decide_eq_true_eq, decide_eq_true_eq] at inside
    exact inside
  · rw [Bool.and_eq_true, decide_eq_true_eq, decide_eq_true_eq] at inside
    omega

theorem contains_ofBinary {value : Binary} (usual : value.significand = 2 ^ 52 → -1074 < value.exponent)
    (number : Nat) :
    (ofBinary value).contains number = true ↔ RoundsTo value.significand number (4 * step value) := by
  have closed : (ofBinary value).closed = decide (value.significand % 2 = 0) := rfl
  have narrow : (value.significand = 2 ^ 52 ∧ -1074 < value.exponent) ↔ value.significand = 2 ^ 52 :=
    ⟨And.left, fun power => ⟨power, usual power⟩⟩
  simp only [contains, RoundsTo, closed, lower_ofBinary, upper_ofBinary, narrow, decide_eq_true_eq]
  generalize 4 * value.significand - (if value.significand = 2 ^ 52 then 1 else 2) = least
  generalize 4 * value.significand + 2 = most
  have low : least * (4 * step value) = 4 * (least * step value) := by ring
  have high : most * (4 * step value) = 4 * (most * step value) := by ring
  rw [low, high]
  split
  · rw [Bool.and_eq_true, decide_eq_true_eq, decide_eq_true_eq]
    omega
  · rw [Bool.and_eq_true, decide_eq_true_eq, decide_eq_true_eq]
    omega

end Interval

theorem contains_shortest (tie : Tie) {value : Binary} (some : value.significand ≠ 0) :
    ∃ count : Nat, (shortest tie value).exponent = (Interval.ofBinary value).unit + count ∧
      (Interval.ofBinary value).contains ((shortest tie value).digits * 10 ^ count) = true := by
  have found := Interval.contains_search tie (Interval.contains_value some) (width (Interval.ofBinary value).value - 1)
  rw [shortest, if_neg some]
  simp only
  generalize (Interval.ofBinary value).search tie (width (Interval.ofBinary value).value - 1) = result at found ⊢
  obtain ⟨count, exponent, digits⟩ := trim_eq (width result.1) ⟨result.1, (Interval.ofBinary value).unit + result.2⟩
  simp only at exponent digits
  refine ⟨result.2 + count, by omega, ?_⟩
  rwa [Nat.add_comm, Nat.pow_add, ← Nat.mul_assoc, ← digits]

theorem shortest_digits_ne_zero (tie : Tie) {value : Binary} (some : value.significand ≠ 0) :
    (shortest tie value).digits ≠ 0 := by
  intro none
  obtain ⟨count, -, inside⟩ := contains_shortest tie some
  have low := (Interval.le_of_contains inside).1
  rw [none, Nat.zero_mul, Interval.lower_ofBinary] at low
  have positive : 0 < (4 * value.significand -
      if value.significand = 2 ^ 52 ∧ -1074 < value.exponent then 1 else 2) * Interval.step value := by
    refine Nat.mul_pos ?_ (Interval.step_pos value)
    split <;> omega
  omega

/-- The least of the normal floats is the only one whose interval is as wide below as above although its significand
is a power of two. Its digits lie in the narrower interval as well. -/
theorem shortest_roundsTo_least (tie : Tie) (negative : Bool) :
    let decimal := shortest tie ⟨negative, 2 ^ 52, -1074⟩
    RoundsTo (2 ^ 52) (decimal.digits * 10 ^ decimal.exponent.toNat * 2 ^ 1074)
      (10 ^ (-decimal.exponent).toNat * 2 ^ 0) := by
  cases tie <;> cases negative <;> simp only [RoundsTo] <;> decide +kernel

theorem shortest_roundsTo (tie : Tie) {value : Binary} (canonical : Canonical value.significand value.exponent)
    {up down : Nat} (scaled : -value.exponent = up - down) :
    RoundsTo value.significand ((shortest tie value).digits * 10 ^ (shortest tie value).exponent.toNat * 2 ^ up)
      (10 ^ (-(shortest tie value).exponent).toNat * 2 ^ down) := by
  have tens : 0 < 10 ^ (-(shortest tie value).exponent).toNat := Nat.pow_pos (by decide)
  have steps : 0 < 10 ^ (-(shortest tie value).exponent).toNat * 2 ^ down := Nat.mul_pos tens (Nat.two_pow_pos down)
  by_cases usual : value.significand = 2 ^ 52 → -1074 < value.exponent
  · obtain ⟨count, exponent, inside⟩ := contains_shortest tie canonical.pos.ne'
    rw [Interval.contains_ofBinary usual] at inside
    refine inside.of_mul_eq (Nat.mul_pos (by decide) (Interval.step_pos value)) steps ?_
    simp only [Interval.ofBinary] at exponent
    rw [Interval.step]
    split
    · rename_i great
      rw [if_pos great] at exponent
      have whole : (-(shortest tie value).exponent).toNat = 0 := by omega
      have same : (shortest tie value).exponent.toNat = count := by omega
      have powers : down = up + 2 + (value.exponent - 2).toNat := by omega
      rw [whole, same, powers]
      ring
    · rename_i small
      rw [if_neg small] at exponent
      have powers : count + (-(shortest tie value).exponent).toNat =
          (shortest tie value).exponent.toNat + (-(value.exponent - 2)).toNat := by omega
      have twos : (-(value.exponent - 2)).toNat + down = up + 2 := by omega
      calc (shortest tie value).digits * 10 ^ count * (10 ^ (-(shortest tie value).exponent).toNat * 2 ^ down)
          = (shortest tie value).digits * 10 ^ (count + (-(shortest tie value).exponent).toNat) * 2 ^ down := by ring
        _ = (shortest tie value).digits * 10 ^ (shortest tie value).exponent.toNat * 5 ^ (-(value.exponent - 2)).toNat *
              2 ^ ((-(value.exponent - 2)).toNat + down) := by
            rw [powers, Nat.pow_add 10, show 10 = 2 * 5 by rfl, Nat.mul_pow 2 5 (-(value.exponent - 2)).toNat]
            ring
        _ = (shortest tie value).digits * 10 ^ (shortest tie value).exponent.toNat * 2 ^ up *
              (4 * 5 ^ (-(value.exponent - 2)).toNat) := by rw [twos]; ring
  · obtain ⟨power, least⟩ := Classical.not_imp.mp usual
    have low := canonical.least
    obtain ⟨negative, significand, exponent⟩ := value
    obtain rfl : significand = 2 ^ 52 := power
    obtain rfl : exponent = -1074 := by
      simp only at low least
      omega
    have rounds := shortest_roundsTo_least tie negative
    simp only at rounds scaled tens steps ⊢
    generalize shortest tie ⟨negative, 2 ^ 52, -1074⟩ = decimal at rounds tens steps ⊢
    refine rounds.of_mul_eq (Nat.mul_pos tens (Nat.two_pow_pos 0)) steps ?_
    obtain ⟨most, most_eq⟩ : ∃ most, most = 1074 := ⟨1074, rfl⟩
    have twos : up = most + down := by omega
    rw [← most_eq, twos]
    ring

theorem shifted_roundsTo {tie : Tie} {value : Binary} (canonical : Canonical value.significand value.exponent)
    {places up down : Nat} (enough : (-(shortest tie value).exponent).toNat ≤ places)
    (scaled : -value.exponent = up - down) :
    RoundsTo value.significand
      ((shortest tie value).digits * 10 ^ ((shortest tie value).exponent + places).toNat * 2 ^ up)
      (10 ^ places * 2 ^ down) := by
  have tens (count : Nat) : 0 < 10 ^ count * 2 ^ down := Nat.mul_pos (Nat.pow_pos (by decide)) (Nat.two_pow_pos down)
  refine (shortest_roundsTo tie canonical scaled).of_mul_eq (tens _) (tens _) ?_
  have shifted : (shortest tie value).exponent.toNat + places =
      ((shortest tie value).exponent + places).toNat + (-(shortest tie value).exponent).toNat := by
    omega
  calc (shortest tie value).digits * 10 ^ (shortest tie value).exponent.toNat * 2 ^ up * (10 ^ places * 2 ^ down)
      = (shortest tie value).digits * 10 ^ ((shortest tie value).exponent.toNat + places) * (2 ^ up * 2 ^ down) := by
        ring
    _ = (shortest tie value).digits * 10 ^ ((shortest tie value).exponent + places).toNat * 2 ^ up *
          (10 ^ (-(shortest tie value).exponent).toNat * 2 ^ down) := by
        rw [shifted]
        ring

theorem shortest_proper (tie : Tie) (value : Binary) :
    (shortest tie value).digits = 0 → (shortest tie value).exponent = 0 := by
  intro none
  have zero : value.significand = 0 := by
    by_contra some
    exact shortest_digits_ne_zero tie some none
  rw [shortest, if_pos zero]

theorem least_exponent (tie : Tie) {value : Binary} (canonical : Canonical value.significand value.exponent) :
    -1076 ≤ (shortest tie value).exponent := by
  have least := canonical.least
  obtain ⟨count, exponent, -⟩ := contains_shortest tie canonical.pos.ne'
  simp only [Interval.ofBinary] at exponent
  split at exponent <;> omega

/-! ## Decimals of few digits -/

def written (value : Decimal) : Nat := value.digits * 10 ^ (value.exponent + 1).toNat

def places (value : Decimal) : Nat := max 1 (-value.exponent).toNat

/-- The digits make up a whole number that a float holds, and so do those of the power of ten that scales it. -/
structure Short (value : Decimal) : Prop where
  fits : value.written < 2 ^ 53
  few : value.places ≤ 22

instance (value : Decimal) : Decidable value.Short :=
  decidable_of_iff (value.written < 2 ^ 53 ∧ value.places ≤ 22)
    ⟨fun ⟨fits, few⟩ => ⟨fits, few⟩, fun ⟨fits, few⟩ => ⟨fits, few⟩⟩

theorem pow_width_le {number : Nat} (some : number ≠ 0) : 10 ^ (width number - 1) ≤ number := by
  by_contra small
  by_cases single : width number - 1 = 0
  · rw [single, Nat.pow_zero] at small
    omega
  · have narrow := (Nat.length_toDigits_le_iff (by decide) (by omega)).mpr (Nat.not_le.mp small)
    have positive : 0 < (Nat.toDigits 10 number).length := Nat.length_toDigits_pos
    simp only [width] at narrow
    omega

theorem Short.leading_le {value : Decimal} (short : value.Short) (some : value.digits ≠ 0) :
    Layout.leading value ≤ 15 := by
  have powers : 10 ^ (width value.digits - 1 + (value.exponent + 1).toNat) < 10 ^ 16 := by
    calc 10 ^ (width value.digits - 1 + (value.exponent + 1).toNat)
        = 10 ^ (width value.digits - 1) * 10 ^ (value.exponent + 1).toNat := Nat.pow_add _ _ _
      _ ≤ value.written := Nat.mul_le_mul_right _ (pow_width_le some)
      _ < 2 ^ 53 := short.fits
      _ < 10 ^ 16 := by decide
  have few := (Nat.pow_lt_pow_iff_right (by decide)).mp powers
  simp only [Layout.leading]
  omega

section

variable {x : Float} {value : Binary} {tie : Tie}

theorem written_roundsTo (canonical : Canonical value.significand value.exponent) {up down : Nat}
    (scaled : -value.exponent = up - down) :
    RoundsTo value.significand ((shortest tie value).written * 2 ^ up)
      (10 ^ (shortest tie value).places * 2 ^ down) := by
  have shifted : ((shortest tie value).exponent + (shortest tie value).places).toNat =
      ((shortest tie value).exponent + 1).toNat := by
    simp only [places]
    omega
  rw [written, ← shifted]
  exact shifted_roundsTo canonical (Nat.le_max_right _ _) scaled

theorem Short.eq_div (short : (shortest tie value).Short) (found : Binary.ofFloat? x = some value) :
    x = if value.negative
      then -(Float.ofNat (shortest tie value).written / Float.ofScientific 1 false (shortest tie value).places)
      else Float.ofNat (shortest tie value).written / Float.ofScientific 1 false (shortest tie value).places := by
  refine Binary.eq_of_magnitude found (fun none => ?_) fun canonical => ?_
  · have zero : shortest tie value = ⟨0, 0⟩ := if_pos none
    rw [zero]
    decide +kernel
  · obtain ⟨up, down, scaled⟩ : ∃ up down : Nat, -value.exponent = up - down :=
      ⟨(-value.exponent).toNat, value.exponent.toNat, by omega⟩
    have some : (shortest tie value).written ≠ 0 :=
      (Nat.mul_pos (Nat.pos_of_ne_zero (shortest_digits_ne_zero tie canonical.pos.ne')) (Nat.pow_pos (by decide))).ne'
    exact canonical.ofNat_div_power some short.fits short.few scaled (written_roundsTo canonical scaled)

end

end Decimal
end BranchingStory
