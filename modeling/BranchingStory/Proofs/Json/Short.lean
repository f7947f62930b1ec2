import BranchingStory.Proofs.Decimal.Shortest
import BranchingStory.Proofs.Decimal.Spelled
import BranchingStory.Proofs.Json.Printed

/-!
Floats of few digits that are printed and read again. Wherever the layout puts the point, the literal has the digits
of the float and scales them by the same power of ten, and both are read exactly.
-/

namespace BranchingStory

open Numeral (isDigit Stops)

/-! ## The values of literals -/

namespace NumberLiteral

theorem value_of_le {negative : Bool} {whole : List Char} {fraction : Option (List Char)}
    {exponent : Option (Bool × List Char)} (pointed : fraction ≠ none ∨ exponent ≠ none)
    (small : Numeral.value (whole ++ fraction.getD []) ≤ significandLimit) :
    (NumberLiteral.mk negative whole fraction exponent).value =
      (withExponent negative (Numeral.value (whole ++ fraction.getD [])) (-((fraction.getD []).length : Int))
        exponent).map .real := by
  have joined : Numeral.value (whole ++ fraction.getD []) =
      (fraction.getD []).foldl (fun total digit => 10 * total + (digit.toNat - '0'.toNat)) (Numeral.value whole) :=
    List.foldl_append
  have first : accumulate 0 whole = (Numeral.value whole, 0) :=
    accumulate_of_le (Nat.le_trans (le_foldl _ _) (joined.symm.le.trans small))
  have second := accumulate_of_le (joined.symm.le.trans small)
  rw [← joined] at second
  simp only [value, first]
  cases fraction with
  | some digits =>
      simp only [Option.getD_some] at second ⊢
      simp [second]
  | none =>
      cases exponent with
      | none => simp at pointed
      | some written =>
          simp only [Option.getD_none] at second ⊢
          simp [second]

theorem toFloat_of_places (negative : Bool) (significand : Nat) {places : Nat} (some : 0 < places) (few : places ≤ 308) :
    toFloat negative significand (-(places : Int)) =
      Option.some (if negative then -(Float.ofNat significand / Float.ofScientific 1 false places)
        else Float.ofNat significand / Float.ofScientific 1 false places) := by
  have magnitude : (-(places : Int)).natAbs = places := by omega
  have below : ¬ 0 ≤ -(places : Int) := by omega
  rw [toFloat, scale, magnitude, if_pos few, if_neg below]
  rfl

end NumberLiteral

/-! ## Literals with a point -/

namespace Json

section

variable {whole after rest : List Char}

theorem takeMinus_of_whole? (plain : whole? whole = some (whole, [])) (after : List Char) :
    takeMinus (whole ++ after) = (false, whole ++ after) := by
  cases whole with
  | nil => simp [whole?] at plain
  | cons first rest =>
      have unsigned : first ≠ '-' := by
        rintro rfl
        simp [whole?, isDigit] at plain
      simp [takeMinus, unsigned]

theorem literal?_parts {fraction : Option (List Char)} {exponent : Option (Bool × List Char)} (negative : Bool)
    (plain : whole? whole = some (whole, [])) (stops : Stops after) (pointed : fraction? after = some (fraction, rest))
    (scaled : exponent? rest = some (exponent, [])) :
    literal? ((if negative then ['-'] else []) ++ (whole ++ after)) =
      some (⟨negative, whole, fraction, exponent⟩, []) := by
  have signed : takeMinus ((if negative then ['-'] else []) ++ (whole ++ after)) = (negative, whole ++ after) := by
    cases negative with
    | false => exact takeMinus_of_whole? plain after
    | true => rfl
  simp only [literal?, signed, whole?_append stops plain, List.nil_append, Option.bind_eq_bind, Option.bind_some, pointed,
    scaled, pure]

theorem fraction?_digits {digits : List Char} (nonempty : digits ≠ []) (all : ∀ c ∈ digits, isDigit c = true)
    (stops : Stops rest) : fraction? ('.' :: (digits ++ rest)) = some (some digits, rest) := by
  simp [fraction?, Numeral.takeWhile_digits all stops, Numeral.dropWhile_digits all stops, nonempty]

end

/-- Text that is read as a whole number divided by a power of ten, with or without a sign before it. -/
def Spells (magnitude : List Char) (digits places : Nat) : Prop :=
  ∀ negative : Bool, ∃ literal,
    literal? ((if negative then ['-'] else []) ++ magnitude) = some (literal, []) ∧
      literal.value = (NumberLiteral.toFloat negative digits (-(places : Int))).map .real

section

variable {whole fraction : List Char}

theorem spells_point (plain : whole? whole = some (whole, [])) (nonempty : fraction ≠ [])
    (all : ∀ c ∈ fraction, isDigit c = true) (small : Numeral.value (whole ++ fraction) ≤ NumberLiteral.significandLimit) :
    Spells (whole ++ '.' :: fraction) (Numeral.value (whole ++ fraction)) fraction.length := by
  intro negative
  have ends : Stops [] := by simp [Stops]
  have pointed := fraction?_digits nonempty all ends
  rw [List.append_nil] at pointed
  have stops : Stops ('.' :: fraction) := by simp [Stops, isDigit]
  exact ⟨_, literal?_parts negative plain stops pointed rfl, NumberLiteral.value_of_le (.inl (by simp)) small⟩

theorem spells_exponent {first : Char} {after : List Char} {fraction : Option (List Char)} {power : Nat}
    (digit : isDigit first = true) (stops : Stops after)
    (pointed : fraction? after = some (fraction, 'e' :: '-' :: Nat.toDigits 10 power)) (few : power < 2147483648)
    (small : Numeral.value (first :: fraction.getD []) ≤ NumberLiteral.significandLimit) :
    Spells (first :: after) (Numeral.value (first :: fraction.getD [])) ((fraction.getD []).length + power) := by
  intro negative
  have plain : whole? [first] = some ([first], []) := whole?_of_digits (by simp) (by simpa using digit) (.inl rfl)
  have scaled : exponent? ('e' :: '-' :: Nat.toDigits 10 power) = some (some (true, Nat.toDigits 10 power), []) := by
    have all : ∀ c ∈ Nat.toDigits 10 power, isDigit c = true := fun c => Numeral.isDigit_of_mem_toDigits
    have ends : Stops [] := by simp [Stops]
    have taken := Numeral.takeWhile_digits all ends
    have dropped := Numeral.dropWhile_digits all ends
    rw [List.append_nil] at taken dropped
    simp [exponent?, Numeral.takeSign, taken, dropped]
  have read := literal?_parts negative plain stops pointed scaled
  refine ⟨_, read, ?_⟩
  have places : -(((fraction.getD []).length : Nat) : Int) - (power : Int) =
      -(((fraction.getD []).length + power : Nat) : Int) := by
    omega
  rw [NumberLiteral.value_of_le (.inr (by simp)) small, NumberLiteral.withExponent, Numeral.value_toDigits]
  simp only [if_pos few, if_true, places]
  rfl

end

/-! ## The layout of short floats -/

section

variable {value : Decimal}

theorem written_le (short : value.Short) : value.written ≤ NumberLiteral.significandLimit :=
  short.fits.le.trans (by decide)

theorem places_floatLayout (value : Decimal) : floatLayout.places value = value.places := by
  simp only [Layout.places, floatLayout, Decimal.places, if_true]
  split <;> omega

theorem spells_plain (short : value.Short) (proper : value.digits = 0 → value.exponent = 0) :
    Spells (floatLayout.plain value) value.written value.places := by
  obtain ⟨whole, fraction, parts, behind, read⟩ := floatLayout.plain_parts proper
  obtain ⟨point, pointed, text⟩ := parts.pointed
  have positive : 0 < value.places := Nat.lt_of_lt_of_le Nat.one_pos (Nat.le_max_left _ _)
  have power : (value.exponent + (value.places : Nat)).toNat = (value.exponent + 1).toNat := by
    simp only [Decimal.places]
    omega
  rw [places_floatLayout] at behind read
  rw [power] at read
  change Numeral.value (whole ++ fraction) = value.written at read
  cases pointed with
  | absent => exact absurd behind.symm positive.ne'
  | point all some =>
      have spelled := spells_point (whole?_of_digits parts.filled parts.digits parts.first) some all
        (read.le.trans (written_le short))
      rwa [← text, read, behind] at spelled

theorem spells_scientific (short : value.Short) (below : Layout.leading value < -5) :
    Spells (floatLayout.scientific value) value.written value.places := by
  have small := written_le short
  have few := short.few
  simp only [Decimal.places] at few
  obtain ⟨first, rest, digits, digit⟩ := head?_toDigits value.digits
  have width : Decimal.width value.digits = rest.length + 1 := by
    rw [Decimal.width, digits]
    rfl
  simp only [Layout.leading, width] at below
  have power : (value.exponent + 1).toNat = 0 := by omega
  rw [Decimal.written, power, Nat.pow_zero, Nat.mul_one] at small ⊢
  have places : value.places = rest.length + (Layout.leading value).natAbs := by
    simp only [Decimal.places, Layout.leading, width]
    omega
  have read : Numeral.value (first :: rest) = value.digits := by
    rw [← digits, Numeral.value_toDigits]
  have scaled : (Layout.leading value).natAbs < 2147483648 := by
    simp only [Layout.leading, width]
    omega
  have negative : Layout.leading value < 0 := by
    simp only [Layout.leading, width]
    omega
  have all : ∀ c ∈ rest, isDigit c = true := by
    intro c member
    exact Numeral.isDigit_of_mem_toDigits (digits ▸ List.mem_cons_of_mem first member)
  have marked : Stops ('e' :: '-' :: Nat.toDigits 10 (Layout.leading value).natAbs) := by simp [Stops, isDigit]
  rw [places]
  simp only [Layout.scientific, digits, if_pos negative]
  rw [← read] at small ⊢
  rw [List.append_assoc]
  cases rest with
  | nil =>
      have unpointed : fraction? ('e' :: '-' :: Nat.toDigits 10 (Layout.leading value).natAbs) = some (none, _) := rfl
      have spelled := spells_exponent digit marked unpointed scaled small
      exact spelled
  | cons next more =>
      have stops : Stops ('.' :: (next :: more ++ 'e' :: '-' :: Nat.toDigits 10 (Layout.leading value).natAbs)) := by
        simp [Stops, isDigit]
      have spelled := spells_exponent digit stops (fraction?_digits (by simp) all marked) scaled small
      exact spelled

theorem spells_short (short : value.Short) (proper : value.digits = 0 → value.exponent = 0) :
    Spells
      (if value.digits = 0 || -5 ≤ Layout.leading value && Layout.leading value ≤ 15 then floatLayout.plain value
        else floatLayout.scientific value) value.written value.places := by
  split
  · exact spells_plain short proper
  · rename_i outside
    simp only [Bool.or_eq_true, Bool.and_eq_true, decide_eq_true_eq, not_or, not_and] at outside
    have most := short.leading_le outside.1
    exact spells_scientific short (by omega)

end

end Json

/-! ## Short floats -/

/-- A finite float that is written in few digits. -/
def FewDigits (x : Float) : Prop := ∃ value ∈ Binary.ofFloat? x, (Decimal.shortest .even value).Short

instance (x : Float) : Decidable (FewDigits x) :=
  inferInstanceAs (Decidable (∃ value ∈ Binary.ofFloat? x, (Decimal.shortest .even value).Short))

theorem FewDigits.lossless {x : Float} (few : FewDigits x) : (Number.real x).Lossless := by
  obtain ⟨value, found, short⟩ := few
  obtain ⟨literal, read, known⟩ := Json.spells_short short (Decimal.shortest_proper .even value) value.negative
  refine ⟨literal, ?_, ?_⟩
  · rw [Json.printNumber, found]
    simp only [Layout.finite, String.toList_ofList]
    cases negative : value.negative with
    | false =>
        rw [negative] at read
        exact read
    | true =>
        rw [negative] at read
        exact read
  · have positive : 0 < (Decimal.shortest .even value).places := Nat.lt_of_lt_of_le Nat.one_pos (Nat.le_max_left _ _)
    rw [known, NumberLiteral.toFloat_of_places _ _ positive (short.few.trans (by decide))]
    exact congrArg (fun x => some (Number.real x)) (short.eq_div found).symm

/-- A 64-bit integer, or a float of few digits. -/
def Number.Plain : Number → Prop
  | .integer value => (Number.integer value).Whole
  | .real value => FewDigits value

instance : (number : Number) → Decidable number.Plain
  | .integer value => inferInstanceAs (Decidable (Number.integer value).Whole)
  | .real value => inferInstanceAs (Decidable (FewDigits value))

theorem Number.Plain.lossless {number : Number} (plain : number.Plain) : number.Lossless := by
  cases number with
  | integer value => exact Number.Whole.lossless plain
  | real value => exact FewDigits.lossless plain

end BranchingStory
