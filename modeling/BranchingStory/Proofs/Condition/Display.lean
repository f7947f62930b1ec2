import BranchingStory.Condition.Operand
import BranchingStory.Proofs.Decimal.Plain
import BranchingStory.Proofs.Decimal.Sum

/-!
Numbers as texts. The text of a number is read back as the number, but for the whole numbers that are shown although
they lie beyond the integers of 64 bits: their text is that of the greatest or the least of these.
-/

namespace BranchingStory

namespace Condition

open Numeral (inNumeral)

/-! ## Numerals among texts -/

theorem plain_of_inNumeral {c : Char} (belongs : inNumeral c = true) :
    isBlank c = false ∧ isForeignLetter c = false := by
  have codes : ∀ code < 128, inNumeral (Char.ofNat code) = true →
      isBlank (Char.ofNat code) = false ∧ isForeignLetter (Char.ofNat code) = false := by
    decide +kernel
  have small : c.toNat < 128 := by
    simp only [inNumeral, Numeral.isDigit, Bool.or_eq_true, Bool.and_eq_true, decide_eq_true_eq, List.contains_iff_mem,
      List.mem_cons, List.not_mem_nil, or_false] at belongs
    rcases belongs with ⟨-, most⟩ | rfl | rfl | rfl | rfl | rfl
    · have high : c.toNat ≤ 0x39 := most
      omega
    all_goals decide
  have found := codes c.toNat small
  rw [Char.ofNat_toNat] at found
  exact found belongs

theorem trimBlanks_of_plain {text : List Char} (plain : ∀ c ∈ text, isBlank c = false) : trimBlanks text = text := by
  have kept {text : List Char} (plain : ∀ c ∈ text, isBlank c = false) : text.dropWhile isBlank = text := by
    cases text with
    | nil => rfl
    | cons first rest => rw [List.dropWhile_cons_of_neg (by simp [plain first List.mem_cons_self])]
  rw [trimBlanks, kept plain, kept fun c member => plain c (List.mem_reverse.mp member), List.reverse_reverse]

section

variable {numeral : Numeral} {text : List Char}

theorem readNumber_of_denotes {source : String} (denotes : numeral.Denotes (trimBlanks source.toList)) :
    readNumber source = numeral.toFloat := by
  have definite {word : List Char} (letter : 'I' ∈ word) : trimBlanks source.toList ≠ word := by
    intro same
    exact absurd (denotes.inNumeral 'I' (same ▸ letter)) (by decide)
  have plain : (trimBlanks source.toList).any isForeignLetter = false :=
    List.any_eq_false.mpr fun c member => by simp [(plain_of_inNumeral (denotes.inNumeral c member)).2]
  simp only [readNumber, List.isEmpty_eq_false_iff.mpr denotes.ne_nil, plain, denotes.ofText?_eq]
  rw [if_neg (by simp), if_neg (not_or.mpr ⟨definite (by decide), definite (by decide)⟩), if_neg (definite (by decide)),
    if_neg (by simp)]

theorem readNumber_of_spells (spells : numeral.Spells text) (negative : Bool) :
    readNumber (String.ofList ((if negative then ['-'] else []) ++ text)) =
      Numeral.toFloat { numeral with negative } := by
  have denotes := spells.denotes negative
  refine readNumber_of_denotes ?_
  rwa [String.toList_ofList,
    trimBlanks_of_plain fun c member => (plain_of_inNumeral (denotes.inNumeral c member)).1]

end

/-! ## Whole numbers -/

theorem toString_negSucc (before : Nat) :
    toString (Int.negSucc before) = String.ofList ('-' :: Nat.toDigits 10 (before + 1)) := by
  change "-" ++ Nat.repr (before + 1) = _
  simp [← String.toList_inj, Nat.toList_repr]

theorem readNumber_toString {number : Int} (small : number.natAbs < 10 ^ 21) :
    readNumber (toString number) = Float.ofInt number := by
  cases number with
  | ofNat magnitude =>
      have few : magnitude < 10 ^ 21 := small
      exact (readNumber_of_spells (Numeral.spells_toDigits magnitude) false).trans (Numeral.toFloat_toDigits false few)
  | negSucc before =>
      have few : before + 1 < 10 ^ 21 := small
      rw [toString_negSucc]
      exact (readNumber_of_spells (Numeral.spells_toDigits _) true).trans (Numeral.toFloat_toDigits true few)

/-! ## Numbers and their texts -/

theorem render_of_ofFloat? {x : Float} {value : Binary} (found : Binary.ofFloat? x = some value) :
    displayLayout.render "Infinity" "NaN" x =
      String.ofList ((if value.negative then ['-'] else []) ++
        displayLayout.plain (Decimal.shortest displayLayout.tie value)) := by
  simp only [Layout.render, found]
  cases negative : value.negative <;> simp [Layout.finite, displayLayout, negative]

theorem readNumber_displayNumber {x : Float} (finite : x.isFinite = true) :
    readNumber (displayNumber x) =
      match wholeNumber? x with
      | some number => if number.natAbs < 10 ^ 21 then Float.ofInt (clampWord number) else x
      | none => x := by
  obtain ⟨value, found⟩ := Binary.exists_of_isFinite finite
  have rendered : readNumber (displayLayout.render "Infinity" "NaN" x) = x := by
    obtain ⟨whole, fraction, spelled, same⟩ := Decimal.plain_reads displayLayout found
    rw [render_of_ofFloat? found]
    exact (readNumber_of_spells spelled value.negative).trans same
  rw [displayNumber]
  cases wholeNumber? x with
  | none => exact rendered
  | some number =>
      have limit : 10 ^ 21 = 1000000000000000000000 := by norm_num
      simp only [limit]
      split
      · rename_i small
        exact readNumber_toString (by rw [clampWord]; omega)
      · exact rendered

/-- A number that is an integer of 64 bits, or the first beyond them, if it is shown as an integer at all. -/
def Representable (x : Float) : Prop :=
  ∀ number, wholeNumber? x = some number → number.natAbs < 10 ^ 21 → -2 ^ 63 ≤ number ∧ number ≤ 2 ^ 63

theorem displayNumber_of_whole {x : Float} {number : Int} (found : wholeNumber? x = some number)
    (small : number.natAbs < 10 ^ 21) : displayNumber x = toString (clampWord number) := by
  have few : number.natAbs < 1000000000000000000000 := by omega
  simp only [displayNumber, found, if_pos few]

theorem ofInt_clampWord_beq_iff {x : Float} {number : Int} (found : wholeNumber? x = some number) :
    (Float.ofInt (clampWord number) == x) = true ↔ -2 ^ 63 ≤ number ∧ number ≤ 2 ^ 63 := by
  have equal := ofInt_beq_of_wholeNumber? found
  constructor
  · intro same
    have clamped := wholeNumber?_of_beq same found
    by_contra outside
    by_cases great : 2 ^ 63 < number
    · have greatest : wholeNumber? (Float.ofInt 9223372036854775807) = some 9223372036854775808 := by decide +kernel
      rw [show clampWord number = 9223372036854775807 by rw [clampWord]; omega, greatest] at clamped
      have same := Option.some.inj clamped
      omega
    · have least : wholeNumber? (Float.ofInt (-9223372036854775808)) = some (-9223372036854775808) := by decide +kernel
      rw [show clampWord number = -9223372036854775808 by rw [clampWord]; omega, least] at clamped
      have same := Option.some.inj clamped
      omega
  · rintro ⟨low, high⟩
    by_cases bound : number = 2 ^ 63
    · have rounded : Float.ofInt 9223372036854775807 = Float.ofInt (2 ^ 63) :=
        congrArg Float.ofModel (Binary.model_eq_of_bits (by decide +kernel))
      rw [bound] at equal ⊢
      exact rounded ▸ equal
    · rwa [show clampWord number = number by rw [clampWord]; omega]

theorem text_is_number {x : Float} (finite : x.isFinite = true) :
    (((Operand.text (Operand.number x).display).toNumber == x) = true ↔ Representable x) ∧
      ((Operand.number x).looselyEqual (.text (Operand.number x).display) = true ↔ Representable x) ∧
      ∀ number, wholeNumber? x = some number → number.natAbs < 10 ^ 21 →
        ((Operand.number x).display = toString number ↔ -2 ^ 63 ≤ number ∧ number < 2 ^ 63) := by
  have self : (x == x) = true := beq_self_of_isFinite finite
  have reads : (readNumber (displayNumber x) == x) = true ↔ Representable x := by
    rw [readNumber_displayNumber finite]
    cases found : wholeNumber? x with
    | none => simp [Representable, found, self]
    | some number =>
        simp only
        split
        · rename_i small
          rw [ofInt_clampWord_beq_iff found]
          exact ⟨fun range _ same _ => Option.some.inj (found.symm.trans same) ▸ range,
            fun all => all number found small⟩
        · rename_i large
          exact ⟨fun _ _ same few => absurd (Option.some.inj (found.symm.trans same) ▸ few) large, fun _ => self⟩
  refine ⟨reads, ?_, fun number found small => ?_⟩
  · rw [← reads, BEq.comm]
    rfl
  · change displayNumber x = toString number ↔ _
    rw [displayNumber_of_whole found small]
    have injective : toString (clampWord number) = toString number ↔ clampWord number = number := Int.repr_inj
    rw [injective, clampWord]
    omega

theorem displayNumber_eq_iff {x y : Float} {number other : Int} (found : wholeNumber? x = some number)
    (small : number.natAbs < 10 ^ 21) (read : wholeNumber? y = some other) (few : other.natAbs < 10 ^ 21) :
    displayNumber x = displayNumber y ↔
      number = other ∨ 2 ^ 63 - 1 ≤ min number other ∨ max number other ≤ -2 ^ 63 := by
  rw [displayNumber_of_whole found small, displayNumber_of_whole read few]
  have injective : toString (clampWord number) = toString (clampWord other) ↔ clampWord number = clampWord other :=
    Int.repr_inj
  rw [injective, clampWord, clampWord]
  omega

example : displayNumber (Float.ofNat 10000000000000000000) = displayNumber (Float.ofNat 20000000000000000000) := by
  decide +kernel

end Condition
end BranchingStory
