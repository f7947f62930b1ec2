import BranchingStory.Condition.Expression
import BranchingStory.Proofs.Condition.Display
import BranchingStory.Proofs.Condition.Parts
import BranchingStory.Proofs.Decimal.Rational
import BranchingStory.Proofs.Results

/-!
Numbers as indices. A number is turned into its text and the text is read as an index, and yet each number leads to the
item at its own place or to none: what is shown of a number is read as an index only if the number is that index, or
if it lies beyond all of them.
-/

namespace BranchingStory

open Numeral (isDigit)

/-! ## Texts of indices -/

section

variable {text : String} {i : Nat}

theorem digits_of_index? (found : index? text = some i) :
    ∃ digits, (text.toList = digits ∨ text.toList = '+' :: digits) ∧ (∀ c ∈ digits, isDigit c = true) ∧
      Numeral.value digits = i := by
  have counted {digits : List Char}
      (found : (if digits.isEmpty || !digits.all isDigit then none
        else if Numeral.value digits < 18446744073709551616 then some (Numeral.value digits) else none) = some i) :
      (∀ c ∈ digits, isDigit c = true) ∧ Numeral.value digits = i := by
    split at found
    · cases found
    · rename_i plain
      split at found
      · rw [Bool.not_eq_true, Bool.or_eq_false_iff, Bool.not_eq_false'] at plain
        exact ⟨List.all_eq_true.mp plain.2, Option.some.inj found⟩
      · cases found
  simp only [index?] at found
  split at found
  · rename_i rest signed
    exact ⟨rest, .inr signed, counted found⟩
  · exact ⟨_, .inl rfl, counted found⟩

theorem not_mem_of_index? (found : index? text = some i) {c : Char} (other : isDigit c = false) (unsigned : c ≠ '+') :
    c ∉ text.toList := by
  intro member
  obtain ⟨digits, shape, all, -⟩ := digits_of_index? found
  have listed : c ∈ digits := by
    rcases shape with same | same
    · exact same ▸ member
    · rw [same] at member
      exact (List.mem_cons.mp member).resolve_left unsigned
  exact absurd (all c listed) (by simp [other])

end

namespace Condition

/-! ## Texts of numbers -/

theorem denotes_toString (number : Int) : ∃ numeral, Numeral.Denotes numeral (toString number).toList := by
  cases number with
  | ofNat magnitude =>
      have spelled := (Numeral.spells_toDigits magnitude).denotes false
      change ∃ numeral, Numeral.Denotes numeral (Nat.repr magnitude).toList
      rw [Nat.toList_repr]
      exact ⟨_, spelled⟩
  | negSucc before =>
      rw [toString_negSucc, String.toList_ofList]
      exact ⟨_, (Numeral.spells_toDigits (before + 1)).denotes true⟩

def numberWords : List String := ["Infinity", "-Infinity", "NaN"]

theorem render_of_none {x : Float} (none : Binary.ofFloat? x = none) :
    displayLayout.render "Infinity" "NaN" x ∈ numberWords := by
  simp only [Layout.render, none]
  split
  · decide
  · split
    · decide
    · decide

theorem denotes_displayNumber (x : Float) :
    displayNumber x ∈ numberWords ∨ ∃ numeral, Numeral.Denotes numeral (displayNumber x).toList := by
  have rendered : displayLayout.render "Infinity" "NaN" x ∈ numberWords ∨
      ∃ numeral, Numeral.Denotes numeral (displayLayout.render "Infinity" "NaN" x).toList := by
    cases found : Binary.ofFloat? x with
    | none => exact .inl (render_of_none found)
    | some value =>
        obtain ⟨whole, fraction, spelled, -⟩ := Decimal.plain_reads displayLayout found
        rw [render_of_ofFloat? found, String.toList_ofList]
        exact .inr ⟨_, spelled.denotes value.negative⟩
  rw [displayNumber]
  split
  · split
    · exact .inr (denotes_toString _)
    · exact rendered
  · exact rendered

theorem displayNumber_ne_length (x : Float) : displayNumber x ≠ "length" := by
  intro same
  rcases denotes_displayNumber x with word | ⟨numeral, denotes⟩
  · rw [same] at word
    exact absurd word (by decide)
  · rw [same] at denotes
    exact absurd (denotes.inNumeral 'l' (by decide)) (by decide)

theorem natural_of_index? {value : Binary} {i : Nat}
    (found : index? (String.ofList ((if value.negative then ['-'] else []) ++
      displayLayout.plain (Decimal.shortest displayLayout.tie value))) = some i) :
    value.negative = false ∧ 0 ≤ (Decimal.shortest displayLayout.tie value).exponent ∧
      i = (Decimal.shortest displayLayout.tie value).digits *
        10 ^ (Decimal.shortest displayLayout.tie value).exponent.toNat := by
  obtain ⟨whole, fraction, parts, behind, total⟩ :=
    displayLayout.plain_parts (Decimal.shortest_proper displayLayout.tie value)
  obtain ⟨point, pointed, laid⟩ := parts.pointed
  have unsigned : value.negative = false := by
    by_contra negative
    have sign := not_mem_of_index? found (c := '-') (by decide) (by decide)
    simp [negative] at sign
  have pointless : '.' ∉ point := by
    have absent := not_mem_of_index? found (c := '.') (by decide) (by decide)
    rw [String.toList_ofList, laid] at absent
    exact fun member => absent (List.mem_append_right _ (List.mem_append_right _ member))
  cases pointed with
  | point => exact absurd List.mem_cons_self pointless
  | absent =>
      rw [List.append_nil] at laid total
      have upward : 0 ≤ (Decimal.shortest displayLayout.tie value).exponent := by
        rw [Layout.places] at behind
        split at behind
        · assumption
        · have none : 0 = (-(Decimal.shortest displayLayout.tie value).exponent).toNat := behind
          omega
      obtain ⟨digits, shape, -, read⟩ := digits_of_index? found
      simp only [String.toList_ofList, unsigned, laid, Bool.false_eq_true, if_false, List.nil_append] at shape
      refine ⟨unsigned, upward, ?_⟩
      rw [← behind, List.length_nil, Nat.cast_zero, add_zero] at total
      rcases shape with same | same
      · rw [← total, ← read, same]
      · have digit := parts.digits '+' (same ▸ List.mem_cons_self)
        exact absurd digit (by decide)

theorem whole_of_index? {x : Float} {i : Nat}
    (found : index? (displayLayout.render "Infinity" "NaN" x) = some i) :
    ∃ magnitude : Nat, wholeNumber? x = some (magnitude : Int) ∧ magnitude ≤ 2 * i := by
  cases read : Binary.ofFloat? x with
  | none =>
      have words : ∀ word ∈ numberWords, index? word = none := by decide
      rw [words _ (render_of_none read)] at found
      cases found
  | some value =>
      rw [render_of_ofFloat? read] at found
      obtain ⟨unsigned, upward, same⟩ := natural_of_index? found
      have whole {magnitude : Nat} (measured : value.wholeMagnitude? = some magnitude) :
          wholeNumber? x = some (magnitude : Int) := by
        rw [wholeNumber?_of_read read measured, Binary.sign, unsigned]
        rfl
      by_cases none : value.significand = 0
      · refine ⟨0, whole ?_, Nat.zero_le _⟩
        simp [Binary.wholeMagnitude?, none]
      · have canonical := (Binary.unpack_canonical read none).1
        obtain ⟨up, down, scaled, single⟩ : ∃ up down : Nat, -value.exponent = up - down ∧ (up = 0 ∨ down = 0) :=
          ⟨(-value.exponent).toNat, value.exponent.toNat, by omega, by omega⟩
        have rounds := Decimal.shortest_roundsTo displayLayout.tie canonical scaled
        rw [← same, show (-(Decimal.shortest displayLayout.tie value).exponent).toNat = 0 by omega, Nat.pow_zero,
          Nat.one_mul] at rounds
        obtain ⟨low, high, odd⟩ := rounds.near
        rcases single with rfl | rfl
        · have measured : value.wholeMagnitude? = some (value.significand * 2 ^ down) := by
            rw [Binary.wholeMagnitude?, if_pos (by omega), show value.exponent.toNat = down by omega]
            rfl
          refine ⟨_, whole measured, ?_⟩
          have half : value.significand * 2 ^ down ≤ (2 * value.significand - 1) * 2 ^ down :=
            Nat.mul_le_mul_right _ (by omega)
          rw [Nat.pow_zero, Nat.mul_one] at low
          omega
        · have equal : value.significand = i * 2 ^ up := by
            rw [Nat.pow_zero, Nat.mul_one] at low high
            omega
          refine ⟨i, whole ?_, by omega⟩
          by_cases level : up = 0
          · rw [Binary.wholeMagnitude?, if_pos (by omega), show value.exponent.toNat = 0 by omega, equal, level]
            simp
          · rw [Binary.wholeMagnitude?, if_neg (by omega), show (-value.exponent).toNat = up by omega, equal]
            simp

theorem number_of_index? {number : Int} {i : Nat} (few : number < 2 ^ 64) (found : index? (toString number) = some i) :
    number = i := by
  cases number with
  | ofNat magnitude =>
      have small : magnitude < 2 ^ 64 := Int.ofNat_lt.mp few
      exact congrArg Int.ofNat (Option.some.inj ((index?_toString small).symm.trans found))
  | negSucc before =>
      have sign := not_mem_of_index? found (c := '-') (by decide) (by decide)
      rw [toString_negSucc] at sign
      simp at sign

theorem index?_displayNumber {x : Float} {i : Nat} (few : i < 2 ^ 63 - 1) :
    index? (displayNumber x) = some i ↔ rational? x = some (i : ℚ) := by
  have integral : rational? x = some (i : ℚ) ↔ wholeNumber? x = some (i : Int) := by
    rw [wholeNumber?_eq_some_iff, Int.cast_natCast]
  rw [integral]
  constructor
  · intro found
    cases whole : wholeNumber? x with
    | none =>
        have rendered : displayNumber x = displayLayout.render "Infinity" "NaN" x := by simp only [displayNumber, whole]
        obtain ⟨magnitude, same, -⟩ := whole_of_index? (rendered ▸ found)
        rw [whole] at same
        cases same
    | some number =>
        by_cases small : number.natAbs < 10 ^ 21
        · rw [displayNumber_of_whole whole small] at found
          have clamped := number_of_index? (by rw [clampWord]; omega) found
          rw [clampWord] at clamped
          rw [show number = i by omega]
        · -- Numbers as large as this are shown digit by digit, and their digits are those of no index.
          have rendered : displayNumber x = displayLayout.render "Infinity" "NaN" x := by
            have large : ¬ number.natAbs < 1000000000000000000000 := by omega
            simp only [displayNumber, whole, if_neg large]
          obtain ⟨magnitude, same, near⟩ := whole_of_index? (rendered ▸ found)
          rw [whole, Option.some.injEq] at same
          omega
  · intro whole
    rw [displayNumber_of_whole whole (by omega), show clampWord i = i by rw [clampWord]; omega]
    exact index?_toString (by omega)

/-! ## Items -/

theorem at?_displayNumber {α : Type} (items : List α) (short : items.length < 2 ^ 63) (show_item : α → Operand)
    (x : Float) : ∃ chosen : Option α, Operand.at? items (displayNumber x) show_item = chosen.elim .undefined show_item ∧
      ∀ item, chosen = some item ↔ ∃ i : Nat, rational? x = some (i : ℚ) ∧ items[i]? = some item := by
  refine ⟨(index? (displayNumber x)).bind (items[·]?), ?_, fun item => ?_⟩
  · rw [Operand.at?]
    cases (index? (displayNumber x)).bind (items[·]?) with
    | none => rfl
    | some item => rfl
  · rw [Option.bind_eq_some_iff]
    refine exists_congr fun i => and_congr_left fun found => index?_displayNumber ?_
    have below := (List.getElem?_eq_some_iff.mp found).1
    omega

/-- An array, or a text, has under a number the item, or the character, at the place that the number is, and nothing
under any other number. No text in memory has more characters than are allowed for here. -/
theorem numeric_index_selects {scope : Members} {object index : Expression} {x : Float}
    (indexed : index.eval scope = .ok (.number x)) :
    (∀ items, object.eval scope = .ok (.array items) → items.length < 2 ^ 63 →
      ∃ chosen : Option Json,
        (Expression.member object index).eval scope = .ok (chosen.elim .undefined Operand.ofJson) ∧
        ∀ item, chosen = some item ↔ ∃ i : Nat, rational? x = some (i : ℚ) ∧ items[i]? = some item) ∧
    ∀ text, object.eval scope = .ok (.text text) → text.length < 2 ^ 63 →
      ∃ chosen : Option Char,
        (Expression.member object index).eval scope =
          .ok (chosen.elim .undefined fun c => .text (String.singleton c)) ∧
        ∀ c, chosen = some c ↔ ∃ i : Nat, rational? x = some (i : ℚ) ∧ text.toList[i]? = some c := by
  constructor
  · intro items held short
    obtain ⟨chosen, found, places⟩ := at?_displayNumber items short Operand.ofJson x
    refine ⟨chosen, ?_, places⟩
    rw [Expression.eval, held, indexed, ok_bind, ok_bind, ← found]
    exact congrArg Except.ok (if_neg (displayNumber_ne_length x))
  · intro text held short
    obtain ⟨chosen, found, places⟩ := at?_displayNumber text.toList short
      (fun c => Operand.text (String.singleton c)) x
    refine ⟨chosen, ?_, places⟩
    rw [Expression.eval, held, indexed, ok_bind, ok_bind, ← found]
    exact congrArg Except.ok (if_neg (displayNumber_ne_length x))

theorem last_item_is_selected :
    let items : List Json := [.null, .bool true, .string "park"]
    let array : Expression := .literal (.array items)
    let number (value : Nat) : Expression := .literal (.number (Float.ofNat value))
    items.length < 2 ^ 63 ∧ (Expression.member array (number 2)).eval [] = .ok (.text "park") ∧
      (Expression.member (.literal (.text "né")) (number 1)).eval [] = .ok (.text "é") ∧
      (Expression.member array (number 10000000000000000000)).eval [] = .ok .undefined := by
  intro items array number
  have short : items.length < 2 ^ 63 := by decide
  have held : array.eval [] = .ok (.array items) := rfl
  have indexed (value : Nat) : (number value).eval [] = .ok (.number (Float.ofNat value)) := rfl
  have exactly {value : Nat} (whole : wholeNumber? (Float.ofNat value) = some (value : Int)) :
      rational? (Float.ofNat value) = some (value : ℚ) := by
    rw [← Int.cast_natCast, ← wholeNumber?_eq_some_iff, whole]
  refine ⟨short, ?_, ?_, ?_⟩
  · obtain ⟨item, found, places⟩ := (numeric_index_selects (indexed 2)).1 items held short
    have two : rational? (Float.ofNat 2) = some ((2 : Nat) : ℚ) := exactly (by decide +kernel)
    obtain rfl := (places (.string "park")).mpr ⟨2, two, rfl⟩
    exact found
  · have spoken : (Expression.literal (.text "né")).eval [] = .ok (.text "né") := rfl
    obtain ⟨letter, found, places⟩ := (numeric_index_selects (indexed 1)).2 "né" spoken (by decide)
    have one : rational? (Float.ofNat 1) = some ((1 : Nat) : ℚ) := exactly (by decide +kernel)
    obtain rfl := (places 'é').mpr ⟨1, one, by decide⟩
    exact found
  · obtain ⟨item, missing, places⟩ := (numeric_index_selects (indexed 10000000000000000000)).1 items held short
    have many : rational? (Float.ofNat 10000000000000000000) = some ((10000000000000000000 : Nat) : ℚ) :=
      exactly (by decide +kernel)
    cases item with
    | none => exact missing
    | some item =>
        obtain ⟨i, same, there⟩ := (places item).mp rfl
        rw [many, Option.some.injEq, Nat.cast_inj] at same
        have below : i < 3 := (List.getElem?_eq_some_iff.mp there).1
        omega

end Condition
end BranchingStory
