import BranchingStory.Decimal.Layout
import BranchingStory.Proofs.Decimal.Digits

/-!
How numerals are spelled, said without a reader: all that is read as one, and what is printed as one. The digits of a
decimal that are laid out without an exponent are spelled like one.
-/

namespace BranchingStory
namespace Numeral

inductive SpellsFraction : List Char → List Char → Prop
  | absent : SpellsFraction [] []
  | point {digits : List Char} (all : ∀ c ∈ digits, isDigit c = true) (some : digits ≠ []) :
      SpellsFraction digits ('.' :: digits)

inductive SpellsPower : Int → List Char → Prop
  | absent : SpellsPower 0 []
  | power {mark : Char} {negative : Bool} {sign digits : List Char} (marks : mark = 'e' ∨ mark = 'E')
      (signs : (negative, sign) ∈ [(false, []), (false, ['+']), (true, ['-'])])
      (all : ∀ c ∈ digits, isDigit c = true) (some : digits ≠ []) :
      SpellsPower (if negative then -(value digits : Int) else value digits) (mark :: (sign ++ digits))

inductive Spells : Numeral → List Char → Prop
  | parts {whole fraction point power : List Char} {exponent : Int} (all : ∀ c ∈ whole, isDigit c = true)
      (behind : SpellsFraction fraction point) (some : whole ≠ [] ∨ fraction ≠ [])
      (scaled : SpellsPower exponent power) :
      Spells ⟨false, whole, fraction, exponent⟩ (whole ++ (point ++ power))

variable {numeral : Numeral} {digits fraction point power text rest : List Char} {exponent : Int}

theorem SpellsFraction.all_digits (spells : SpellsFraction digits point) : ∀ c ∈ digits, isDigit c = true := by
  cases spells with
  | absent => exact fun _ => nofun
  | point all => exact all

theorem stops_of_eq {c : Char} (other : isDigit c = false) : Stops (c :: rest) := by
  rintro d ⟨⟩
  exact other

theorem plain_of_mark {mark : Char} (marks : mark = 'e' ∨ mark = 'E') : isDigit mark = false ∧ mark ≠ '.' := by
  rcases marks with rfl | rfl <;> decide

theorem SpellsPower.stops (spells : SpellsPower exponent power) : Stops power := by
  cases spells with
  | absent => exact fun _ => nofun
  | power marks => exact stops_of_eq (plain_of_mark marks).1

theorem takeSign_of_ne {c : Char} (plus : c ≠ '+') (minus : c ≠ '-') : takeSign (c :: rest) = (false, c :: rest) := by
  rw [takeSign]
  · intro more same
    exact minus (List.cons.inj same).1
  · intro more same
    exact plus (List.cons.inj same).1

theorem ne_of_isDigit {c other : Char} (digit : isDigit c = true) (no_digit : isDigit other = false) : c ≠ other := by
  rintro rfl
  rw [digit] at no_digit
  cases no_digit

section

variable {negative : Bool} {sign : List Char}

theorem takeSign_signed {c : Char} (signs : (negative, sign) ∈ [(false, []), (false, ['+']), (true, ['-'])])
    (plus : c ≠ '+') (minus : c ≠ '-') : takeSign (sign ++ c :: rest) = (negative, c :: rest) := by
  simp only [List.mem_cons, List.not_mem_nil, or_false, Prod.mk.injEq] at signs
  obtain ⟨rfl, rfl⟩ | ⟨rfl, rfl⟩ | ⟨rfl, rfl⟩ := signs
  · exact takeSign_of_ne plus minus
  · rfl
  · rfl

theorem takeSign_digits (signs : (negative, sign) ∈ [(false, []), (false, ['+']), (true, ['-'])])
    (all : ∀ c ∈ digits, isDigit c = true) (some : digits ≠ []) (rest : List Char) :
    takeSign (sign ++ (digits ++ rest)) = (negative, digits ++ rest) := by
  obtain ⟨first, more, rfl⟩ := List.exists_cons_of_ne_nil some
  have digit := all first List.mem_cons_self
  exact takeSign_signed signs (ne_of_isDigit digit (by decide)) (ne_of_isDigit digit (by decide))

theorem takeSign_cases (split : takeSign text = (negative, rest)) :
    ∃ sign, (negative, sign) ∈ [(false, []), (false, ['+']), (true, ['-'])] ∧ text = sign ++ rest := by
  rw [takeSign.eq_def] at split
  split at split <;> obtain ⟨rfl, rfl⟩ := Prod.mk.inj split
  · exact ⟨['-'], by simp⟩
  · exact ⟨['+'], by simp⟩
  · exact ⟨[], by simp⟩

end

theorem SpellsPower.exponent?_eq (spells : SpellsPower exponent power) : exponent? power = some exponent := by
  cases spells with
  | absent => rfl
  | @power mark negative sign digits marks signs all filled =>
      have taken := takeSign_digits signs all filled []
      rw [List.append_nil] at taken
      have whole : digits.all isDigit = true := List.all_eq_true.mpr all
      rw [exponent?, if_pos marks, taken]
      simp [filled, whole]

theorem exponent?_eq_some_iff : exponent? power = some exponent ↔ SpellsPower exponent power := by
  refine ⟨fun read => ?_, SpellsPower.exponent?_eq⟩
  cases power with
  | nil =>
      obtain rfl := Option.some.inj read
      exact .absent
  | cons mark rest =>
      obtain ⟨⟨negative, digits⟩, signed⟩ : ∃ parts, takeSign rest = parts := ⟨_, rfl⟩
      obtain ⟨sign, signs, rfl⟩ := takeSign_cases signed
      simp only [exponent?, signed] at read
      split at read
      · rename_i marks
        split at read
        · cases read
        · rename_i proper
          rw [Bool.not_eq_true, Bool.or_eq_false_iff, Bool.not_eq_false', List.isEmpty_eq_false_iff] at proper
          obtain rfl := Option.some.inj read
          exact .power marks signs (List.all_eq_true.mp proper.2) proper.1
      · cases read

/-! ## What is read -/

inductive Mantissa : List Char → List Char → List Char → Prop
  | whole {digits : List Char} (all : ∀ c ∈ digits, isDigit c = true) (some : digits ≠ []) : Mantissa digits [] digits
  | point {whole fraction : List Char} (all : ∀ c ∈ whole, isDigit c = true)
      (behind : ∀ c ∈ fraction, isDigit c = true) (some : whole ≠ [] ∨ fraction ≠ []) :
      Mantissa whole fraction (whole ++ '.' :: fraction)

/-- All that is read as a numeral: digits with a sign before them or without, and with a power of ten or without. -/
inductive Denotes : Numeral → List Char → Prop
  | parts {negative : Bool} {sign whole fraction mantissa power : List Char} {exponent : Int}
      (signs : (negative, sign) ∈ [(false, []), (false, ['+']), (true, ['-'])])
      (digits : Mantissa whole fraction mantissa) (scaled : SpellsPower exponent power) :
      Denotes ⟨negative, whole, fraction, exponent⟩ (sign ++ (mantissa ++ power))

theorem Denotes.ofText?_eq (denotes : Denotes numeral text) : ofText? text = some numeral := by
  cases denotes with
  | @parts negative sign whole fraction mantissa power exponent signs digits scaled =>
      have read := scaled.exponent?_eq
      cases digits with
      | whole all some =>
          simp only [ofText?, takeSign_digits signs all some power, takeWhile_digits all scaled.stops,
            dropWhile_digits all scaled.stops]
          cases scaled with
          | absent => simp [some, read]
          | power marks => rcases marks with rfl | rfl <;> simp_all
      | point all behind some =>
          have taken : takeSign (sign ++ (whole ++ '.' :: (fraction ++ power))) =
              (negative, whole ++ '.' :: (fraction ++ power)) := by
            cases whole with
            | nil => exact takeSign_signed signs (by decide) (by decide)
            | cons first more => exact takeSign_digits signs all (List.cons_ne_nil first more) _
          have stops : Stops ('.' :: (fraction ++ power)) := stops_of_eq (by decide)
          rw [List.append_assoc, List.cons_append]
          simp only [ofText?, taken, takeWhile_digits all stops, dropWhile_digits all stops,
            takeWhile_digits behind scaled.stops, dropWhile_digits behind scaled.stops, read, Option.map_some]
          rw [if_neg]
          rw [Bool.and_eq_true, List.isEmpty_iff, List.isEmpty_iff, not_and_or]
          exact some

theorem ofText?_eq_some_iff : ofText? text = some numeral ↔ Denotes numeral text := by
  refine ⟨fun read => ?_, Denotes.ofText?_eq⟩
  obtain ⟨⟨negative, unsigned⟩, signed⟩ : ∃ parts, takeSign text = parts := ⟨_, rfl⟩
  obtain ⟨sign, signs, rfl⟩ := takeSign_cases signed
  have whole := List.takeWhile_append_dropWhile (p := isDigit) (l := unsigned)
  have all : ∀ c ∈ unsigned.takeWhile isDigit, isDigit c = true := fun c => List.mem_takeWhile_imp
  simp only [ofText?, signed] at read
  split at read
  · rename_i after pointed
    split at read
    · cases read
    · rename_i proper
      rw [Bool.and_eq_true, List.isEmpty_iff, List.isEmpty_iff, not_and_or] at proper
      obtain ⟨exponent, power, rfl⟩ := Option.map_eq_some_iff.mp read
      have denotes := Denotes.parts signs (.point all (fun c => List.mem_takeWhile_imp) proper)
        (exponent?_eq_some_iff.mp power)
      rwa [List.append_assoc, List.cons_append, List.takeWhile_append_dropWhile, ← pointed, whole] at denotes
  · split at read
    · cases read
    · rename_i proper
      rw [Bool.and_eq_true, List.isEmpty_iff, List.isEmpty_iff, not_and_or] at proper
      obtain ⟨exponent, power, rfl⟩ := Option.map_eq_some_iff.mp read
      have denotes := Denotes.parts signs (.whole all (proper.resolve_right fun none => none rfl))
        (exponent?_eq_some_iff.mp power)
      rwa [whole] at denotes

theorem Spells.denotes (spells : Spells numeral text) (negative : Bool) :
    Denotes { numeral with negative } ((if negative then ['-'] else []) ++ text) := by
  have signs : (negative, if negative then ['-'] else []) ∈ [(false, []), (false, ['+']), (true, ['-'])] := by
    cases negative <;> simp
  cases spells with
  | @parts whole fraction point power exponent all behind filled scaled =>
      cases behind with
      | absent => exact .parts signs (.whole all (filled.resolve_right fun none => none rfl)) scaled
      | point digits some =>
          have denotes := Denotes.parts signs (.point all digits filled) scaled
          rwa [List.append_assoc] at denotes

theorem Spells.negative_eq (spells : Spells numeral text) : numeral.negative = false := by
  cases spells with
  | parts => rfl

theorem Spells.ofText?_eq (spells : Spells numeral text) : ofText? text = some numeral := by
  have read := (spells.denotes false).ofText?_eq
  cases spells with
  | parts => exact read

/-! ## The characters of numerals -/

def inNumeral (c : Char) : Bool := isDigit c || ['.', 'e', 'E', '+', '-'].contains c

theorem inNumeral_of_isDigit {c : Char} (digit : isDigit c = true) : inNumeral c = true := by
  rw [inNumeral, digit, Bool.true_or]

theorem Mantissa.inNumeral {whole : List Char} (mantissa : Mantissa whole fraction text) :
    ∀ c ∈ text, inNumeral c = true := by
  cases mantissa with
  | whole all => exact fun c member => inNumeral_of_isDigit (all c member)
  | point all behind =>
      refine List.forall_mem_append.mpr ⟨fun c member => inNumeral_of_isDigit (all c member), ?_⟩
      exact List.forall_mem_cons.mpr ⟨by decide, fun c member => inNumeral_of_isDigit (behind c member)⟩

theorem inNumeral_of_mem_sign {negative : Bool} {sign : List Char}
    (signs : (negative, sign) ∈ [(false, []), (false, ['+']), (true, ['-'])]) : ∀ c ∈ sign, inNumeral c = true := by
  simp only [List.mem_cons, List.not_mem_nil, or_false, Prod.mk.injEq] at signs
  obtain ⟨-, rfl⟩ | ⟨-, rfl⟩ | ⟨-, rfl⟩ := signs <;> exact List.all_eq_true.mp rfl

theorem SpellsPower.inNumeral (spells : SpellsPower exponent power) : ∀ c ∈ power, inNumeral c = true := by
  cases spells with
  | absent => exact fun _ => nofun
  | power marks signs all =>
      refine List.forall_mem_cons.mpr ⟨?_, List.forall_mem_append.mpr ⟨inNumeral_of_mem_sign signs, ?_⟩⟩
      · rcases marks with rfl | rfl <;> decide
      · exact fun c member => inNumeral_of_isDigit (all c member)

theorem Denotes.inNumeral (denotes : Denotes numeral text) : ∀ c ∈ text, inNumeral c = true := by
  cases denotes with
  | parts signs digits scaled =>
      refine List.forall_mem_append.mpr ⟨inNumeral_of_mem_sign signs, ?_⟩
      exact List.forall_mem_append.mpr ⟨digits.inNumeral, scaled.inNumeral⟩

theorem Spells.inNumeral (spells : Spells numeral text) : ∀ c ∈ text, inNumeral c = true :=
  (spells.denotes false).inNumeral

theorem Denotes.ne_nil (denotes : Denotes numeral text) : text ≠ [] := by
  rintro rfl
  cases denotes.ofText?_eq

theorem Spells.ne_nil (spells : Spells numeral text) : text ≠ [] := (spells.denotes false).ne_nil

end Numeral

/-! ## Decimals without an exponent -/

namespace Layout

open Numeral (isDigit SpellsFraction)

/-- A text as the digits before the point and those behind it. A zero comes first only where it stands alone. -/
structure Parts (text whole fraction : List Char) : Prop where
  digits : ∀ c ∈ whole, isDigit c = true
  filled : whole ≠ []
  first : whole.length = 1 ∨ whole.head? ≠ some '0'
  pointed : ∃ point, SpellsFraction fraction point ∧ text = whole ++ point

def places (layout : Layout) (value : Decimal) : Nat :=
  if 0 ≤ value.exponent then if layout.pointZero then 1 else 0 else (-value.exponent).toNat

variable {layout : Layout} {value : Decimal} {number count places : Nat}

theorem parts_zeros_after (proper : number = 0 → count = 0) {fraction point : List Char}
    (behind : SpellsFraction fraction point) :
    Parts (Nat.toDigits 10 number ++ zeros count ++ point) (Nat.toDigits 10 number ++ zeros count) fraction where
  digits := fun c member =>
    (List.mem_append.mp member).elim Numeral.isDigit_of_mem_toDigits Numeral.isDigit_of_mem_zeros
  filled := by simp [Nat.toDigits_ne_nil]
  first := by
    by_cases none : number = 0
    · left
      rw [none, proper none]
      rfl
    · right
      have nonzero := Numeral.head?_toDigits_ne (Nat.pos_of_ne_zero none)
      obtain ⟨first, rest, digits⟩ := List.exists_cons_of_ne_nil (l := Nat.toDigits 10 number) Nat.toDigits_ne_nil
      rw [digits] at nonzero ⊢
      exact nonzero
  pointed := ⟨point, behind, rfl⟩

theorem parts_point_inside (some : 0 < places) (inside : places < (Nat.toDigits 10 number).length) :
    Parts
      ((Nat.toDigits 10 number).take ((Nat.toDigits 10 number).length - places) ++
        '.' :: (Nat.toDigits 10 number).drop ((Nat.toDigits 10 number).length - places))
      ((Nat.toDigits 10 number).take ((Nat.toDigits 10 number).length - places))
      ((Nat.toDigits 10 number).drop ((Nat.toDigits 10 number).length - places)) where
  digits := fun c member => Numeral.isDigit_of_mem_toDigits (List.mem_of_mem_take member)
  filled := by
    rw [← List.length_pos_iff, List.length_take]
    omega
  first := by
    right
    have positive : 0 < number := by
      by_contra none
      obtain rfl : number = 0 := by omega
      have single : (Nat.toDigits 10 0).length = 1 := rfl
      omega
    rw [List.head?_take, if_neg (by omega)]
    exact Numeral.head?_toDigits_ne positive
  pointed := by
    refine ⟨_, .point (fun c member => Numeral.isDigit_of_mem_toDigits (List.mem_of_mem_drop member)) ?_, rfl⟩
    rw [← List.length_pos_iff, List.length_drop]
    omega

theorem parts_zeros_before :
    Parts ('0' :: '.' :: zeros count ++ Nat.toDigits 10 number) ['0'] (zeros count ++ Nat.toDigits 10 number) where
  digits := by simp [isDigit]
  filled := by simp
  first := .inl rfl
  pointed :=
    ⟨_, .point (fun c member =>
      (List.mem_append.mp member).elim Numeral.isDigit_of_mem_zeros Numeral.isDigit_of_mem_toDigits)
      (by simp [Nat.toDigits_ne_nil]), rfl⟩

theorem plain_parts (layout : Layout) (proper : value.digits = 0 → value.exponent = 0) :
    ∃ whole fraction, Parts (layout.plain value) whole fraction ∧ fraction.length = layout.places value ∧
      Numeral.value (whole ++ fraction) = value.digits * 10 ^ (value.exponent + layout.places value).toNat := by
  rw [plain, Layout.places]
  by_cases upward : 0 ≤ value.exponent
  · have zeroed : value.digits = 0 → value.exponent.toNat = 0 := fun none => by rw [proper none]; rfl
    have read := Numeral.value_append_zeros (Nat.toDigits 10 value.digits) value.exponent.toNat
    rw [Numeral.value_toDigits] at read
    simp only [if_pos upward]
    cases layout.pointZero with
    | true =>
        refine ⟨_, ['0'], parts_zeros_after zeroed (.point (by simp [isDigit]) (by simp)), rfl, ?_⟩
        have last := Numeral.value_append_zeros (Nat.toDigits 10 value.digits ++ zeros value.exponent.toNat) 1
        have power : (value.exponent + (1 : Nat)).toNat = value.exponent.toNat + 1 := by omega
        rw [read, Nat.mul_assoc, ← Nat.pow_add] at last
        simp only [if_true, power]
        exact last
    | false =>
        refine ⟨_, [], parts_zeros_after zeroed .absent, rfl, ?_⟩
        simpa using read
  · have power : (value.exponent + ((-value.exponent).toNat : Nat)).toNat = 0 := by omega
    simp only [if_neg upward, power, Nat.pow_zero, Nat.mul_one]
    split
    · rename_i inside
      refine ⟨_, _, parts_point_inside (by omega) inside, ?_, ?_⟩
      · rw [List.length_drop]
        omega
      · rw [List.take_append_drop, Numeral.value_toDigits]
    · rename_i outside
      refine ⟨_, _, parts_zeros_before, ?_, ?_⟩
      · simp only [zeros, List.length_append, List.length_replicate]
        omega
      · exact (Numeral.value_zeros_append _ _).trans (Numeral.value_toDigits value.digits)

end Layout
end BranchingStory
