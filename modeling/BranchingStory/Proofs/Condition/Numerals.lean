import BranchingStory.Condition.Lexer
import BranchingStory.Proofs.Decimal.Spelled

/-!
How numerals are found when a condition is split into its tokens. What is found is spelled like a numeral, and none is
cut short.
-/

namespace BranchingStory
namespace Condition

open Numeral (isDigit SpellsFraction SpellsPower)

namespace Lexeme

variable {text rest point power digits : List Char} {scale : Int}

theorem startsWithDigit_append (all : ∀ c ∈ digits, isDigit c = true) (some : digits ≠ []) (rest : List Char) :
    startsWithDigit (digits ++ rest) = true := by
  obtain ⟨first, more, rfl⟩ := List.exists_cons_of_ne_nil some
  exact all first List.mem_cons_self

theorem takeWhile_ne_nil (starts : startsWithDigit text = true) : text.takeWhile isDigit ≠ [] := by
  cases text with
  | nil => cases starts
  | cons first more =>
      have digit : isDigit first = true := starts
      simp [digit]

theorem sign_of_ne {c : Char} (plus : c ≠ '+') (minus : c ≠ '-') : sign (c :: rest) = ([], c :: rest) := by
  rw [sign]
  · intro more same
    exact plus (List.cons.inj same).1
  · intro more same
    exact minus (List.cons.inj same).1

theorem sign_digits (starts : startsWithDigit text = true) : sign text = ([], text) := by
  cases text with
  | nil => rfl
  | cons first more =>
      exact sign_of_ne (Numeral.ne_of_isDigit starts (by decide)) (Numeral.ne_of_isDigit starts (by decide))

theorem sign_cases {signed : List Char} (split : sign text = (signed, rest)) :
    (∃ negative, (negative, signed) ∈ [(false, []), (false, ['+']), (true, ['-'])]) ∧ text = signed ++ rest := by
  rw [sign.eq_def] at split
  split at split <;> obtain ⟨rfl, rfl⟩ := Prod.mk.inj split
  · exact ⟨⟨false, by simp⟩, rfl⟩
  · exact ⟨⟨true, by simp⟩, rfl⟩
  · exact ⟨⟨false, by simp⟩, rfl⟩

theorem exponent_spells (split : exponent text = (power, rest)) :
    (∃ scale, SpellsPower scale power) ∧ text = power ++ rest := by
  cases text with
  | nil =>
      obtain ⟨rfl, rfl⟩ := Prod.mk.inj split
      exact ⟨⟨0, .absent⟩, rfl⟩
  | cons mark behind =>
      obtain ⟨⟨signed, digits⟩, signs⟩ : ∃ parts, sign behind = parts := ⟨_, rfl⟩
      obtain ⟨⟨negative, allowed⟩, rfl⟩ := sign_cases signs
      simp only [exponent, signs] at split
      split at split <;> obtain ⟨rfl, rfl⟩ := Prod.mk.inj split
      · rename_i found
        refine ⟨⟨_, .power found.1 allowed (fun c => List.mem_takeWhile_imp) (takeWhile_ne_nil found.2)⟩, ?_⟩
        simp [List.takeWhile_append_dropWhile]
      · exact ⟨⟨0, .absent⟩, rfl⟩

theorem fraction_spells (split : fraction text = (point, rest)) :
    (∃ digits, SpellsFraction digits point) ∧ text = point ++ rest := by
  rw [fraction.eq_def] at split
  split at split
  · split at split <;> obtain ⟨rfl, rfl⟩ := Prod.mk.inj split
    · rename_i starts
      refine ⟨⟨_, .point (fun c => List.mem_takeWhile_imp) (takeWhile_ne_nil starts)⟩, ?_⟩
      simp [List.takeWhile_append_dropWhile]
    · exact ⟨⟨[], .absent⟩, rfl⟩
  · obtain ⟨rfl, rfl⟩ := Prod.mk.inj split
    exact ⟨⟨[], .absent⟩, rfl⟩

def startsNumeral : List Char → Bool
  | [] => false
  | c :: rest => isDigit c || (c == '.' && startsWithDigit rest)

theorem numeral_parts (split : numeral text = (digits, rest)) : text = digits ++ rest := by
  obtain ⟨⟨point, behind⟩, pointed⟩ : ∃ parts, fraction (text.dropWhile isDigit) = parts := ⟨_, rfl⟩
  obtain ⟨⟨power, left⟩, scaled⟩ : ∃ parts, exponent behind = parts := ⟨_, rfl⟩
  have after := (fraction_spells pointed).2
  obtain rfl := (exponent_spells scaled).2
  simp only [numeral, pointed, scaled] at split
  obtain ⟨rfl, rfl⟩ := Prod.mk.inj split
  rw [List.append_assoc, List.append_assoc, ← after, List.takeWhile_append_dropWhile]

theorem numeral_fst (text : List Char) :
    (numeral text).1 = text.takeWhile isDigit ++ ((fraction (text.dropWhile isDigit)).1 ++
      (exponent (fraction (text.dropWhile isDigit)).2).1) := by
  simp only [numeral, List.append_assoc]

theorem numeral_spells (starts : startsNumeral text = true) :
    ∃ value, Numeral.Spells value (numeral text).1 := by
  obtain ⟨decimals, decimal⟩ := (fraction_spells (Prod.eta (fraction (text.dropWhile isDigit))).symm).1
  obtain ⟨scale, spelled⟩ := (exponent_spells (Prod.eta (exponent (fraction (text.dropWhile isDigit)).2)).symm).1
  rw [numeral_fst]
  refine ⟨_, .parts (fun c => List.mem_takeWhile_imp) decimal ?_ spelled⟩
  cases text with
  | nil => cases starts
  | cons c more =>
      cases digit : isDigit c with
      | true => exact .inl (takeWhile_ne_nil digit)
      | false =>
          obtain ⟨rfl, follows⟩ : c = '.' ∧ startsWithDigit more = true := by
            simpa [startsNumeral, digit] using starts
          refine .inr ?_
          rw [List.dropWhile_cons_of_neg (by simp [digit]), fraction, if_pos follows] at decimal
          cases decimal with
          | point _ some => exact some

theorem prefix_takeWhile {holds : Char → Bool} (all : ∀ c ∈ text, holds c = true) (rest : List Char) :
    text <+: (text ++ rest).takeWhile holds := by
  rw [List.takeWhile_append_of_pos all]
  exact List.prefix_append _ _

theorem prefix_exponent (spells : SpellsPower scale power) (rest : List Char) :
    power <+: (exponent (power ++ rest)).1 := by
  cases spells with
  | absent => exact List.nil_prefix
  | @power mark negative signed digits marks signs all some =>
      have starts := startsWithDigit_append all some rest
      have split : sign (signed ++ (digits ++ rest)) = (signed, digits ++ rest) := by
        simp only [List.mem_cons, List.not_mem_nil, or_false, Prod.mk.injEq] at signs
        obtain ⟨rfl, rfl⟩ | ⟨rfl, rfl⟩ | ⟨rfl, rfl⟩ := signs
        · exact sign_digits starts
        · rfl
        · rfl
      rw [List.cons_append, List.append_assoc, exponent, split]
      simp only [if_pos (And.intro marks starts)]
      rw [List.cons_append, List.cons_prefix_cons, List.prefix_append_right_inj]
      exact ⟨rfl, prefix_takeWhile all rest⟩

theorem fraction_of_ne {c : Char} (other : c ≠ '.') : fraction (c :: rest) = ([], c :: rest) := by
  rw [fraction]
  intro more same
  exact other (List.cons.inj same).1

/-- Whatever follows a numeral, it is read as long as it is at least. -/
theorem prefix_numeral {value : Numeral} (spells : Numeral.Spells value text) (rest : List Char) :
    text <+: (numeral (text ++ rest)).1 := by
  rw [numeral_fst]
  cases spells with
  | @parts whole decimals point power scale all behind _ scaled =>
      have longer := prefix_exponent scaled rest
      cases behind with
      | absent =>
          cases scaled with
          | absent =>
              rw [List.nil_append, List.append_nil]
              exact (prefix_takeWhile all rest).trans (List.prefix_append _ _)
          | power marks =>
              obtain ⟨no_digit, no_point⟩ := Numeral.plain_of_mark marks
              rw [List.nil_append, List.append_assoc, List.cons_append,
                Numeral.takeWhile_digits all (Numeral.stops_of_eq no_digit),
                Numeral.dropWhile_digits all (Numeral.stops_of_eq no_digit), fraction_of_ne no_point,
                List.nil_append, List.prefix_append_right_inj]
              exact longer
      | point decimal some =>
          have starts := startsWithDigit_append decimal some (power ++ rest)
          have no_digit : isDigit '.' = false := by decide
          rw [List.append_assoc, List.cons_append, List.cons_append, List.append_assoc,
            Numeral.takeWhile_digits all (Numeral.stops_of_eq no_digit),
            Numeral.dropWhile_digits all (Numeral.stops_of_eq no_digit), List.prefix_append_right_inj, fraction,
            if_pos starts, List.cons_append, List.cons_prefix_cons]
          refine ⟨rfl, ?_⟩
          cases scaled with
          | absent =>
              rw [List.append_nil]
              exact (prefix_takeWhile decimal _).trans (List.prefix_append _ _)
          | power marks =>
              have no_digit := (Numeral.plain_of_mark marks).1
              rw [List.cons_append, Numeral.takeWhile_digits decimal (Numeral.stops_of_eq no_digit),
                Numeral.dropWhile_digits decimal (Numeral.stops_of_eq no_digit), List.prefix_append_right_inj]
              exact longer

end Lexeme
end Condition
end BranchingStory
