import BranchingStory.Decimal.Layout
import BranchingStory.Decimal.Numeral
import Mathlib.Algebra.Group.Nat.Defs
import Mathlib.Data.List.Induction
import Mathlib.Data.List.TakeWhile

/-!
Digits that are written and read again. The digits of a number are read as that number, and what follows them is left
where it does not start with a digit itself.
-/

namespace BranchingStory
namespace Numeral

variable {digits rest : List Char} {number : Nat}

def Stops (rest : List Char) : Prop := ∀ c ∈ rest.head?, isDigit c = false

theorem isDigit_of_mem_toDigits {c : Char} (member : c ∈ Nat.toDigits 10 number) : isDigit c = true := by
  have digit := Nat.isDigit_of_mem_toDigits (by decide) (by decide) member
  rw [Char.isDigit, Bool.and_eq_true, decide_eq_true_eq, decide_eq_true_eq] at digit
  rw [isDigit, Bool.and_eq_true, decide_eq_true_eq, decide_eq_true_eq]
  exact digit

theorem value_toDigits (number : Nat) : value (Nat.toDigits 10 number) = number := by
  have read := Nat.ofDigitChars_ten_toDigits (n := number)
  rwa [Nat.ofDigitChars_eq_foldl] at read

theorem value_lt (all : ∀ c ∈ digits, isDigit c = true) : value digits < 10 ^ digits.length := by
  induction digits using List.reverseRecOn with
  | nil => decide
  | append_singleton earlier last ih =>
      have digit := all last (by simp)
      rw [isDigit, Bool.and_eq_true, decide_eq_true_eq, decide_eq_true_eq] at digit
      have high : last.toNat ≤ 0x39 := digit.2
      have zero : '0'.toNat = 0x30 := rfl
      have bounded := ih fun c member => all c (List.mem_append_left _ member)
      have longer : value (earlier ++ [last]) = 10 * value earlier + (last.toNat - '0'.toNat) := by
        simp only [value, List.foldl_append, List.foldl_cons, List.foldl_nil]
      rw [longer, List.length_append, List.length_singleton, Nat.pow_succ]
      omega

/-! ## Zeros -/

theorem isDigit_of_mem_zeros {count : Nat} {c : Char} (member : c ∈ Layout.zeros count) : isDigit c = true := by
  rw [List.eq_of_mem_replicate member]
  rfl

theorem value_append_zeros (digits : List Char) (count : Nat) :
    value (digits ++ Layout.zeros count) = value digits * 10 ^ count := by
  induction count with
  | zero => simp [Layout.zeros]
  | succ count ih =>
      rw [Layout.zeros, List.replicate_succ', ← List.append_assoc, value, List.foldl_append]
      change 10 * value (digits ++ Layout.zeros count) + 0 = _
      rw [ih, Nat.add_zero, Nat.pow_succ, Nat.mul_comm 10, Nat.mul_assoc]

theorem value_zeros_append (count : Nat) (digits : List Char) : value (Layout.zeros count ++ digits) = value digits := by
  induction count with
  | zero => rfl
  | succ count ih => exact ih

/-! ## Runs of digits -/

theorem takeWhile_digits (all : ∀ c ∈ digits, isDigit c = true) (stops : Stops rest) :
    (digits ++ rest).takeWhile isDigit = digits := by
  rw [List.takeWhile_append_of_pos all]
  cases rest with
  | nil => simp
  | cons c rest => simp [stops c rfl]

theorem dropWhile_digits (all : ∀ c ∈ digits, isDigit c = true) (stops : Stops rest) :
    (digits ++ rest).dropWhile isDigit = rest := by
  rw [List.dropWhile_append_of_pos all]
  cases rest with
  | nil => simp
  | cons c rest => simp [stops c rfl]

theorem head?_toDigits_ne (positive : 0 < number) : (Nat.toDigits 10 number).head? ≠ some '0' := by
  induction number using Nat.strong_induction_on with
  | _ number ih =>
      by_cases short : number < 10
      · rw [Nat.toDigits_of_lt_base short]
        have digit : ∀ n < 10, 0 < n → [Nat.digitChar n].head? ≠ some '0' := by decide
        exact digit number short positive
      · have earlier := ih (number / 10) (by omega) (by omega)
        rw [Nat.toDigits_of_base_le (by decide) (by omega)]
        cases digits : Nat.toDigits 10 (number / 10) with
        | nil => exact absurd digits Nat.toDigits_ne_nil
        | cons first rest => rwa [digits] at earlier

end Numeral
end BranchingStory
