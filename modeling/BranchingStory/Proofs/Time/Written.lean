import BranchingStory.Proofs.Decimal.Digits
import BranchingStory.Proofs.Time.Calendar
import BranchingStory.Time.Reading
import Mathlib.Algebra.Group.Nat.Defs

/-!
Instants that are written and read again. Every part of the text is read as what was written there, and leaves what
comes after it.
-/

namespace BranchingStory
namespace Instant

open Numeral (isDigit Stops)

variable {most width number : Nat} {rest : List Char}

theorem bind_of_eq_some {α β : Type} {read : Option α} {value : α} {next : α → Option β} {result : Option β}
    (found : read = some value) (rest : next value = result) : (read >>= next) = result := by
  rw [found]
  exact rest

/-! ## Signs -/

theorem stops_of_head {c : Char} (other : isDigit c = false) : Stops (c :: rest) := by
  intro first head
  rw [← Option.some.inj head]
  exact other

theorem skipBlanks_of_head {c : Char} (visible : isBlank c = false) : skipBlanks (c :: rest) = c :: rest := by
  simp [skipBlanks, visible]

theorem separator_cons {sign : Char} (visible : isBlank sign = false) :
    separator sign (sign :: rest) = some ((), rest) := by
  simp only [separator, skipBlanks_of_head visible, if_true]

/-! ## Numbers -/

theorem isDigit_of_mem_padded {c : Char} (member : c ∈ padded width number) : isDigit c = true := by
  simp only [padded, List.mem_append, List.mem_replicate] at member
  obtain ⟨_, rfl⟩ | member := member
  · rfl
  · exact Numeral.isDigit_of_mem_toDigits member

theorem length_padded (fits : number < 10 ^ width) (positive : 0 < width) : (padded width number).length = width := by
  have short : (Nat.toDigits 10 number).length ≤ width :=
    (Nat.length_toDigits_le_iff (by decide) positive).mpr fits
  simp only [padded, List.length_append, List.length_replicate]
  omega

theorem value_padded (width number : Nat) : Numeral.value (padded width number) = number := by
  have zeros : ∀ count, Numeral.value (List.replicate count '0' ++ Nat.toDigits 10 number) = number := by
    intro count
    induction count with
    | zero => exact Numeral.value_toDigits number
    | succ count ih => exact ih
  exact zeros _

theorem padded_eq_cons (width number : Nat) :
    ∃ first more, padded width number = first :: more ∧ isDigit first = true ∧ isBlank first = false := by
  cases digits : padded width number with
  | nil => simp [padded] at digits
  | cons first more =>
      have digit : isDigit first = true := isDigit_of_mem_padded (by rw [digits]; exact List.mem_cons_self)
      refine ⟨first, more, rfl, digit, ?_⟩
      rw [isDigit, Bool.and_eq_true, decide_eq_true_eq, decide_eq_true_eq] at digit
      have low : 0x30 ≤ first.toNat := digit.1
      have high : first.toNat ≤ 0x39 := digit.2
      have clear : ∀ code < 0x3A, 0x30 ≤ code → inRanges blankRanges code = false := by decide
      exact clear first.toNat (by omega) low

theorem skipBlanks_padded : skipBlanks (padded width number ++ rest) = padded width number ++ rest := by
  obtain ⟨first, more, digits, _, visible⟩ := padded_eq_cons width number
  rw [digits]
  exact skipBlanks_of_head visible

theorem digits_padded (fits : (padded width number).length ≤ most) (stops : Stops rest) :
    digits most (padded width number ++ rest) = some (number, rest) := by
  have stopped : Stops (rest.take (most - (padded width number).length)) := by
    intro c head
    refine stops c ?_
    cases rest with
    | nil => simp at head
    | cons first more =>
        cases room : most - (padded width number).length with
        | zero => simp [room] at head
        | succ left => rwa [room] at head
  have taken : ((padded width number ++ rest).take most).takeWhile isDigit = padded width number := by
    rw [List.take_append, List.take_of_length_le fits]
    exact Numeral.takeWhile_digits (fun c => isDigit_of_mem_padded) stopped
  obtain ⟨first, more, written, _⟩ := padded_eq_cons width number
  have some_digit : (padded width number).isEmpty = false := by
    rw [written]
    rfl
  simp only [digits, taken, some_digit, value_padded, List.drop_left]
  rfl

theorem pair_padded (small : number < 100) (stops : Stops rest) :
    pair (padded 2 number ++ rest) = some (number, rest) := by
  rw [pair, skipBlanks_padded]
  exact digits_padded (length_padded small (by decide)).le stops

theorem year_yearText (value : Int) (stops : Stops rest) : year (yearText value ++ rest) = some (value, rest) := by
  rw [yearText]
  split
  · rename_i usual
    obtain ⟨first, more, written, digit, visible⟩ := padded_eq_cons 4 value.natAbs
    have fits : value.natAbs < 10 ^ 4 := by omega
    have read := digits_padded (length_padded fits (by decide)).le stops
    have unsigned : first ≠ '-' ∧ first ≠ '+' := by
      constructor <;> (rintro rfl; exact absurd digit (by decide))
    rw [written] at read ⊢
    simp only [year, List.cons_append, skipBlanks_of_head visible] at read ⊢
    split
    · rename_i same
      exact absurd (List.cons.inj same).1 unsigned.1
    · rename_i same
      exact absurd (List.cons.inj same).1 unsigned.2
    · rw [read]
      simp only [Option.map_some, Option.some.injEq, Prod.mk.injEq, and_true]
      omega
  · have room : (padded 4 value.natAbs).length ≤ (padded 4 value.natAbs ++ rest).length := by
      rw [List.length_append]
      omega
    by_cases negative : value < 0
    · rw [if_pos negative, List.cons_append]
      simp only [year, skipBlanks_of_head (by decide : isBlank '-' = false), digits_padded room stops, Option.map_some]
      rw [show -(value.natAbs : Int) = value by omega]
    · rw [if_neg negative, List.cons_append]
      simp only [year, skipBlanks_of_head (by decide : isBlank '+' = false), digits_padded room stops, Option.map_some]
      rw [show (value.natAbs : Int) = value by omega]

/-! ## Fractions of a second -/

theorem fraction_padded (fits : number < 10 ^ width) (positive : 0 < width) (short : width ≤ 9) (stops : Stops rest) :
    fraction ('.' :: padded width number ++ rest) = some (number * 10 ^ (9 - width), rest) := by
  have digits : ∀ c ∈ padded width number, isDigit c = true := fun c => isDigit_of_mem_padded
  have length := length_padded fits positive
  have taken := Numeral.takeWhile_digits digits stops
  have kept : (padded width number).take 9 = padded width number := List.take_of_length_le (by omega)
  have left : (padded width number ++ rest).drop width = rest := List.drop_left' length
  obtain ⟨first, more, written, _⟩ := padded_eq_cons width number
  have some_digit : (padded width number).isEmpty = false := by
    rw [written]
    rfl
  simp only [List.cons_append, fraction, taken, kept, some_digit, value_padded, length, left]
  rfl

theorem stops_fractionText (nanoseconds : Nat) : Stops (fractionText nanoseconds ++ 'Z' :: rest) := by
  rw [fractionText]
  split
  · exact stops_of_head (by decide)
  · split
    · exact stops_of_head (by decide)
    · split <;> exact stops_of_head (by decide)

theorem fraction_fractionText {nanoseconds : Nat} (within : nanoseconds < 1000000000) :
    fraction (fractionText nanoseconds ++ 'Z' :: rest) = some (nanoseconds, 'Z' :: rest) := by
  have stops : Stops ('Z' :: rest) := stops_of_head (by decide)
  rw [fractionText]
  split
  · rename_i none
    rw [none]
    rfl
  · split
    · rw [fraction_padded (by omega) (by decide) (by decide) stops]
      simp only [Option.some.injEq, Prod.mk.injEq, and_true]
      omega
    · split
      · rw [fraction_padded (by omega) (by decide) (by decide) stops]
        simp only [Option.some.injEq, Prod.mk.injEq, and_true]
        omega
      · rw [fraction_padded (by omega) (by decide) (by decide) stops]
        simp only [Option.some.injEq, Prod.mk.injEq, and_true]
        omega

/-! ## Whole texts -/

/-- A time that there is: the nanoseconds pass a full second in the last second of a minute only, and the year is one
that dates are kept for. -/
structure Proper (instant : Instant) : Prop where
  year : inRange instant.seconds = true
  nanoseconds : instant.nanoseconds < 1000000000 ∨
    instant.seconds % 60 = 59 ∧ instant.nanoseconds < 2000000000

theorem toList_text {seconds : Int} {nanoseconds second : Nat} {date : Date}
    (dated : date = Date.ofDayNumber (seconds / 86400)) (timed : second = (seconds % 86400).toNat) :
    (text ⟨seconds, nanoseconds⟩).toList =
      yearText date.year ++ '-' :: (padded 2 date.month ++ '-' :: (padded 2 date.day ++ 'T' ::
        (padded 2 (second / 3600) ++ ':' :: (padded 2 (second / 60 % 60) ++ ':' ::
          (padded 2 (second % 60 + nanoseconds / 1000000000) ++
            (fractionText (nanoseconds % 1000000000) ++ ['Z'])))))) := by
  rw [text, ← dated, ← timed, String.toList_ofList]
  simp only [List.append_assoc, List.cons_append]

theorem ofText?_text {instant : Instant} (proper : instant.Proper) : ofText? instant.text = some instant := by
  obtain ⟨seconds, nanoseconds⟩ := instant
  obtain ⟨inside, fine⟩ := proper
  simp only at inside fine
  obtain ⟨date, dated⟩ : ∃ date, date = Date.ofDayNumber (seconds / 86400) := ⟨_, rfl⟩
  obtain ⟨second, timed⟩ : ∃ second, second = (seconds % 86400).toNat := ⟨_, rfl⟩
  have valid : date.Valid := dated ▸ Date.valid_ofDayNumber _
  have number : date.toDayNumber = seconds / 86400 := dated ▸ Date.toDayNumber_ofDayNumber _
  have month : date.month ≤ 12 := valid.2.1
  have day : date.day ≤ 31 := Nat.le_trans valid.2.2.2 (Date.daysInMonth_le _ _)
  have bounds : date.Valid ∧ second / 3600 ≤ 23 ∧ second / 60 % 60 ≤ 59 ∧
      second % 60 + nanoseconds / 1000000000 ≤ 60 ∧ Int.natAbs 0 < 86400 :=
    ⟨valid, by omega, by omega, by omega, by decide⟩
  -- A leap second stands at the end of a minute, where it is cut back to the second before it.
  have clock : date.toDayNumber * 86400 + ((second / 3600 * 3600 + second / 60 % 60 * 60 +
      min (second % 60 + nanoseconds / 1000000000) 59 : Nat) : Int) = seconds := by
    rw [number]
    omega
  have parts : nanoseconds % 1000000000 +
      (if second % 60 + nanoseconds / 1000000000 = 60 then 1000000000 else 0) = nanoseconds := by
    split <;> omega
  have ranges : ∀ here : Int, here = seconds → (inRange here && inRange (here - 0)) = true := by
    intro here same
    rw [Int.sub_zero, same, inside]
    rfl
  have finished : (skipBlanks []).isEmpty = true := rfl
  rw [ofText?, toList_text dated timed]
  refine bind_of_eq_some (year_yearText _ (stops_of_head (by decide))) ?_
  refine bind_of_eq_some (separator_cons (by decide)) ?_
  refine bind_of_eq_some (pair_padded (by omega) (stops_of_head (by decide))) ?_
  refine bind_of_eq_some (separator_cons (by decide)) ?_
  refine bind_of_eq_some (pair_padded (by omega) (stops_of_head (by decide))) ?_
  refine bind_of_eq_some rfl ?_
  refine bind_of_eq_some (pair_padded (by omega) (stops_of_head (by decide))) ?_
  refine bind_of_eq_some (separator_cons (by decide)) ?_
  refine bind_of_eq_some (pair_padded (by omega) (stops_of_head (by decide))) ?_
  refine bind_of_eq_some (separator_cons (by decide)) ?_
  refine bind_of_eq_some (pair_padded (by omega) (stops_fractionText _)) ?_
  refine bind_of_eq_some (fraction_fractionText (Nat.mod_lt _ (by decide))) ?_
  refine bind_of_eq_some (by decide : zone (skipBlanks ['Z']) = some (0, [])) ?_
  refine bind_of_eq_some (if_pos finished) ?_
  refine bind_of_eq_some (if_pos bounds) ?_
  refine bind_of_eq_some (if_pos (ranges _ clock)) ?_
  exact congrArg some ((Instant.mk.injEq ..).mpr ⟨(Int.sub_zero _).trans clock, parts⟩)

/-! ## Instants that are read -/

theorem fraction_lt {text rest : List Char} {nanoseconds : Nat} (read : fraction text = some (nanoseconds, rest)) :
    nanoseconds < 1000000000 := by
  unfold fraction at read
  split at read
  · rename_i text
    obtain ⟨kept, places⟩ : ∃ kept, kept = (text.takeWhile isDigit).take 9 := ⟨_, rfl⟩
    simp only [← places, Option.ite_none_left_eq_some, Option.some.injEq, Prod.mk.injEq] at read
    obtain ⟨-, rfl, -⟩ := read
    have digits : ∀ c ∈ kept, isDigit c = true := fun c member =>
      List.mem_takeWhile_imp (List.mem_of_mem_take (places ▸ member))
    have few : kept.length ≤ 9 := places ▸ List.length_take_le 9 _
    calc Numeral.value kept * 10 ^ (9 - kept.length)
        < 10 ^ kept.length * 10 ^ (9 - kept.length) :=
          Nat.mul_lt_mul_of_pos_right (Numeral.value_lt digits) (Nat.pow_pos (by decide))
      _ = 1000000000 := by rw [← Nat.pow_add, Nat.add_sub_cancel' few]
  · obtain ⟨rfl, -⟩ := Prod.mk.inj (Option.some.inj read)
    decide

theorem shift_emod {forward : Bool} {text rest : List Char} {seconds : Int}
    (read : shift forward text = some (seconds, rest)) : seconds % 60 = 0 := by
  simp only [shift, Option.bind_eq_bind, Option.bind_eq_some_iff, Prod.exists, pure, Option.some.injEq,
    Prod.mk.injEq] at read
  obtain ⟨hours, _, -, minutes, _, -, rfl, -⟩ := read
  split <;> omega

theorem zone_emod {text rest : List Char} {seconds : Int} (read : zone text = some (seconds, rest)) :
    seconds % 60 = 0 := by
  unfold zone at read
  split at read
  · obtain ⟨rfl, -⟩ := Prod.mk.inj (Option.some.inj read)
    rfl
  · obtain ⟨rfl, -⟩ := Prod.mk.inj (Option.some.inj read)
    rfl
  · exact shift_emod read
  · exact shift_emod read
  · exact shift_emod read
  · split at read
    · obtain ⟨rfl, -⟩ := Prod.mk.inj (Option.some.inj read)
      rfl
    · simp at read
  · simp at read

theorem proper_of_parts {days offset : Int} {hour minute second nanoseconds : Nat} (zoned : offset % 60 = 0)
    (fine : nanoseconds < 1000000000)
    (inside : inRange (days * 86400 + (hour * 3600 + minute * 60 + min second 59 : Nat) - offset) = true) :
    Proper ⟨days * 86400 + (hour * 3600 + minute * 60 + min second 59 : Nat) - offset,
      nanoseconds + if second = 60 then 1000000000 else 0⟩ where
  year := inside
  nanoseconds := by
    by_cases leap : second = 60
    · right
      simp only [if_pos leap]
      omega
    · left
      simp only [if_neg leap]
      omega

theorem of_guard {held : Bool} {read : Unit} (kept : (guard held : Option Unit) = some read) : held = true := by
  cases held with
  | true => rfl
  | false => cases kept

theorem proper_of_ofText? {text : String} {instant : Instant} (read : ofText? text = some instant) :
    instant.Proper := by
  dsimp only [ofText?] at read
  iterate 5
    obtain ⟨_, -, read⟩ := Option.bind_eq_some_iff.mp read
  split at read
  case h_4 => cases read
  all_goals
    iterate 6
      obtain ⟨_, -, read⟩ := Option.bind_eq_some_iff.mp read
    obtain ⟨_, fine, read⟩ := Option.bind_eq_some_iff.mp read
    obtain ⟨_, zoned, read⟩ := Option.bind_eq_some_iff.mp read
    obtain ⟨_, -, read⟩ := Option.bind_eq_some_iff.mp read
    obtain ⟨_, -, read⟩ := Option.bind_eq_some_iff.mp read
    obtain ⟨_, ranges, read⟩ := Option.bind_eq_some_iff.mp read
    obtain rfl := Option.some.inj read
    refine proper_of_parts (zone_emod zoned) (fraction_lt fine) ?_
    exact (Bool.and_eq_true_iff.mp (of_guard ranges)).2

end Instant
end BranchingStory
