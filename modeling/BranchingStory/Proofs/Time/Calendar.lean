import BranchingStory.Time.Calendar
import Mathlib.Data.Int.Basic

/-!
Days, their dates and back. A cycle of 400 years is a day longer than four centuries, a century a day shorter than 25
times four years, and four years a day longer than four times one. With years that start in March the odd day is always
the last of them, so a day is placed by dividing.
-/

namespace BranchingStory
namespace Date

/-- Where a day lies in its cycle of 400 years. Only a year that is the last of four, and not the last of a century but
the fourth, has a day 365. -/
structure PlaceInCycle (number : Int) where
  century : Int
  period : Int
  year : Int
  day : Int
  century_bounds : 0 ≤ century ∧ century ≤ 3
  period_bounds : 0 ≤ period ∧ period ≤ 24
  year_bounds : 0 ≤ year ∧ year ≤ 3
  day_bounds : 0 ≤ day ∧ day ≤ 365
  leap : day = 365 → year = 3 ∧ (period = 24 → century = 3)
  number_eq : number = 36524 * century + 1461 * period + 365 * year + day

theorem exists_place {number : Int} (start : 0 ≤ number) (stop : number < 146097) :
    Nonempty (PlaceInCycle number) := by
  obtain ⟨century, centuries⟩ : ∃ century, century = min 3 (number / 36524) := ⟨_, rfl⟩
  obtain ⟨period, periods⟩ : ∃ period, period = (number - 36524 * century) / 1461 := ⟨_, rfl⟩
  obtain ⟨year, years⟩ : ∃ year, year = min 3 ((number - 36524 * century - 1461 * period) / 365) := ⟨_, rfl⟩
  have first : 0 ≤ century ∧ century ≤ 3 := by omega
  have within : 0 ≤ number - 36524 * century ∧ number - 36524 * century ≤ 36524 ∧
      (number - 36524 * century = 36524 → century = 3) := by omega
  have second : 0 ≤ period ∧ period ≤ 24 := by omega
  have third : 0 ≤ year ∧ year ≤ 3 := by omega
  exact ⟨⟨century, period, year, number - 36524 * century - 1461 * period - 365 * year, first, second, third,
    by omega, by omega, by omega⟩⟩

namespace PlaceInCycle

variable {number : Int} (place : PlaceInCycle number)

def yearOfCycle : Int := 100 * place.century + 4 * place.period + place.year

theorem yearOfCycle_bounds : 0 ≤ place.yearOfCycle ∧ place.yearOfCycle < 400 := by
  obtain ⟨century, period, year, day, centuries, periods, years, -⟩ := place
  simp only [yearOfCycle]
  omega

theorem yearOfCycle_eq :
    (number - number / 1460 + number / 36524 - number / 146096) / 365 = place.yearOfCycle := by
  obtain ⟨century, period, year, day, centuries, periods, years, days, leap, number_eq⟩ := place
  simp only [yearOfCycle]
  -- Each of the three quotients counts the odd days so far, one kind each, and the day itself if it is one.
  have fourths : number / 1460 =
      25 * century + period + if 1460 ≤ 24 * century + period + 365 * year + day then 1 else 0 := by
    split <;> omega
  have hundredths : number / 36524 = century + if number = 146096 then 1 else 0 := by
    split <;> omega
  have cycles : number / 146096 = if number = 146096 then 1 else 0 := by
    split <;> omega
  rw [fourths, hundredths, cycles]
  split <;> split <;> omega

theorem day_eq :
    number - (365 * place.yearOfCycle + place.yearOfCycle / 4 - place.yearOfCycle / 100) = place.day := by
  obtain ⟨century, period, year, day, centuries, periods, years, days, leap, number_eq⟩ := place
  simp only [yearOfCycle]
  omega

end PlaceInCycle

/-- A date by its year and its day in that, both counted from March. -/
def ofMarch (year day : Int) : Date :=
  let month := (5 * day + 2) / 153
  let date := day - (153 * month + 2) / 5 + 1
  if month < 10 then ⟨year, (month + 3).toNat, date.toNat⟩ else ⟨year + 1, (month - 9).toNat, date.toNat⟩

theorem exists_place_of_shifted (number : Int) : Nonempty (PlaceInCycle ((number + epochOffset) % 146097)) :=
  exists_place (Int.emod_nonneg _ (by decide)) (Int.emod_lt_of_pos _ (by decide))

theorem ofDayNumber_eq {number : Int} (place : PlaceInCycle ((number + epochOffset) % 146097)) :
    ofDayNumber number = ofMarch ((number + epochOffset) / 146097 * 400 + place.yearOfCycle) place.day := by
  have year := place.yearOfCycle_eq
  have day := place.day_eq
  simp only [ofDayNumber, year, day]
  rfl

theorem toDayNumber_ofMarch {cycle number : Int} (place : PlaceInCycle number) :
    toDayNumber (ofMarch (cycle * 400 + place.yearOfCycle) place.day) = cycle * 146097 + number - epochOffset := by
  have days := place.day_eq
  have bounds := place.day_bounds
  have years := place.yearOfCycle_bounds
  generalize place.yearOfCycle = year at days years ⊢
  generalize place.day = day at days bounds ⊢
  have year_div : (cycle * 400 + year) / 400 = cycle := by omega
  have year_mod : (cycle * 400 + year) % 400 = year := by omega
  simp only [ofMarch]
  split
  · have late : ¬ ((5 * day + 2) / 153 + 3).toNat ≤ 2 := by omega
    have rest : ((153 * (((5 * day + 2) / 153 + 3).toNat - 3) + 2) / 5 +
        (day - (153 * ((5 * day + 2) / 153) + 2) / 5 + 1).toNat - 1 : Nat) = day.toNat := by omega
    simp only [toDayNumber, if_neg late, year_div, year_mod, rest]
    omega
  · have early : ((5 * day + 2) / 153 - 9).toNat ≤ 2 := by omega
    have rest : ((153 * (((5 * day + 2) / 153 - 9).toNat + 9) + 2) / 5 +
        (day - (153 * ((5 * day + 2) / 153) + 2) / 5 + 1).toNat - 1 : Nat) = day.toNat := by omega
    simp only [toDayNumber, if_pos early, Int.add_sub_cancel, year_div, year_mod, rest]
    omega

theorem toDayNumber_ofDayNumber (number : Int) : toDayNumber (ofDayNumber number) = number := by
  obtain ⟨place⟩ := exists_place_of_shifted number
  rw [ofDayNumber_eq place, toDayNumber_ofMarch place]
  omega

theorem daysInMonth_le (year : Int) (month : Nat) : daysInMonth year month ≤ 31 := by
  rw [daysInMonth]
  split
  · split <;> omega
  · split <;> omega

theorem isLeap_iff {year : Int} : isLeap year = true ↔ year % 4 = 0 ∧ (year % 100 ≠ 0 ∨ year % 400 = 0) := by
  simp [isLeap]

theorem valid_ofMarch {cycle number : Int} (place : PlaceInCycle number) :
    (ofMarch (cycle * 400 + place.yearOfCycle) place.day).Valid := by
  obtain ⟨century, period, year, day, centuries, periods, years, days, leap, number_eq⟩ := place
  simp only [PlaceInCycle.yearOfCycle, ofMarch]
  obtain ⟨month, months⟩ : ∃ month, month = (5 * day + 2) / 153 := ⟨_, rfl⟩
  rw [← months]
  split
  · simp only [Valid, daysInMonth]
    rw [if_neg (by omega)]
    refine ⟨by omega, by omega, by omega, ?_⟩
    split <;> omega
  · obtain rfl | rfl : month = 10 ∨ month = 11 := by omega
    · change 1 ≤ 1 ∧ 1 ≤ 12 ∧ 1 ≤ (day - 306 + 1).toNat ∧ (day - 306 + 1).toNat ≤ 31
      omega
    · change 1 ≤ 2 ∧ 2 ≤ 12 ∧ 1 ≤ (day - 337 + 1).toNat ∧
        (day - 337 + 1).toNat ≤ if isLeap _ = true then 29 else 28
      simp only [isLeap_iff]
      -- February is the last month here. Its 29th is the day 365, which only a leap year has.
      split
      · omega
      · have short : day ≠ 365 := by
          intro last
          have := leap last
          omega
        omega

theorem valid_ofDayNumber (number : Int) : (ofDayNumber number).Valid := by
  obtain ⟨place⟩ := exists_place_of_shifted number
  rw [ofDayNumber_eq place]
  exact valid_ofMarch place

end Date
end BranchingStory
