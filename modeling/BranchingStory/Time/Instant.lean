import BranchingStory.Time.Calendar

/-!
Instants, and how they are written in universal time.
-/

namespace BranchingStory

/-- Seconds since the start of 1970 and nanoseconds within the second. In a leap second the nanoseconds
go on past a full second. -/
structure Instant where
  seconds : Int
  nanoseconds : Nat
  deriving DecidableEq, Repr, Inhabited

namespace Instant

def ofMilliseconds (milliseconds : Int) : Instant :=
  ⟨milliseconds / 1000, (milliseconds % 1000).toNat * 1000000⟩

def padded (width number : Nat) : List Char :=
  let digits := Nat.toDigits 10 number
  List.replicate (width - digits.length) '0' ++ digits

def yearText (year : Int) : List Char :=
  if 0 ≤ year ∧ year ≤ 9999 then padded 4 year.natAbs
  else (if year < 0 then '-' else '+') :: padded 4 year.natAbs

def fractionText (nanoseconds : Nat) : List Char :=
  if nanoseconds = 0 then []
  else if nanoseconds % 1000000 = 0 then '.' :: padded 3 (nanoseconds / 1000000)
  else if nanoseconds % 1000 = 0 then '.' :: padded 6 (nanoseconds / 1000)
  else '.' :: padded 9 nanoseconds

def text (instant : Instant) : String :=
  let date := Date.ofDayNumber (instant.seconds / 86400)
  let second := (instant.seconds % 86400).toNat
  let leap := instant.nanoseconds / 1000000000
  String.ofList
    (yearText date.year ++ '-' :: padded 2 date.month ++ '-' :: padded 2 date.day ++ 'T' ::
      padded 2 (second / 3600) ++ ':' :: padded 2 (second / 60 % 60) ++ ':' ::
      padded 2 (second % 60 + leap) ++ fractionText (instant.nanoseconds % 1000000000) ++ ['Z'])

end Instant
end BranchingStory
