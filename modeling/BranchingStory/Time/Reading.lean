import BranchingStory.Decimal.Numeral
import BranchingStory.Text.Blank
import BranchingStory.Time.Instant

/-!
Reading instants. A date and a time of day are followed by the distance from universal time; blanks may
stand before every number and every sign between numbers.
-/

namespace BranchingStory
namespace Instant

open Numeral (isDigit)

abbrev Reads (α : Type) := List Char → Option (α × List Char)

def skipBlanks (text : List Char) : List Char := text.dropWhile isBlank

def digits (most : Nat) : Reads Nat := fun text =>
  let taken := (text.take most).takeWhile isDigit
  if taken.isEmpty then none else some (Numeral.value taken, text.drop taken.length)

def pair : Reads Nat := fun text => digits 2 (skipBlanks text)

def separator (sign : Char) : Reads Unit := fun text =>
  match skipBlanks text with
  | c :: rest => if c = sign then some ((), rest) else none
  | [] => none

def year : Reads Int := fun text =>
  match skipBlanks text with
  | '-' :: rest => (digits rest.length rest).map fun (value, rest) => (-(value : Int), rest)
  | '+' :: rest => (digits rest.length rest).map fun (value, rest) => ((value : Int), rest)
  | rest => (digits 4 rest).map fun (value, rest) => ((value : Int), rest)

/-- A fraction of a second in nanoseconds; places after the ninth are passed over. -/
def fraction : Reads Nat
  | '.' :: rest =>
      let places := rest.takeWhile isDigit
      let kept := places.take 9
      if kept.isEmpty then none
      else some (Numeral.value kept * Nat.pow 10 (9 - kept.length), rest.drop places.length)
  | text => some (0, text)

def twoDigits (most : Char) : Reads Nat
  | tens :: ones :: rest =>
      if isDigit tens && tens ≤ most && isDigit ones then some (Numeral.value [tens, ones], rest)
      else none
  | _ => none

def shift (forward : Bool) : Reads Int := fun text => do
  let (hours, rest) ← twoDigits '9' text
  let (minutes, rest) ← twoDigits '5' (rest.dropWhile fun c => c = ':' ∨ isBlank c)
  let seconds : Int := (hours * 3600 + minutes * 60 : Nat)
  return (if forward then seconds else -seconds, rest)

def zone : Reads Int
  | 'Z' :: rest | 'z' :: rest => some (0, rest)
  | '+' :: rest => shift true rest
  | '-' :: rest | '−' :: rest => shift false rest
  | u :: t :: c :: rest =>
      if [u, t, c].map Char.toUpper = ['U', 'T', 'C'] then some (0, rest) else none
  | _ => none

def inRange (seconds : Int) : Bool :=
  let year := (Date.ofDayNumber (seconds / 86400)).year
  year ≥ -262143 && year ≤ 262142

/-- Reads an instant from a whole text. A sixtieth second is the leap second of its minute. -/
def ofText? (text : String) : Option Instant := do
  let (year, rest) ← year text.toList
  let (_, rest) ← separator '-' rest
  let (month, rest) ← pair rest
  let (_, rest) ← separator '-' rest
  let (day, rest) ← pair rest
  let rest ← match rest with
    | 't' :: rest | 'T' :: rest | ' ' :: rest => some rest
    | _ => none
  let (hour, rest) ← pair rest
  let (_, rest) ← separator ':' rest
  let (minute, rest) ← pair rest
  let (_, rest) ← separator ':' rest
  let (second, rest) ← pair rest
  let (nanoseconds, rest) ← fraction rest
  let (offset, rest) ← zone (skipBlanks rest)
  guard (skipBlanks rest).isEmpty
  let date : Date := ⟨year, month, day⟩
  guard (date.Valid ∧ hour ≤ 23 ∧ minute ≤ 59 ∧ second ≤ 60 ∧ offset.natAbs < 86400)
  let time : Nat := hour * 3600 + minute * 60 + min second 59
  let here := date.toDayNumber * 86400 + time
  guard (inRange here && inRange (here - offset))
  return ⟨here - offset, nanoseconds + (if second = 60 then 1000000000 else 0)⟩

end Instant
end BranchingStory
