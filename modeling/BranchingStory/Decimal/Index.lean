import BranchingStory.Decimal.Numeral

/-!
Numbers that count: digits after an optional plus sign.
-/

namespace BranchingStory

def index? (text : String) : Option Nat :=
  let digits := match text.toList with
    | '+' :: rest => rest
    | text => text
  if digits.isEmpty || !digits.all Numeral.isDigit then none
  else
    let value := Numeral.value digits
    if value < 18446744073709551616 then some value else none

end BranchingStory
