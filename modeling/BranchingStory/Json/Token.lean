import BranchingStory.Json.Literal

/-!
The tokens of JSON text. Reading stops at the first place where no token can stand, which is marked by a
token of its own. Text between quotes and numbers can be well formed and still have no value: half of a
surrogate pair, a number beyond every float.
-/

namespace BranchingStory
namespace Json

inductive Token
  | openArray
  | closeArray
  | openObject
  | closeObject
  | comma
  | colon
  | null
  | bool (value : Bool)
  | number (value : Option Number)
  /-- Text, and how it was written; no text when an escape stands for half a character. -/
  | string (text : Option String) (written : List Char)
  | unclosed (written : List Char)
  | broken

inductive Piece
  | char (c : Char)
  | unit (code : Nat)
  deriving DecidableEq

def hexValue? (c : Char) : Option Nat :=
  if '0' ≤ c ∧ c ≤ '9' then some (c.toNat - '0'.toNat)
  else if 'a' ≤ c ∧ c ≤ 'f' then some (c.toNat - 'a'.toNat + 10)
  else if 'A' ≤ c ∧ c ≤ 'F' then some (c.toNat - 'A'.toNat + 10)
  else none

def unescape? (letter : Char) : Option Char :=
  if letter = '"' then some '"'
  else if letter = '\\' then some '\\'
  else if letter = '/' then some '/'
  else if letter = 'b' then some (Char.ofNat 0x08)
  else if letter = 'f' then some (Char.ofNat 0x0C)
  else if letter = 'n' then some '\n'
  else if letter = 'r' then some '\r'
  else if letter = 't' then some '\t'
  else none

def pieces? : List Char → Option (List Piece × List Char)
  | [] => none
  | '"' :: rest => some ([], rest)
  | '\\' :: 'u' :: a :: b :: c :: d :: rest => do
      let code := 4096 * (← hexValue? a) + 256 * (← hexValue? b) + 16 * (← hexValue? c) + (← hexValue? d)
      let (pieces, after) ← pieces? rest
      return (.unit code :: pieces, after)
  | '\\' :: letter :: rest => do
      let c ← unescape? letter
      let (pieces, after) ← pieces? rest
      return (.char c :: pieces, after)
  | c :: rest =>
      if c = '\\' ∨ c.toNat < 0x20 then none
      else do
        let (pieces, after) ← pieces? rest
        return (.char c :: pieces, after)

def quoted : List Char → List Char
  | [] | '"' :: _ => []
  | '\\' :: letter :: rest => '\\' :: letter :: quoted rest
  | c :: rest => c :: quoted rest

/-- Joins pairs of units into characters. A unit of a pair that stands alone is no text. -/
def join? : List Piece → Option (List Char)
  | [] => some []
  | .char c :: rest => (join? rest).map (c :: ·)
  | .unit high :: .unit low :: rest =>
      if 0xD800 ≤ high ∧ high < 0xDC00 ∧ 0xDC00 ≤ low ∧ low < 0xE000 then
        (join? rest).map (Char.ofNat (0x10000 + 0x400 * (high - 0xD800) + (low - 0xDC00)) :: ·)
      else if 0xD800 ≤ high ∧ high < 0xE000 then none
      else (join? (.unit low :: rest)).map (Char.ofNat high :: ·)
  | .unit code :: rest =>
      if 0xD800 ≤ code ∧ code < 0xE000 then none else (join? rest).map (Char.ofNat code :: ·)

def takeMinus : List Char → Bool × List Char
  | '-' :: rest => (true, rest)
  | rest => (false, rest)

def whole? (text : List Char) : Option (List Char × List Char) :=
  let whole := text.takeWhile Numeral.isDigit
  if whole.isEmpty || (whole.length ≠ 1 && whole.head? = some '0') then none
  else some (whole, text.dropWhile Numeral.isDigit)

def fraction? : List Char → Option (Option (List Char) × List Char)
  | '.' :: rest =>
      let digits := rest.takeWhile Numeral.isDigit
      if digits.isEmpty then none else some (some digits, rest.dropWhile Numeral.isDigit)
  | rest => some (none, rest)

def exponent? : List Char → Option (Option (Bool × List Char) × List Char)
  | mark :: rest =>
      if mark = 'e' ∨ mark = 'E' then
        let (below, unsigned) := Numeral.takeSign rest
        let digits := unsigned.takeWhile Numeral.isDigit
        if digits.isEmpty then none else some (some (below, digits), unsigned.dropWhile Numeral.isDigit)
      else some (none, mark :: rest)
  | [] => some (none, [])

def literal? (text : List Char) : Option (NumberLiteral × List Char) := do
  let (negative, unsigned) := takeMinus text
  let (whole, afterWhole) ← whole? unsigned
  let (fraction, afterFraction) ← fraction? afterWhole
  let (exponent, after) ← exponent? afterFraction
  return (⟨negative, whole, fraction, exponent⟩, after)

def isSpace (c : Char) : Bool := c = ' ' || c = '\n' || c = '\t' || c = '\r'

def afterWord? : List Char → List Char → Option (List Char)
  | [], text => some text
  | letter :: word, c :: text => if letter = c then afterWord? word text else none
  | _ :: _, [] => none

def token? (first : Char) (rest : List Char) : Option (Token × List Char) :=
  if first = '[' then some (.openArray, rest)
  else if first = ']' then some (.closeArray, rest)
  else if first = '\x7b' then some (.openObject, rest)
  else if first = '\x7d' then some (.closeObject, rest)
  else if first = ',' then some (.comma, rest)
  else if first = ':' then some (.colon, rest)
  else if first = '"' then
    some (match pieces? rest with
      | some (pieces, after) => (.string ((join? pieces).map String.ofList) (quoted rest), after)
      | none => (.unclosed rest, []))
  else if first = 'n' then (afterWord? ['u', 'l', 'l'] rest).map fun after => (.null, after)
  else if first = 't' then (afterWord? ['r', 'u', 'e'] rest).map fun after => (.bool true, after)
  else if first = 'f' then (afterWord? ['a', 'l', 's', 'e'] rest).map fun after => (.bool false, after)
  else (literal? (first :: rest)).map fun (literal, after) => (.number literal.value, after)

/-- Reads tokens to the end of the text. Each takes at least its first character, so as many rounds as there
are characters are enough. -/
def tokensWithin : Nat → List Char → List Token
  | _, [] => []
  | 0, _ :: _ => [.broken]
  | rounds + 1, first :: rest =>
      if isSpace first then tokensWithin rounds rest
      else match token? first rest with
        | some (token, after) => token :: tokensWithin rounds after
        | none => [.broken]

def tokens (text : List Char) : List Token := tokensWithin text.length text

end Json
end BranchingStory
