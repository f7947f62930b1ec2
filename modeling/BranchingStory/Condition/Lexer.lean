import BranchingStory.Condition.Error
import BranchingStory.Decimal.Numeral
import BranchingStory.Text.Blank
import BranchingStory.Text.Letter

/-!
Splitting a condition into tokens. Each token takes the longest text that can stand for it; blanks stand
between tokens and mean nothing.
-/

namespace BranchingStory.Condition

open Numeral (isDigit)

structure Lexeme where
  token : Token
  text : List Char
  rest : List Char

namespace Lexeme

def startsName (c : Char) : Bool := isAlphabetic c || c == '_' || c == '$'

def inName (c : Char) : Bool := isAlphanumeric c || c == '_' || c == '$'

def startsWithDigit : List Char → Bool
  | c :: _ => isDigit c
  | [] => false

def fraction : List Char → List Char × List Char
  | '.' :: rest =>
      if startsWithDigit rest then ('.' :: rest.takeWhile isDigit, rest.dropWhile isDigit)
      else ([], '.' :: rest)
  | text => ([], text)

def sign : List Char → List Char × List Char
  | '+' :: rest => (['+'], rest)
  | '-' :: rest => (['-'], rest)
  | text => ([], text)

def exponent : List Char → List Char × List Char
  | [] => ([], [])
  | mark :: rest =>
      let (signed, digits) := sign rest
      if (mark = 'e' ∨ mark = 'E') ∧ startsWithDigit digits then
        (mark :: signed ++ digits.takeWhile isDigit, digits.dropWhile isDigit)
      else ([], mark :: rest)

def numeral (text : List Char) : List Char × List Char :=
  let whole := text.takeWhile isDigit
  let (point, afterFraction) := fraction (text.dropWhile isDigit)
  let (power, rest) := exponent afterFraction
  (whole ++ point ++ power, rest)

def unescape (c : Char) : Char := if c = 'n' then '\n' else if c = 't' then '\t' else c

def quoted (quote : Char) : List Char → Option (List Char × List Char × List Char)
  | [] => none
  | c :: rest =>
      if c = quote then some ([], [c], rest)
      else if c = '\\' then
        match rest with
        | [] => none
        | escaped :: rest =>
            (quoted quote rest).map fun (value, text, rest) =>
              (unescape escaped :: value, c :: escaped :: text, rest)
      else (quoted quote rest).map fun (value, text, rest) => (c :: value, c :: text, rest)

def mark? : List Char → Option Mark
  | '.' :: _ => some .dot
  | '[' :: _ => some .openBracket
  | ']' :: _ => some .closeBracket
  | '(' :: _ => some .openParen
  | ')' :: _ => some .closeParen
  | '+' :: _ => some .plus
  | '-' :: _ => some .minus
  | '*' :: _ => some .times
  | '/' :: _ => some .slash
  | '%' :: _ => some .remainder
  | '&' :: '&' :: _ => some .and
  | '|' :: '|' :: _ => some .or
  | '<' :: '=' :: _ => some .atMost
  | '<' :: _ => some .less
  | '>' :: '=' :: _ => some .atLeast
  | '>' :: _ => some .greater
  | '=' :: '=' :: '=' :: _ => some .identical
  | '=' :: '=' :: _ => some .equal
  | '!' :: '=' :: '=' :: _ => some .distinct
  | '!' :: '=' :: _ => some .unequal
  | '!' :: _ => some .not
  | _ => none

def wordToken (name : List Char) : Token :=
  match Keyword.ofName? (String.ofList name) with
  | some word => .keyword word
  | none => .name (String.ofList name)

def first (offset : Nat) (c : Char) (rest : List Char) : Except Error Lexeme :=
  if isDigit c || (c == '.' && startsWithDigit rest) then
    let (text, rest) := numeral (c :: rest)
    match Numeral.ofText? text with
    | some value => .ok ⟨.number value.toFloat, text, rest⟩
    | none => .error (.invalidNumber (String.ofList text) offset)
  else if c = '\'' ∨ c = '"' then
    match quoted c rest with
    | some (value, text, rest) => .ok ⟨.text (String.ofList value), c :: text, rest⟩
    | none => .error (.unterminatedText offset)
  else if startsName c then
    let name := (c :: rest).takeWhile inName
    .ok ⟨wordToken name, name, (c :: rest).dropWhile inName⟩
  else
    match mark? (c :: rest) with
    | some sign => .ok ⟨.mark sign, sign.source, (c :: rest).drop sign.source.length⟩
    | none => .error (.unexpectedCharacter c offset)

end Lexeme

def byteCount (text : List Char) : Nat := text.foldr (fun c count => c.utf8Size + count) 0

/-- The tokens of a text that starts at an offset. Each step takes at least one of the characters, so
there are no more steps than characters. -/
def tokensWithin : Nat → Nat → List Char → Except Error (List Placed)
  | _, _, [] => .ok []
  | 0, _, _ => .ok []
  | steps + 1, offset, c :: rest =>
      if isBlank c then tokensWithin steps (offset + c.utf8Size) rest
      else do
        let lexeme ← Lexeme.first offset c rest
        let more ← tokensWithin steps (offset + byteCount lexeme.text) lexeme.rest
        return ⟨lexeme.token, offset⟩ :: more

def tokens (source : List Char) : Except Error (List Placed) :=
  tokensWithin source.length 0 source

end BranchingStory.Condition
