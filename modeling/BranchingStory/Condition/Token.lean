import BranchingStory.Decimal.Layout
import BranchingStory.Text.Quoted

/-!
The tokens of conditions. Each has its source form and a description for messages.
-/

namespace BranchingStory.Condition

inductive Keyword
  | yes
  | no
  | null
  | undefined
  deriving DecidableEq, Repr

inductive Mark
  | dot
  | openBracket
  | closeBracket
  | openParen
  | closeParen
  | not
  | and
  | or
  | equal
  | identical
  | unequal
  | distinct
  | less
  | atMost
  | greater
  | atLeast
  | plus
  | minus
  | times
  | slash
  | remainder
  deriving DecidableEq, Repr

inductive Token
  | number (value : Float)
  | text (value : String)
  | name (value : String)
  | keyword (word : Keyword)
  | mark (sign : Mark)

structure Placed where
  token : Token
  offset : Nat

namespace Keyword

def source : Keyword → String
  | .yes => "true"
  | .no => "false"
  | .null => "null"
  | .undefined => "undefined"

def ofName? (name : String) : Option Keyword :=
  [yes, no, null, undefined].find? fun word => word.source == name

def title : Keyword → String
  | .yes => "True"
  | .no => "False"
  | .null => "Null"
  | .undefined => "Undefined"

end Keyword

namespace Mark

def source : Mark → List Char
  | .dot => ['.']
  | .openBracket => ['[']
  | .closeBracket => [']']
  | .openParen => ['(']
  | .closeParen => [')']
  | .not => ['!']
  | .and => ['&', '&']
  | .or => ['|', '|']
  | .equal => ['=', '=']
  | .identical => ['=', '=', '=']
  | .unequal => ['!', '=']
  | .distinct => ['!', '=', '=']
  | .less => ['<']
  | .atMost => ['<', '=']
  | .greater => ['>']
  | .atLeast => ['>', '=']
  | .plus => ['+']
  | .minus => ['-']
  | .times => ['*']
  | .slash => ['/']
  | .remainder => ['%']

def title : Mark → String
  | .dot => "Dot"
  | .openBracket => "LBracket"
  | .closeBracket => "RBracket"
  | .openParen => "LParen"
  | .closeParen => "RParen"
  | .not => "Not"
  | .and => "And"
  | .or => "Or"
  | .equal => "Eq"
  | .identical => "StrictEq"
  | .unequal => "Ne"
  | .distinct => "StrictNe"
  | .less => "Lt"
  | .atMost => "Le"
  | .greater => "Gt"
  | .atLeast => "Ge"
  | .plus => "Plus"
  | .minus => "Minus"
  | .times => "Star"
  | .slash => "Slash"
  | .remainder => "Percent"

end Mark

/-- In messages floats keep a point, and only magnitudes from a ten-thousandth up to ten to the sixteenth
are written without an exponent. -/
def messageLayout : Layout :=
  { positional := some (-4, 15)
    pointZero := true
    plusSign := false
    tie := .up }

def Token.describe : Token → String
  | .number value => "Number(" ++ messageLayout.render "inf" "NaN" value ++ ")"
  | .text value => "Str(" ++ quoteText value ++ ")"
  | .name value => "Ident(" ++ quoteText value ++ ")"
  | .keyword word => word.title
  | .mark sign => sign.title

end BranchingStory.Condition
