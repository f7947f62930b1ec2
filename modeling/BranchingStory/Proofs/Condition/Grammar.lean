import BranchingStory.Condition.Expression
import BranchingStory.Condition.Token

/-!
The grammar of conditions. A derivation says which expression a sequence of tokens stands for, how many
operators and member accesses it has, and under how many signs, parentheses and brackets its operands lie at
most.
-/

namespace BranchingStory.Condition
namespace Grammar

/-- Binary operators, from the level that binds loosest to the one that binds tightest. -/
def levels : List (List (Mark × BinaryOp)) :=
  [[(.or, .or)],
   [(.and, .and)],
   [(.equal, .equal), (.identical, .identical), (.unequal, .unequal), (.distinct, .distinct)],
   [(.less, .less), (.atMost, .atMost), (.greater, .greater), (.atLeast, .atLeast)],
   [(.plus, .add), (.minus, .subtract)],
   [(.times, .multiply), (.slash, .divide), (.remainder, .remainder)]]

def signs : List (Mark × UnaryOp) := [(.not, .not), (.minus, .negate), (.plus, .plus)]

inductive Denotes : Token → Expression → Prop
  | number (value : Float) : Denotes (.number value) (.literal (.number value))
  | text (value : String) : Denotes (.text value) (.literal (.text value))
  | name (name : String) : Denotes (.name name) (.variable name)
  | yes : Denotes (.keyword .yes) (.literal (.bool true))
  | no : Denotes (.keyword .no) (.literal (.bool false))
  | null : Denotes (.keyword .null) (.literal .null)
  | undefined : Denotes (.keyword .undefined) (.literal .undefined)

inductive Names : Token → String → Prop
  | name (name : String) : Names (.name name) name
  | yes : Names (.keyword .yes) "true"
  | no : Names (.keyword .no) "false"
  | null : Names (.keyword .null) "null"
  | undefined : Names (.keyword .undefined) "undefined"

/-- Kinds of phrases. Those of a level are joined by operators of that level or of a tighter one. -/
inductive Phrase
  | level (number : Nat)
  | signed
  | accessed
  | simple

inductive Derives : Phrase → List Token → Expression → (operators nesting : Nat) → Prop
  | join {number n m d e : Nat} {sign : Mark} {op : BinaryOp} {first second : List Token}
      {left right : Expression} (joins : (sign, op) ∈ levels.getD number [])
      (before : Derives (.level number) first left n d)
      (behind : Derives (.level (number + 1)) second right m e) :
      Derives (.level number) (first ++ .mark sign :: second) (.binary op left right) (n + m + 1) (max d e)
  | tighter {number n d : Nat} {tokens : List Token} {value : Expression}
      (loose : number < levels.length) (phrase : Derives (.level (number + 1)) tokens value n d) :
      Derives (.level number) tokens value n d
  | operand {n d : Nat} {tokens : List Token} {value : Expression}
      (phrase : Derives .signed tokens value n d) : Derives (.level levels.length) tokens value n d
  | sign {n d : Nat} {sign : Mark} {op : UnaryOp} {tokens : List Token} {value : Expression}
      (signs : (sign, op) ∈ signs) (phrase : Derives .signed tokens value n d) :
      Derives .signed (.mark sign :: tokens) (.unary op value) (n + 1) (d + 1)
  | unsigned {n d : Nat} {tokens : List Token} {value : Expression}
      (phrase : Derives .accessed tokens value n d) : Derives .signed tokens value n d
  | dot {n d : Nat} {tokens : List Token} {object : Expression} {token : Token} {name : String}
      (before : Derives .accessed tokens object n d) (names : Names token name) :
      Derives .accessed (tokens ++ [.mark .dot, token]) (.member object (.literal (.text name))) (n + 1) d
  | bracket {n m d e : Nat} {first second : List Token} {object index : Expression}
      (before : Derives .accessed first object n d) (inside : Derives (.level 0) second index m e) :
      Derives .accessed (first ++ .mark .openBracket :: (second ++ [.mark .closeBracket]))
        (.member object index) (n + m + 1) (max d (e + 1))
  | unaccessed {n d : Nat} {tokens : List Token} {value : Expression}
      (phrase : Derives .simple tokens value n d) : Derives .accessed tokens value n d
  | single {token : Token} {value : Expression} (denotes : Denotes token value) :
      Derives .simple [token] value 0 0
  | parens {n d : Nat} {tokens : List Token} {value : Expression}
      (inside : Derives (.level 0) tokens value n d) :
      Derives .simple (.mark .openParen :: (tokens ++ [.mark .closeParen])) value n (d + 1)

end Grammar
end BranchingStory.Condition
