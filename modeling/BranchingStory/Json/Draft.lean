import BranchingStory.Json.Token

/-!
A JSON text as far as it can be read. Where its grammar fails, the brackets that are still open stay open and
the value that should have come is marked as broken. Whoever takes values out of a draft in the order of the
text meets the first fault of the text first, be it of grammar or of shape.
-/

namespace BranchingStory
namespace Json

structure Key where
  text : Option String
  written : List Char

inductive Draft
  | null
  | bool (value : Bool)
  | number (value : Option Number)
  | string (text : Option String)
  | array (items : List Draft) (closed : Bool)
  | object (members : List (Key × Draft)) (closed : Bool)
  | broken

/-- A bracket that is open, with what was read inside it, last first. -/
inductive Frame
  | array (items : List Draft)
  | object (members : List (Key × Draft))
  | member (members : List (Key × Draft)) (key : Key)

inductive Place
  | value
  | firstItem
  | firstKey
  | key
  | colon
  | separator

namespace Frame

def cut : Frame → Draft
  | .array items => .array items.reverse false
  | .object members => .object members.reverse false
  | .member members key => .object ((key, .broken) :: members).reverse false

def cutInside (inner : Draft) : Frame → Draft
  | .array items => .array (inner :: items).reverse false
  | .object members => .object members.reverse false
  | .member members key => .object ((key, inner) :: members).reverse false

end Frame

def abandon : List Frame → Draft
  | [] => .broken
  | inner :: outer => outer.foldl Frame.cutInside inner.cut

inductive Progress
  | inside (frames : List Frame) (place : Place)
  | finished (draft : Draft)

def supply (draft : Draft) : List Frame → Option Progress
  | [] => some (.finished draft)
  | .array items :: outer => some (.inside (.array (draft :: items) :: outer) .separator)
  | .member members key :: outer => some (.inside (.object ((key, draft) :: members) :: outer) .separator)
  | .object _ :: _ => none

def startValue (frames : List Frame) : Token → Option Progress
  | .null => supply .null frames
  | .bool value => supply (.bool value) frames
  | .number value => supply (.number value) frames
  | .string text _ => supply (.string text) frames
  | .openArray => some (.inside (.array [] :: frames) .firstItem)
  | .openObject => some (.inside (.object [] :: frames) .firstKey)
  | _ => none

def close : List Frame → Token → Option Progress
  | .array items :: outer, .closeArray => supply (.array items.reverse true) outer
  | .object members :: outer, .closeObject => supply (.object members.reverse true) outer
  | _, _ => none

def startMember : List Frame → Token → Option Progress
  | .object members :: outer, .string text written =>
      some (.inside (.member members ⟨text, written⟩ :: outer) .colon)
  | .object members :: outer, .unclosed written =>
      some (.inside (.member members ⟨none, written⟩ :: outer) .colon)
  | _, _ => none

def separate : List Frame → Token → Option Progress
  | .array items :: outer, .comma => some (.inside (.array items :: outer) .value)
  | .object members :: outer, .comma => some (.inside (.object members :: outer) .key)
  | _, _ => none

/-- What a token does; `none` where the grammar has no such token. -/
def step (frames : List Frame) (token : Token) : Place → Option Progress
  | .value => startValue frames token
  | .firstItem => (startValue frames token).or (close frames token)
  | .firstKey => (startMember frames token).or (close frames token)
  | .key => startMember frames token
  | .colon => match token with
      | .colon => some (.inside frames .value)
      | _ => none
  | .separator => (separate frames token).or (close frames token)

def build : List Token → List Frame → Place → Draft × List Token
  | [], frames, _ => (abandon frames, [])
  | token :: rest, frames, place =>
      match step frames token place with
      | some (.inside frames place) => build rest frames place
      | some (.finished draft) => (draft, rest)
      | none => (abandon frames, token :: rest)

def draft (text : List Char) : Draft × Bool :=
  let (draft, rest) := build (tokens text) [] .value
  (draft, rest.isEmpty)

end Json
end BranchingStory
