import BranchingStory.Json.Draft
import BranchingStory.Catalog
import BranchingStory.Text.Encoding

/-!
Taking typed values out of drafts, in the order of the text. Structures are objects whose unknown members
are passed over, or arrays of their fields in order; a name stands for a variant, alone or as the only
member of an object. Containers nest at most `deepest` levels.
-/

namespace BranchingStory
namespace Json

inductive Fault
  | malformed
  | wrongShape
  | surplus
  | unnamed
  deriving DecidableEq, Repr

inductive Refusal
  | grammar
  | shape
  deriving DecidableEq, Repr

/-- In running text a surplus item stands where the bracket should close, and a variant starts with a
character that starts none: both are faults of grammar. -/
def Fault.inText : Fault → Refusal
  | .wrongShape => .shape
  | .malformed | .surplus | .unnamed => .grammar

/-- In a value that has been read the only thing left to misread is a numeric key. -/
def Fault.inValue : Fault → Refusal
  | .malformed => .grammar
  | .wrongShape | .surplus | .unnamed => .shape

def deepest : Nat := 127

/-- Takes a value out of a draft that stands within so many levels of the deepest. -/
abbrev Decoder (α : Type) := Nat → Draft → Except Fault α

namespace Draft

def mismatch : Draft → Fault
  | .broken | .number none | .string none => .malformed
  | _ => .wrongShape

def tooDeep : Draft → Fault
  | .array .. | .object .. => .malformed
  | draft => draft.mismatch

mutual

/-- Whether the brackets and words of a value that nobody asks for are in order. -/
def intact : Draft → Bool
  | .broken => false
  | .array items closed => intactItems items && closed
  | .object members closed => intactMembers members && closed
  | _ => true

def intactItems : List Draft → Bool
  | [] => true
  | item :: rest => item.intact && intactItems rest

def intactMembers : List (Key × Draft) → Bool
  | [] => true
  | (_, value) :: rest => value.intact && intactMembers rest

end

mutual

def read : Nat → Draft → Except Fault Json
  | _, .null => .ok .null
  | _, .bool value => .ok (.bool value)
  | _, .number (some value) => .ok (.number value)
  | _, .string (some text) => .ok (.string text)
  | levels + 1, .array items closed => do
      let items ← readItems levels items
      if closed then .ok (.array items) else .error .malformed
  | levels + 1, .object members closed => do
      let members ← readMembers levels members
      if closed then .ok (.object (Members.ofList members)) else .error .malformed
  | _, _ => .error .malformed

def readItems : Nat → List Draft → Except Fault (List Json)
  | _, [] => .ok []
  | levels, item :: rest => do
      let item ← item.read levels
      return item :: (← readItems levels rest)

def readMembers : Nat → List (Key × Draft) → Except Fault (List (String × Json))
  | _, [] => .ok []
  | levels, (key, value) :: rest => do
      let some text := key.text | .error .malformed
      let value ← value.read levels
      return (text, value) :: (← readMembers levels rest)

end

end Draft

namespace Decoder

variable {α β ρ : Type}

def json : Decoder Json := fun levels draft => draft.read levels

def text : Decoder String
  | _, .string (some text) => .ok text
  | _, draft => .error draft.mismatch

def bool : Decoder Bool
  | _, .bool value => .ok value
  | _, draft => .error draft.mismatch

def float : Decoder Float
  | _, .number (some value) => .ok value.toFloat
  | _, draft => .error draft.mismatch

def below (bound : Nat) : Decoder Nat
  | _, .number (some (.integer value)) =>
      if 0 ≤ value ∧ value < bound then .ok value.toNat else .error .wrongShape
  | _, draft => .error draft.mismatch

def word64 : Decoder Nat := below 18446744073709551616

def optional (decode : Decoder α) : Decoder (Option α)
  | _, .null => .ok none
  | levels, draft => (decode levels draft).map some

def null : Decoder Unit
  | _, .null => .ok ()
  | _, draft => .error draft.mismatch

def list (decode : Decoder α) : Decoder (List α)
  | levels + 1, .array items closed => do
      let values ← items.mapM (decode levels)
      if closed then .ok values else .error .malformed
  | 0, .array .. => .error .malformed
  | _, draft => .error draft.mismatch

def pairs (key : Key → Except Fault β) (decode : Decoder α) : Decoder (List (β × α))
  | levels + 1, .object members closed => do
      let pairs ← members.mapM fun (name, value) => do
        let name ← key name
        return (name, ← decode levels value)
      if closed then .ok pairs else .error .malformed
  | 0, .object .. => .error .malformed
  | _, draft => .error draft.mismatch

def textKey (key : Key) : Except Fault String :=
  match key.text with
  | some text => .ok text
  | none => .error .malformed

/-- A key that is a whole number below `bound`, written as a number literal. The number is looked at before
what follows it. -/
def numberKey (bound : Nat) (key : Key) : Except Fault Nat :=
  match literal? key.written with
  | none => .error .malformed
  | some (literal, rest) =>
      match literal.value with
      | some (.integer value) =>
          if 0 ≤ value ∧ value < bound then
            if rest.isEmpty && key.text.isSome then .ok value.toNat else .error .malformed
          else .error .wrongShape
      | some (.real _) => .error .wrongShape
      | none => .error .malformed

def catalog (decode : Decoder α) : Decoder (Catalog String α) := fun levels draft =>
  (pairs textKey decode levels draft).map Catalog.ofList

def members : Decoder Members := fun levels draft =>
  (pairs textKey json levels draft).map Members.ofList

def fields (names : List String) (field : ρ → String → Draft → Except Fault ρ) :
    List (Key × Draft) → List String → ρ → Except Fault ρ
  | [], _, record => .ok record
  | (key, value) :: rest, seen, record => do
      let name ← textKey key
      if name ∈ names then
        if name ∈ seen then .error .wrongShape
        else fields names field rest (name :: seen) (← field record name value)
      else if value.intact then fields names field rest seen record
      else .error .malformed

def positional (field : ρ → String → Draft → Except Fault ρ) (closed : Bool) :
    List String → List Draft → ρ → Except Fault ρ
  | _, [], record => if closed then .ok record else .error .malformed
  | [], _ :: _, _ => .error .surplus
  | name :: names, item :: items, record => do
      positional field closed names items (← field record name item)

/-- The fields of a structure: `field` takes one of the names and its value into the record. The levels
that are left inside the structure are those that `field` was made for. -/
def record (names : List String) (field : ρ → String → Draft → Except Fault ρ) (start : ρ) :
    Draft → Except Fault ρ
  | .object members closed => do
      let record ← fields names field members [] start
      if closed then .ok record else .error .malformed
  | .array items closed => positional field closed names items start
  | draft => .error draft.mismatch

def structured (names : List String) (field : Nat → ρ → String → Draft → Except Fault ρ) (start : ρ) :
    Decoder ρ
  | 0, draft => .error draft.tooDeep
  | levels + 1, draft => record names (field levels) start draft

def required : Option α → Except Fault α
  | some value => .ok value
  | none => .error .wrongShape

/-- A variant: what its name stands for takes in the value of the member, which is absent when the name
stands alone. -/
def variant (named : String → Option (Option Draft → Except Fault α)) : Draft → Except Fault α
  | .string (some name) =>
      match named name with
      | some take => take none
      | none => .error .wrongShape
  | .object [] closed => .error (if closed then .unnamed else .malformed)
  | .object ((key, value) :: rest) closed => do
      let name ← textKey key
      match named name with
      | none => .error .wrongShape
      | some take =>
          let result ← take (some value)
          if !rest.isEmpty then .error .unnamed
          else if closed then .ok result
          else .error .malformed
  | .string none | .broken => .error .malformed
  | _ => .error .unnamed

def tagged (named : String → Option (Nat → Option Draft → Except Fault α)) : Decoder α
  | 0, .object .. => .error .malformed
  | levels, draft => variant (fun name => (named name).map fun take => take (levels - 1)) draft

def nothing (value : α) : Nat → Option Draft → Except Fault α
  | _, none | _, some .null => .ok value
  | _, some draft => .error draft.mismatch

def something (decode : Decoder α) : Nat → Option Draft → Except Fault α
  | _, none => .error .wrongShape
  | levels, some draft => decode levels draft

def name (named : String → Option α) : Decoder α := tagged fun text => (named text).map nothing

def bareName (named : String → Option α) : Decoder α := fun levels draft => do
  required (named (← text levels draft))

end Decoder

mutual

def asDraft : Json → Draft
  | .null => .null
  | .bool value => .bool value
  | .number value => .number (some value)
  | .string text => .string (some text)
  | .array items => .array (asDrafts items) true
  | .object members => .object (asMembers members) true

def asDrafts : List Json → List Draft
  | [] => []
  | item :: rest => item.asDraft :: asDrafts rest

def asMembers : List (String × Json) → List (Key × Draft)
  | [] => []
  | (key, value) :: rest => (⟨some key, key.toList⟩, value.asDraft) :: asMembers rest

end

def decodeCharacters {α : Type} (decode : Decoder α) (text : List Char) (whole : Bool) :
    Except Refusal α :=
  let (draft, ended) := draft text
  match decode deepest draft with
  | .error fault => .error fault.inText
  | .ok value => if ended && whole then .ok value else .error .grammar

def decodeText {α : Type} (decode : Decoder α) (text : String) : Except Refusal α :=
  decodeCharacters decode text.toList true

def decodeBytes {α : Type} (decode : Decoder α) (bytes : List UInt8) : Except Refusal α :=
  let (text, whole) := characters bytes
  decodeCharacters decode text whole

def decodeValue {α : Type} (decode : Decoder α) (value : Json) : Except Refusal α :=
  (decode deepest value.asDraft).mapError Fault.inValue

def parse (text : String) : Except Refusal Json := decodeText Decoder.json text

end Json
end BranchingStory
