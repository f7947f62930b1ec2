import BranchingStory.Json.Decode
import BranchingStory.Json.Printer
import BranchingStory.Story.Document

/-!
Stories as JSON: how entries and documents are written, and how they are read.
-/

namespace BranchingStory

open Json (Draft Fault Decoder)

def Json.present (fields : List (String × Option Json)) : Json :=
  .object (fields.filterMap fun (name, value) => value.map fun value => (name, value))

def Effects.encode (effects : Effects) : Json := .object effects.members

def Choice.encode (choice : Choice) : Json :=
  .present
    [("text", some (.string choice.text)),
     ("effects", choice.effects.map Effects.encode),
     ("toast", choice.toast.map .string)]

def Unlocks.encode (unlocks : Unlocks) : Json :=
  .object (unlocks.entries.map fun (category, ids) => (category, .object ids))

mutual

def Entry.encode : Entry → Json
  | ⟨character, state, outfit, position, background, dialogue, sfx, vfx, responses, branch, unlocks⟩ =>
    .present
      [("character", character.map .string),
       ("state", state.map .string),
       ("outfit", outfit.map .string),
       ("position", position.map fun position => .string position.word),
       ("background", background.map .string),
       ("dialogue", dialogue.map .string),
       ("sfx", sfx.map .string),
       ("vfx", vfx.map .string),
       ("responses", responses.map fun choices => .array (choices.map Choice.encode)),
       ("branch", match branch with
          | some branch => some branch.encode
          | none => none),
       ("unlocks", unlocks.map Unlocks.encode)]

def Branch.encode : Branch → Json
  | ⟨condition, story⟩ => .object [("condition", .string condition), ("story", .array (encodeStory story))]

def encodeStory : List Entry → List Json
  | [] => []
  | entry :: rest => entry.encode :: encodeStory rest

end

def Metadata.encode (metadata : Metadata) : Json :=
  match metadata.storyName with
  | some name => .object (("storyName", .string name) :: metadata.extra)
  | none => .object metadata.extra

def Document.encode (document : Document) : Json :=
  .present
    [("metadata", document.metadata.map Metadata.encode),
     ("constants", document.constants.map .object),
     ("story", some (.array (encodeStory document.story)))]

def Position.decode : Decoder Position := fun levels draft =>
  (Decoder.text levels draft).map Position.ofWord

def Effects.decode : Decoder Effects := fun levels draft =>
  (Decoder.members levels draft).map Effects.mk

def Choice.decode : Decoder Choice := fun levels draft => do
  let field (levels : Nat) (record : Option String × Choice) (name : String) (value : Draft) :
      Except Fault (Option String × Choice) := do
    if name = "text" then return (some (← Decoder.text levels value), record.2)
    else if name = "effects" then
      return (record.1, { record.2 with effects := ← Decoder.optional Effects.decode levels value })
    else
      return (record.1, { record.2 with toast := ← Decoder.optional Decoder.text levels value })
  let (text, choice) ←
    Decoder.structured ["text", "effects", "toast"] field (none, { text := "" }) levels draft
  return { choice with text := ← Decoder.required text }

def Unlocks.decode : Decoder Unlocks := Decoder.catalog Decoder.members

def Entry.fieldNames : List String :=
  ["character", "state", "outfit", "position", "background", "dialogue", "sfx", "vfx", "responses",
    "branch", "unlocks"]

mutual

def Entry.decode : Nat → Draft → Except Fault Entry
  | 0, draft => .error draft.tooDeep
  | levels + 1, draft =>
      let field (entry : Entry) (name : String) (value : Draft) : Except Fault Entry := do
        let text := Decoder.optional Decoder.text levels value
        if name = "character" then return { entry with character := ← text }
        else if name = "state" then return { entry with state := ← text }
        else if name = "outfit" then return { entry with outfit := ← text }
        else if name = "position" then
          return { entry with position := ← Decoder.optional Position.decode levels value }
        else if name = "background" then return { entry with background := ← text }
        else if name = "dialogue" then return { entry with dialogue := ← text }
        else if name = "sfx" then return { entry with sfx := ← text }
        else if name = "vfx" then return { entry with vfx := ← text }
        else if name = "responses" then
          return { entry with responses := ← Decoder.optional (Decoder.list Choice.decode) levels value }
        else if name = "branch" then
          match value with
          | .null => return { entry with branch := none }
          | value => return { entry with branch := some (← Branch.decode levels value) }
        else return { entry with unlocks := ← Decoder.optional Unlocks.decode levels value }
      Decoder.record Entry.fieldNames field .blank draft

def Branch.decode : Nat → Draft → Except Fault Branch
  | 0, draft => .error draft.tooDeep
  | levels + 1, draft => do
      let field (record : Option String × List Entry) (name : String) (value : Draft) :
          Except Fault (Option String × List Entry) := do
        if name = "condition" then return (some (← Decoder.text levels value), record.2)
        else return (record.1, ← decodeStory levels value)
      let (condition, story) ← Decoder.record ["condition", "story"] field (none, []) draft
      return { condition := ← Decoder.required condition, story }

def decodeStory : Nat → Draft → Except Fault (List Entry)
  | 0, .array .. => .error .malformed
  | levels + 1, .array items closed => do
      let entries ← items.mapM (Entry.decode levels)
      if closed then .ok entries else .error .malformed
  | _, draft => .error draft.mismatch

end

/-- Everything beside the name is taken in as it is, so it has to be in order. -/
def Metadata.decode : Decoder Metadata
  | levels + 1, .object members closed => do
      let rec take (seen : Bool) : List (Json.Key × Draft) →
          Except Fault (Option String × List (String × Json))
        | [] => .ok (none, [])
        | (key, value) :: rest => do
            let name ← Decoder.textKey key
            if name = "storyName" then
              if seen then .error .wrongShape
              else
                let storyName ← Decoder.optional Decoder.text levels value
                let (_, extra) ← take true rest
                return (storyName, extra)
            else
              let value ← value.read levels
              let (storyName, extra) ← take seen rest
              return (storyName, (name, value) :: extra)
      let (storyName, extra) ← take false members
      if closed then .ok { storyName, extra := Members.ofList extra } else .error .malformed
  | 0, .object .. => .error .malformed
  | _, draft => .error draft.mismatch

def Document.decodeFull : Decoder Document :=
  let field (levels : Nat) (document : Document) (name : String) (value : Draft) :
      Except Fault Document := do
    if name = "metadata" then
      return { document with metadata := ← Decoder.optional Metadata.decode levels value }
    else if name = "constants" then
      return { document with constants := ← Decoder.optional Decoder.members levels value }
    else return { document with story := ← decodeStory levels value }
  Decoder.structured ["metadata", "constants", "story"] field {}

/-- A document is first read as a whole. If it is then no array of entries it has to be a structure. -/
def Document.decode : Decoder Document := fun levels draft => do
  let _ ← draft.read levels
  match decodeStory levels draft with
  | .ok story => .ok { story }
  | .error _ => (Document.decodeFull levels draft).mapError fun _ => .wrongShape

def Document.ofBytes (bytes : List UInt8) : Except Json.Refusal Document :=
  Json.decodeBytes Document.decode bytes

end BranchingStory
