import BranchingStory.Story.Codec
import BranchingStory.Time.Reading
import BranchingStory.Unlock.Ledger

/-!
Ledgers as JSON: an object for each category, whose keys are the slots.
-/

namespace BranchingStory

open Json (Draft Fault Decoder)

def UnlockRecord.encode (record : UnlockRecord) : Json :=
  .object [("id", record.id), ("timestamp", .string record.timestamp.text)]

def Slots.encode (slots : Slots) : Json :=
  .object (slots.entries.map fun (slot, record) => (toString slot, record.encode))

def Ledger.encode (ledger : Ledger) : Json :=
  .object (ledger.categories.entries.map fun (category, slots) => (category, slots.encode))

def Instant.decode : Decoder Instant := fun levels draft => do
  Decoder.required (Instant.ofText? (← Decoder.text levels draft))

def UnlockRecord.decode : Decoder UnlockRecord := fun levels draft => do
  let field (levels : Nat) (record : Option Json × Option Instant) (name : String) (value : Draft) :
      Except Fault (Option Json × Option Instant) := do
    if name = "id" then return (some (← value.read levels), record.2)
    else return (record.1, some (← Instant.decode levels value))
  let (id, timestamp) ← Decoder.structured ["id", "timestamp"] field (none, none) levels draft
  return ⟨← Decoder.required id, ← Decoder.required timestamp⟩

def Slots.decodeKey (key : Json.Key) : Except Fault UInt32 :=
  (Decoder.numberKey UInt32.size key).map UInt32.ofNat

def Slots.decode : Decoder Slots := fun levels draft =>
  (Decoder.pairs decodeKey UnlockRecord.decode levels draft).map Catalog.ofList

def Ledger.decode : Decoder Ledger := fun levels draft =>
  (Decoder.catalog Slots.decode levels draft).map Ledger.mk

end BranchingStory
