import BranchingStory.Story.Entry
import BranchingStory.Time.Instant

/-!
The ledger of unlocks. Each category has numbered slots, one for each id that was reached, in the order in
which they were reached.
-/

namespace BranchingStory

structure UnlockRecord where
  id : Json
  timestamp : Instant

/-- The slots of a category are numbered in 32 bits. -/
abbrev Slots := Catalog UInt32 UnlockRecord

structure Ledger where
  categories : Catalog String Slots

namespace Slots

def holds (slots : Slots) (id : Json) : Bool := slots.values.any fun record => record.id.same id

/-- The slot after the highest one in use. After the last that there is comes the first one again, as in a build
that does not check for overflow; a build that does stops there. -/
def nextSlot (slots : Slots) : UInt32 :=
  match slots.lastKey? with
  | some last => last + 1
  | none => 0

/-- An id that is new to the category takes the next slot. Says whether it is new. -/
def add (slots : Slots) (id : Json) (now : Instant) : Slots × Bool :=
  if slots.holds id then (slots, false) else (slots.insert slots.nextSlot ⟨id, now⟩, true)

def addAll (slots : Slots) (now : Instant) : List Json → Slots × Bool
  | [] => (slots, false)
  | id :: rest =>
      let (slots, first) := slots.add id now
      let (slots, later) := addAll slots now rest
      (slots, first || later)

end Slots

namespace Ledger

def empty : Ledger := ⟨.empty⟩

instance : Inhabited Ledger := ⟨empty⟩

def slots (ledger : Ledger) (category : String) : Slots := (ledger.categories.get? category).getD .empty

def contains (ledger : Ledger) (category : String) (id : Json) : Bool :=
  (ledger.slots category).holds id

def isEmpty (ledger : Ledger) : Bool := ledger.categories.values.all Catalog.isEmpty

def commitCategory (ledger : Ledger) (now : Instant) (category : String) (ids : List Json) : Ledger × Bool :=
  let (slots, changed) := (ledger.slots category).addAll now ids
  (⟨ledger.categories.insert category slots⟩, changed)

def commitEntries (ledger : Ledger) (now : Instant) : List (String × Members) → Ledger × Bool
  | [] => (ledger, false)
  | (category, ids) :: rest =>
      let (ledger, first) := ledger.commitCategory now category (ids.map (·.2))
      let (ledger, later) := commitEntries ledger now rest
      (ledger, first || later)

/-- Takes in the ids of every category, and says whether any of them was new. -/
def commit (ledger : Ledger) (unlocks : Unlocks) (now : Instant) : Ledger × Bool :=
  ledger.commitEntries now unlocks.entries

end Ledger
end BranchingStory
