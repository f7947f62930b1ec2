import BranchingStory.Proofs.Story.Sound
import BranchingStory.Proofs.Time.Written
import BranchingStory.Proofs.Unlock.Recording

/-!
Where the records of a ledger come from. A run records and saves no ids but those that were recorded before it and
those that lie ahead in the story, and no timestamps but those that were recorded before it and readings of the clock.
-/

namespace BranchingStory

namespace Ledger

variable {ledger : Ledger} {unlocks : Unlocks} {now : Instant} {slot : UInt32} {record : UnlockRecord}

def Holds (ledger : Ledger) (slot : UInt32) (record : UnlockRecord) : Prop :=
  ∃ category, (slot, record) ∈ (ledger.slots category).entries

theorem holds_iff : ledger.Holds slot record ↔
    ∃ category ∈ ledger.categories.entries, (slot, record) ∈ category.2.entries := by
  constructor
  · rintro ⟨name, listed⟩
    cases found : ledger.categories.get? name with
    | none => simp [Ledger.slots, found, Catalog.empty] at listed
    | some slots =>
        rw [Ledger.slots, found] at listed
        exact ⟨(name, slots), Catalog.get?_eq_some_iff.mp found, listed⟩
  · rintro ⟨⟨name, slots⟩, category, listed⟩
    refine ⟨name, ?_⟩
    rw [Ledger.slots, Catalog.get?_eq_some_iff.mpr category]
    exact listed

/-- All ids in a ledger are among those that are known. -/
def Within (Known : Json → Prop) (ledger : Ledger) : Prop := ∀ slot record, ledger.Holds slot record → Known record.id

instance (Known : Json → Prop) [DecidablePred Known] : Decidable (ledger.Within Known) :=
  decidable_of_iff (∀ category ∈ ledger.categories.entries, ∀ entry ∈ category.2.entries, Known entry.2.id) <| by
    constructor
    · intro all slot record held
      obtain ⟨category, listed, inside⟩ := holds_iff.mp held
      exact all category listed _ inside
    · intro within category listed entry inside
      exact within entry.1 entry.2 (holds_iff.mpr ⟨category, listed, inside⟩)

def Timed (ledger : Ledger) : Prop := ∀ slot record, ledger.Holds slot record → record.timestamp.Proper

theorem holds_commit (held : (ledger.commit unlocks now).1.Holds slot record) :
    ledger.Holds slot record ∨ (∃ category, record.id ∈ unlocks.ids category) ∧ record.timestamp = now := by
  obtain ⟨category, listed⟩ := held
  rw [slots_commit] at listed
  rcases Slots.mem_addAll listed with before | ⟨added, timed⟩
  · exact .inl ⟨category, before⟩
  · exact .inr ⟨⟨category, added⟩, timed⟩

theorem Within.commit {Known : Json → Prop} (within : ledger.Within Known)
    (known : ∀ category, ∀ id ∈ unlocks.ids category, Known id) (now : Instant) :
    (ledger.commit unlocks now).1.Within Known := by
  intro slot record held
  rcases holds_commit held with before | ⟨⟨category, added⟩, -⟩
  · exact within slot record before
  · exact known category record.id added

theorem Timed.commit (timed : ledger.Timed) (proper : now.Proper) (unlocks : Unlocks) :
    (ledger.commit unlocks now).1.Timed := by
  intro slot record held
  rcases holds_commit held with before | ⟨-, rfl⟩
  · exact timed slot record before
  · exact proper

end Ledger

namespace Playback

variable {Known : Json → Prop} {clock : Nat → Instant}

/-- All ids that playback has recorded or that lie ahead of it are known. -/
structure Within (Known : Json → Prop) (playback : Playback) : Prop where
  ahead : playback.stack.Ahead (Entry.UnlocksOnly Known)
  recorded : playback.teller.ledger.Within Known

theorem within_transcript {playback : Playback} {calls : List Call} (within : playback.Within Known) {ledger : Ledger}
    (saved : Deed.keepUnlocks ledger ∈ (playback.transcript clock calls).flatMap Exchange.deeds) :
    ledger.Within Known :=
  of_keepUnlocks (Ledger.Within Known) (fun made within => by
      obtain ⟨entry, told, unlocks, -⟩ := made
      exact within.commit (unlocks ▸ told) _) within.ahead within.recorded saved

end Playback
end BranchingStory
