import BranchingStory.Proofs.Json.Short
import BranchingStory.Proofs.Save.Recorded
import BranchingStory.Proofs.Time.Written

/-!
What is saved and loaded again. A ledger comes back as it was: its slots are written in digits, its timestamps in
universal time and its ids as JSON, and each of these is read as what was written. Levels come back bit for bit if they
have few digits; levels that need all the digits of a float can lose their last bit.
-/

namespace BranchingStory

/-! ## Levels of few digits -/

namespace Affection

def FewDigits (levels : Affection) : Prop := ∀ level ∈ levels.values, BranchingStory.FewDigits level

instance (levels : Affection) : Decidable levels.FewDigits :=
  inferInstanceAs (Decidable (∀ level ∈ levels.values, BranchingStory.FewDigits level))

theorem FewDigits.reread_eq_self {levels : Affection} (few : levels.FewDigits) : levels.reread = levels := by
  have same : levels.entries.map (fun entry => (entry.1, (Number.real entry.2).reread.elim 0 Number.toFloat)) =
      levels.entries := by
    refine (List.map_congr_left fun entry member => ?_).trans (List.map_id levels.entries)
    rw [(few entry.2 (List.mem_map_of_mem member)).lossless.reread_eq]
    rfl
  rw [reread, same, Catalog.ofList_entries]

theorem FewDigits.decode_written {levels : Affection} (few : levels.FewDigits) :
    Json.decodeText decode levels.encode.compact = .ok levels := by
  rw [Affection.decode_written (fun level held _ => (few level held).lossless.legible)
    (fun level held => (few level held).lossless.finite), few.reread_eq_self]

end Affection

/-! ## Ordinary ledgers -/

/-- A time in one of the years 0000 to 9999 that is not in a leap second. -/
structure Instant.Ordinary (instant : Instant) : Prop where
  first : 0 ≤ (Date.ofDayNumber (instant.seconds / 86400)).year
  last : (Date.ofDayNumber (instant.seconds / 86400)).year ≤ 9999
  nanoseconds : instant.nanoseconds < 1000000000

theorem Instant.Ordinary.proper {instant : Instant} (ordinary : instant.Ordinary) : instant.Proper where
  year := by
    have first := ordinary.first
    have last := ordinary.last
    simp only [inRange, Bool.and_eq_true, decide_eq_true_eq]
    omega
  nanoseconds := .inl ordinary.nanoseconds

structure UnlockRecord.Ordinary (record : UnlockRecord) : Prop where
  whole : ∀ number ∈ record.id.numbers, number.Whole
  proper : record.id.Proper
  shallow : record.id.depth ≤ 124
  timestamp : record.timestamp.Ordinary

theorem UnlockRecord.Ordinary.lossless {record : UnlockRecord} (ordinary : record.Ordinary) : record.Lossless where
  numbers number held _ := (ordinary.whole number held).lossless
  timestamp := Instant.ofText?_text ordinary.timestamp.proper

theorem UnlockRecord.Ordinary.storable {record : UnlockRecord} (ordinary : record.Ordinary) : record.id.Storable where
  finite number held := (ordinary.whole number held).finite
  proper := ordinary.proper
  shallow := ordinary.shallow

/-- The numbers in the ids are whole, and the timestamps are ordinary. -/
def Ledger.Ordinary (ledger : Ledger) : Prop :=
  ∀ slots ∈ ledger.categories.values, ∀ record ∈ slots.values, record.Ordinary

theorem Ledger.Ordinary.lossless {ledger : Ledger} (ordinary : ledger.Ordinary) : ledger.Lossless :=
  fun slots listed record held => (ordinary slots listed record held).lossless

theorem Ledger.Ordinary.storable {ledger : Ledger} (ordinary : ledger.Ordinary) : ledger.Within Json.Storable := by
  intro slot record held
  obtain ⟨category, listed, inside⟩ := Ledger.holds_iff.mp held
  exact (ordinary category.2 (List.mem_map_of_mem listed) record (List.mem_map_of_mem inside)).storable

theorem Ledger.Ordinary.decode_written {ledger : Ledger} (ordinary : ledger.Ordinary) :
    Json.decodeText Ledger.decode ledger.encode.compact = .ok ledger := by
  rw [Ledger.decode_written ordinary.lossless.legible ordinary.storable,
    Ledger.reread_eq_self ordinary.lossless ordinary.storable]

namespace Save

variable {σ : Type}

namespace Backend

variable {backend : Backend σ} {saved after : σ}

theorem Recalls.load (recalls : backend.Recalls) {α : Type} {decode : Json.Decoder α} {missing value : α}
    {key text : String} (written : backend.write saved key text = (.ok (), after))
    (decoded : Json.decodeText decode text = .ok value) : backend.load decode missing after key = .ok value := by
  rw [Backend.load, recalls saved key text after written, ok_bind]
  simp only [decoded]
  rfl

theorem Recalls.loadUnlocks (recalls : backend.Recalls) {ledger : Ledger} (ordinary : ledger.Ordinary)
    (written : backend.saveUnlocks saved ledger = (.ok (), after)) : backend.loadUnlocks after = .ok ledger :=
  recalls.load written ordinary.decode_written

theorem Recalls.loadAffection (recalls : backend.Recalls) {levels : Affection} (few : levels.FewDigits)
    (written : backend.saveAffection saved levels = (.ok (), after)) : backend.loadAffection after = .ok levels :=
  recalls.load written few.decode_written

end Backend

/-- The text of a level is exact, but a text of seventeen digits is rounded twice when it is read. -/
theorem level_can_drift (texts : Catalog String String) :
    let level := Float.ofBits 0x3FF6666666666667
    let drifted := Float.ofBits 0x3FF6666666666666
    level.isFinite = true ∧ ¬ FewDigits level ∧
      ∃ after, memory.saveAffection texts (Catalog.empty.insert "Alice" level) = (.ok (), after) ∧
        memory.loadAffection after = .ok (Catalog.empty.insert "Alice" drifted) := by
  intro level drifted
  have decoded : Json.decodeText Affection.decode (Affection.encode (Catalog.empty.insert "Alice" level)).compact =
      .ok (Catalog.empty.insert "Alice" drifted) := by
    have read : (Number.real level).reread.elim 0 Number.toFloat = drifted := by decide +kernel
    rw [Affection.decode_written (by decide +kernel) (by decide +kernel), ← read]
    rfl
  have written : memory.write texts affectionKey (Affection.encode (Catalog.empty.insert "Alice" level)).compact =
      (.ok (), texts.insert affectionKey (Affection.encode (Catalog.empty.insert "Alice" level)).compact) := rfl
  exact ⟨by decide +kernel, by decide +kernel, _, written, memory_recalls.load written decoded⟩

/-- Saved unlocks are loaded as they were, from memory, from a folder, and from whatever else recalls what is written
to it. -/
theorem unlocks_load_back {ledger : Ledger} (ordinary : ledger.Ordinary) :
    (∀ texts, ∃ after, memory.saveUnlocks texts ledger = (.ok (), after) ∧ memory.loadUnlocks after = .ok ledger) ∧
      (∀ path disk after, (folder path).saveUnlocks disk ledger = (.ok (), after) →
        (folder path).loadUnlocks after = .ok ledger) ∧
      ∀ {σ : Type} (backend : Backend σ) (saved after : σ), backend.Recalls →
        backend.saveUnlocks saved ledger = (.ok (), after) → backend.loadUnlocks after = .ok ledger := by
  refine ⟨fun texts => ⟨_, rfl, ?_⟩, fun path disk after written => ?_, fun backend saved after recalls written => ?_⟩
  · have written : memory.saveUnlocks texts ledger =
        (.ok (), texts.insert unlocksKey ledger.encode.compact) := rfl
    exact memory_recalls.loadUnlocks ordinary written
  · exact (folder_recalls path).loadUnlocks ordinary written
  · exact recalls.loadUnlocks ordinary written

theorem nested_unlock_loads_back :
    let numbers : Json := .array [.number (.integer (-2 ^ 63)), .number (.integer (2 ^ 64 - 1)), .null]
    let record : UnlockRecord := ⟨.object [("name", .string "a \"beach\"\n"), ("range", numbers)], ⟨253402300799, 999999999⟩⟩
    let ledger : Ledger := ⟨(Catalog.empty.insert "gallery" (Catalog.empty.insert 10 record)).insert "routes" .empty⟩
    let disk := Files.Disk.blank ["game"]
    ledger.Ordinary ∧
      (∃ after, memory.saveUnlocks .empty ledger = (.ok (), after) ∧ memory.loadUnlocks after = .ok ledger) ∧
      ∃ after, (folder "save").saveUnlocks disk ledger = (.ok (), after) ∧
      (folder "save").loadUnlocks after = .ok ledger := by
  intro numbers record ledger disk
  have timestamp : record.timestamp.Ordinary := ⟨by decide, by decide, by decide⟩
  have ordinary : record.Ordinary := by
    refine ⟨?_, ?_, by decide, timestamp⟩
    · decide
    · simp [record, numbers, Json.Proper, Json.ProperMembers, Json.ProperItems]
  have ledger_ordinary : ledger.Ordinary := by
    intro slots listed other held
    obtain ⟨category, member, rfl⟩ := List.mem_map.mp listed
    obtain rfl | member := Catalog.key_of_mem_place member
    · cases held
    · obtain rfl := List.mem_singleton.mp member
      obtain rfl := List.mem_singleton.mp held
      exact ordinary
  have saved : ((folder "save").saveUnlocks disk ledger).1 = .ok () := by decide +kernel
  obtain ⟨kept, stored, -⟩ := unlocks_load_back ledger_ordinary
  exact ⟨ledger_ordinary, kept .empty, _, Prod.ext saved rfl, stored "save" disk _ (Prod.ext saved rfl)⟩

end Save
end BranchingStory
