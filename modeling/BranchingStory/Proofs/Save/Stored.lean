import BranchingStory.Proofs.Json.Returned
import BranchingStory.Proofs.Unlock.Origin
import BranchingStory.Save.Basic

/-!
Affection levels and ledgers as they are stored. What is written is read again if every level is finite, no id
is deeper than a stored ledger has room for, and every number and timestamp is read again on its own.
-/

namespace BranchingStory

open Json (Decoder Draft Fault Key deepest keyOf)

namespace Json

/-! ## Numbers and their keys -/

theorem flatMap_escape_digits {text : List Char} (digits : ∀ c ∈ text, Numeral.isDigit c = true) :
    text.flatMap escape = text := by
  have plain : ∀ c, Numeral.isDigit c = true → escape c = [c] := by
    intro c digit
    rw [Numeral.isDigit, Bool.and_eq_true, decide_eq_true_eq, decide_eq_true_eq] at digit
    have printable : 0x30 ≤ c.toNat := digit.1
    have apart : c ≠ '"' ∧ c ≠ '\\' ∧ c ≠ '\n' ∧ c ≠ '\r' ∧ c ≠ '\t' := by
      refine ⟨?_, ?_, ?_, ?_, ?_⟩ <;> (rintro rfl; revert digit; decide)
    simp only [escape, apart, if_false]
    rw [if_neg (by omega), if_neg (by omega), if_neg (by omega)]
  induction text with
  | nil => rfl
  | cons first rest ih =>
      rw [List.flatMap_cons, plain first (digits first List.mem_cons_self),
        ih fun c member => digits c (List.mem_cons_of_mem _ member)]
      rfl

theorem numberKey_toString {slot bound : Nat} (below : slot < bound) (small : bound ≤ 2 ^ 64) :
    Decoder.numberKey bound (keyOf (toString slot)) = .ok slot := by
  have digits : (toString slot).toList = Nat.toDigits 10 slot := by
    rw [Nat.toString_eq_ofList_toDigits, String.toList_ofList]
  have written : (keyOf (toString slot)).written = Nat.toDigits 10 slot := by
    rw [keyOf, digits]
    exact flatMap_escape_digits fun c => Numeral.isDigit_of_mem_toDigits
  have fits : slot ≤ NumberLiteral.significandLimit := by
    have limit : NumberLiteral.significandLimit = 2 ^ 64 - 1 := rfl
    omega
  have inside : (0 : Int) ≤ slot ∧ (slot : Int) < bound := by omega
  simp only [Decoder.numberKey, written, literal?_toDigits, value_toDigits fits, if_pos inside]
  rfl

theorem float_redraft {number : Number} (legible : number.Legible) (levels : Nat) :
    Decoder.float levels (Json.number number).redraft = .ok (number.reread.elim 0 Number.toFloat) := by
  obtain ⟨literal, read, found, known⟩ := legible
  have again : number.reread = some read := by rw [Number.reread, found]; exact known
  rw [redraft, again]
  rfl

end Json

/-! ## Levels -/

namespace Affection

variable {levels : Affection}

def Legible (levels : Affection) : Prop :=
  ∀ level ∈ levels.values, level.isFinite = true → (Number.real level).Legible

instance : Decidable levels.Legible :=
  inferInstanceAs (Decidable (∀ level ∈ levels.values, level.isFinite = true → (Number.real level).Legible))

theorem encode_eq (finite : ∀ level ∈ levels.values, level.isFinite = true) :
    levels.encode = .object (levels.entries.map fun entry => (entry.1, .number (.real entry.2))) := by
  rw [encode]
  congr 1
  refine List.map_congr_left fun entry member => congrArg (Prod.mk entry.1) ?_
  exact if_pos (finite entry.2 (List.mem_map_of_mem member))

def reread (levels : Affection) : Affection :=
  .ofList (levels.entries.map fun entry => (entry.1, (Number.real entry.2).reread.elim 0 Number.toFloat))

theorem decode_written (legible : levels.Legible) (finite : ∀ level ∈ levels.values, level.isFinite = true) :
    Json.decodeText decode levels.encode.compact = .ok levels.reread := by
  have single : ∀ entry ∈ levels.entries, (Number.real entry.2).Legible := fun entry member =>
    legible entry.2 (List.mem_map_of_mem member) (finite entry.2 (List.mem_map_of_mem member))
  rw [encode_eq finite]
  have numbers : ∀ number ∈ (Json.object (levels.entries.map fun entry =>
      (entry.1, Json.number (.real entry.2)))).numbers, number.Legible := by
    intro number held
    obtain ⟨member, listed, inside⟩ := Json.mem_numbersOfMembers.mp held
    obtain ⟨entry, entry_listed, rfl⟩ := List.mem_map.mp listed
    rw [List.mem_singleton.mp inside]
    exact single entry entry_listed
  exact (Json.decodeText_compact numbers).mpr (Decoder.catalog_redraft (fun level => .number (.real level))
    (fun level => (Number.real level).reread.elim 0 Number.toFloat)
    fun entry listed => Json.float_redraft (single entry listed) 126)

end Affection

/-! ## Ledgers -/

/-- The finite numbers of an id and its timestamp are read again, each on its own. -/
structure UnlockRecord.Legible (record : UnlockRecord) : Prop where
  numbers : ∀ number ∈ record.id.numbers, number.Finite → number.Legible
  timestamp : (Instant.ofText? record.timestamp.text).isSome

instance (record : UnlockRecord) : Decidable record.Legible :=
  decidable_of_iff ((∀ number ∈ record.id.numbers, number.Finite → number.Legible) ∧
    (Instant.ofText? record.timestamp.text).isSome) ⟨fun both => ⟨both.1, both.2⟩, fun legible => ⟨legible.1, legible.2⟩⟩

def Slots.Legible (slots : Slots) : Prop := ∀ record ∈ slots.values, record.Legible

instance (slots : Slots) : Decidable slots.Legible :=
  inferInstanceAs (Decidable (∀ record ∈ slots.values, record.Legible))

def Ledger.Legible (ledger : Ledger) : Prop := ∀ slots ∈ ledger.categories.values, slots.Legible

instance (ledger : Ledger) : Decidable ledger.Legible :=
  inferInstanceAs (Decidable (∀ slots ∈ ledger.categories.values, slots.Legible))

def UnlockRecord.reread (record : UnlockRecord) : UnlockRecord :=
  ⟨record.id.reread, (Instant.ofText? record.timestamp.text).getD default⟩

theorem UnlockRecord.decode_redraft {record : UnlockRecord} (legible : record.Legible) (storable : record.id.Storable) :
    UnlockRecord.decode (deepest - 2) record.encode.redraft = .ok record.reread := by
  obtain ⟨instant, known⟩ := Option.isSome_iff_exists.mp legible.timestamp
  have identified : record.id.redraft.read 124 = .ok record.id.reread :=
    Json.read_redraft (fun number held => legible.numbers number held (storable.finite number held)) storable.shallow
  have time : Instant.decode 124 (.string (some record.timestamp.text)) = .ok instant := by
    simp [Instant.decode, Decoder.text, bind_eq_ok, Decoder.required, known]
  have drafted : record.encode.redraft =
      .object [(keyOf "id", record.id.redraft), (keyOf "timestamp", .string (some record.timestamp.text))] true := rfl
  rw [drafted, UnlockRecord.reread, known]
  simp [UnlockRecord.decode, Decoder.structured, deepest, Decoder.record, Decoder.fields, Decoder.textKey, keyOf,
    ok_bind, identified, time, Decoder.required]

namespace Slots

variable {slots : Slots}

theorem mem_numbers_encode {number : Number} (held : number ∈ slots.encode.numbers) :
    ∃ entry ∈ slots.entries, number ∈ entry.2.id.numbers := by
  obtain ⟨member, listed, inside⟩ := Json.mem_numbersOfMembers.mp held
  obtain ⟨entry, entry_listed, rfl⟩ := List.mem_map.mp listed
  refine ⟨entry, entry_listed, ?_⟩
  simpa [UnlockRecord.encode, Json.numbers, Json.numbersOfMembers] using inside

def reread (slots : Slots) : Slots := .ofList (slots.entries.map fun entry => (entry.1, entry.2.reread))

theorem decodeKey_toString (slot : UInt32) : decodeKey (keyOf (toString slot)) = .ok slot := by
  have read := Json.numberKey_toString slot.toNat_lt_size (by decide)
  have written : toString slot = toString slot.toNat := rfl
  rw [decodeKey, written, read]
  exact congrArg Except.ok UInt32.ofNat_toNat

theorem decode_redraft (legible : slots.Legible) (storable : ∀ entry ∈ slots.entries, entry.2.id.Storable) :
    Slots.decode (deepest - 1) slots.encode.redraft = .ok slots.reread := by
  have records : ∀ entry ∈ slots.entries,
      UnlockRecord.decode (deepest - 2) entry.2.encode.redraft = .ok entry.2.reread := fun entry listed =>
    UnlockRecord.decode_redraft (legible entry.2 (List.mem_map_of_mem listed)) (storable entry listed)
  exact map_eq_ok.mpr ⟨_, Decoder.pairs_redraft toString UnlockRecord.encode UnlockRecord.reread
    (fun entry _ => decodeKey_toString entry.1) records, rfl⟩

end Slots

def Ledger.reread (ledger : Ledger) : Ledger :=
  ⟨.ofList (ledger.categories.entries.map fun entry => (entry.1, entry.2.reread))⟩

theorem Ledger.decode_written {ledger : Ledger} (legible : ledger.Legible) (storable : ledger.Within Json.Storable) :
    Json.decodeText Ledger.decode ledger.encode.compact = .ok ledger.reread := by
  have inside : ∀ category ∈ ledger.categories.entries,
      category.2.Legible ∧ ∀ entry ∈ category.2.entries, entry.2.id.Storable := fun category listed =>
    ⟨legible category.2 (List.mem_map_of_mem listed), fun entry held =>
      storable entry.1 entry.2 (Ledger.holds_iff.mpr ⟨category, listed, held⟩)⟩
  have numbers : ∀ number ∈ ledger.encode.numbers, number.Legible := by
    intro number held
    obtain ⟨member, listed, within⟩ := Json.mem_numbersOfMembers.mp held
    obtain ⟨category, category_listed, rfl⟩ := List.mem_map.mp listed
    obtain ⟨entry, entry_listed, deeper⟩ := Slots.mem_numbers_encode within
    obtain ⟨read, stored⟩ := inside category category_listed
    exact (read entry.2 (List.mem_map_of_mem entry_listed)).numbers number deeper ((stored entry entry_listed).finite number deeper)
  have categories : ∀ category ∈ ledger.categories.entries,
      Slots.decode (deepest - 1) category.2.encode.redraft = .ok category.2.reread := fun category listed =>
    Slots.decode_redraft (inside category listed).1 (inside category listed).2
  exact (Json.decodeText_compact numbers).mpr
    (map_eq_ok.mpr ⟨_, Decoder.catalog_redraft Slots.encode Slots.reread categories, rfl⟩)

/-! ### Ledgers that are read as they were -/

structure UnlockRecord.Lossless (record : UnlockRecord) : Prop where
  numbers : ∀ number ∈ record.id.numbers, number.Finite → number.Lossless
  timestamp : Instant.ofText? record.timestamp.text = some record.timestamp

def Slots.Lossless (slots : Slots) : Prop := ∀ record ∈ slots.values, record.Lossless

def Ledger.Lossless (ledger : Ledger) : Prop := ∀ slots ∈ ledger.categories.values, slots.Lossless

theorem UnlockRecord.Lossless.legible {record : UnlockRecord} (lossless : record.Lossless) : record.Legible :=
  ⟨fun number held finite => (lossless.numbers number held finite).legible, by rw [lossless.timestamp]; rfl⟩

theorem Ledger.Lossless.legible {ledger : Ledger} (lossless : ledger.Lossless) : ledger.Legible :=
  fun slots listed record held => (lossless slots listed record held).legible

theorem UnlockRecord.reread_eq_self {record : UnlockRecord} (lossless : record.Lossless)
    (storable : record.id.Storable) : record.reread = record := by
  have id : record.id.reread = record.id := Json.reread_eq_self storable.proper fun number held =>
    (lossless.numbers number held (storable.finite number held)).reread_eq
  rw [UnlockRecord.reread, id, lossless.timestamp]
  rfl

theorem Slots.reread_eq_self {slots : Slots} (lossless : slots.Lossless)
    (storable : ∀ entry ∈ slots.entries, entry.2.id.Storable) : slots.reread = slots := by
  have same : (slots.entries.map fun entry => (entry.1, entry.2.reread)) = slots.entries.map id :=
    List.map_congr_left fun entry listed => Prod.ext rfl
      (UnlockRecord.reread_eq_self (lossless entry.2 (List.mem_map_of_mem listed)) (storable entry listed))
  rw [Slots.reread, same, List.map_id, Catalog.ofList_entries]

theorem Ledger.reread_eq_self {ledger : Ledger} (lossless : ledger.Lossless) (storable : ledger.Within Json.Storable) :
    ledger.reread = ledger := by
  have same : (ledger.categories.entries.map fun entry => (entry.1, entry.2.reread)) =
      ledger.categories.entries.map id := by
    refine List.map_congr_left fun category listed => Prod.ext rfl ?_
    refine Slots.reread_eq_self (lossless category.2 (List.mem_map_of_mem listed)) fun entry held => ?_
    exact storable entry.1 entry.2 (Ledger.holds_iff.mpr ⟨category, listed, held⟩)
  rw [Ledger.reread, same, List.map_id, Catalog.ofList_entries]

/-! ### Ledgers that were read -/

theorem Instant.proper_of_decode {levels : Nat} {draft : Draft} {instant : Instant}
    (decoded : Instant.decode levels draft = .ok instant) : instant.Proper := by
  obtain ⟨text, -, taken⟩ := bind_eq_ok.mp decoded
  exact Instant.proper_of_ofText? (Decoder.required_eq_ok.mp taken)

/-- What holds of a record that was read so many levels from the deepest. -/
structure UnlockRecord.Sound (levels : Nat) (record : UnlockRecord) : Prop where
  id : record.id.FromText levels
  timestamp : record.timestamp.Proper

theorem UnlockRecord.sound_of_takes {levels : Nat} {record : UnlockRecord}
    (takes : Decoder.Takes Number.Finite UnlockRecord.decode levels record) :
    ∃ below, levels = below + 1 ∧ record.Sound below := by
  obtain ⟨draft, finite, decoded⟩ := takes
  obtain ⟨⟨given, time⟩, taken, rest⟩ := bind_eq_ok.mp decoded
  obtain ⟨id, present, rest⟩ := bind_eq_ok.mp rest
  obtain ⟨timestamp, timed, same⟩ := bind_eq_ok.mp rest
  obtain rfl := Except.ok.inj same
  cases levels with
  | zero => simp [Decoder.structured] at taken
  | succ levels =>
      have fields : (∀ id ∈ given, id.FromText levels) ∧ ∀ timestamp ∈ time, timestamp.Proper := by
        refine Decoder.holds_of_record
          (fun fields : Option Json × Option Instant =>
            (∀ id ∈ fields.1, id.FromText levels) ∧ ∀ timestamp ∈ fields.2, timestamp.Proper) ?_ finite (by simp) taken
        intro fields name value after known inside read
        rcases eq_or_eq_of_ite read with read | read
        · obtain ⟨id, here, same⟩ := bind_eq_ok.mp read
          obtain rfl := Except.ok.inj same
          exact ⟨fun other named => Option.some.inj named ▸ inside.fromText here, known.2⟩
        · obtain ⟨instant, here, same⟩ := bind_eq_ok.mp read
          obtain rfl := Except.ok.inj same
          exact ⟨known.1, fun other named => Option.some.inj named ▸ Instant.proper_of_decode here⟩
      exact ⟨levels, rfl, fields.1 id (Decoder.required_eq_ok.mp present),
        fields.2 timestamp (Decoder.required_eq_ok.mp timed)⟩

theorem Ledger.sound_of_decodeText {text : String} {ledger : Ledger}
    (read : Json.decodeText Ledger.decode text = .ok ledger) {slot : UInt32} {record : UnlockRecord}
    (held : ledger.Holds slot record) : record.Sound (deepest - 3) := by
  obtain ⟨draft, finite, decoded⟩ := Json.takes_of_decodeText read
  obtain ⟨categories, taken, rfl⟩ := map_eq_ok.mp decoded
  obtain ⟨category, listed, inside⟩ := Ledger.holds_iff.mp held
  obtain ⟨first, outer, value, known, slots⟩ := Decoder.Takes.catalog ⟨draft, finite, taken⟩ listed
  obtain ⟨pairs, paired, same⟩ := map_eq_ok.mp slots
  rw [← same] at inside
  obtain ⟨second, inner, found⟩ := Decoder.Takes.pair ⟨value, known, paired⟩ (Catalog.mem_of_mem_ofList inside)
  obtain ⟨third, innermost, sound⟩ := UnlockRecord.sound_of_takes found
  exact ⟨sound.id.mono (by omega), sound.timestamp⟩

end BranchingStory
