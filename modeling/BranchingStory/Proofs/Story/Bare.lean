import BranchingStory.Proofs.Json.Levels
import BranchingStory.Proofs.Json.Returned
import BranchingStory.Story.Codec

/-!
Documents that are arrays. An array of entries is the story that it would be if it were named so, whatever level it
stands on. An array of at most three that are not all of them entries may still be read, as the parts of a document.
-/

namespace BranchingStory

open Json (Decoder Draft Fault Key deepest keyOf)

theorem Json.Decoder.length_le_of_positional {ρ : Type} {field : ρ → String → Draft → Except Fault ρ} {closed : Bool}
    {names : List String} {items : List Draft} {start result : ρ}
    (decoded : positional field closed names items start = .ok result) : items.length ≤ names.length := by
  induction items generalizing names start with
  | nil => exact Nat.zero_le _
  | cons item rest ih =>
      cases names with
      | nil => cases decoded
      | cons name others =>
          obtain ⟨_, _, later⟩ := bind_eq_ok.mp decoded
          exact Nat.succ_le_succ (ih later)

/-! ## Levels that a story does not reach -/

theorem Position.levelled_decode : Decoder.Levelled Position.decode := Decoder.levelled_text.map

theorem Effects.levelled_decode : Decoder.Levelled Effects.decode := Decoder.levelled_members.map

theorem Unlocks.levelled_decode : Decoder.Levelled Unlocks.decode := Decoder.levelled_members.catalog

theorem Choice.levelled_decode : Decoder.Levelled Choice.decode := by
  intro levels draft shallow
  rw [Choice.decode, Choice.decode, Decoder.levelled_structured ?_ levels draft shallow]
  intro levels value inside record name
  simp only [Decoder.levelled_text levels value inside, Decoder.levelled_text.optional levels value inside,
    Effects.levelled_decode.optional levels value inside]

mutual

theorem Entry.levelled_decode : Decoder.Levelled Entry.decode
  | 0, draft, shallow => by
      rw [Entry.decode, Entry.decode]
      exact Decoder.record_of_flat shallow
  | levels + 1, draft, shallow => by
      rw [Entry.decode, Entry.decode]
      refine Decoder.record_congr shallow fun value inside entry name => ?_
      have entered := Branch.levelled_decode levels value inside
      simp only [Decoder.levelled_text.optional levels value inside,
        Position.levelled_decode.optional levels value inside,
        Choice.levelled_decode.list.optional levels value inside, Unlocks.levelled_decode.optional levels value inside]
      cases value with
      | null => rfl
      | _ => simp only [entered]

theorem Branch.levelled_decode : Decoder.Levelled Branch.decode
  | 0, draft, shallow => by
      rw [Branch.decode, Branch.decode, Decoder.record_of_flat shallow]
      rfl
  | levels + 1, draft, shallow => by
      rw [Branch.decode, Branch.decode]
      simp only
      rw [Decoder.record_congr shallow fun value inside record name => ?_]
      simp only [Decoder.levelled_text levels value inside, levelled_decodeStory levels value inside]

theorem levelled_decodeStory : Decoder.Levelled decodeStory
  | 0, .array .., shallow => absurd shallow (Nat.not_succ_le_zero _)
  | levels + 1, .array items closed, shallow => by
      have inside := Draft.depthOfItems_le_iff.mp (Nat.le_of_succ_le_succ shallow)
      rw [decodeStory, decodeStory, mapM_congr fun item listed => Entry.levelled_decode levels item (inside item listed)]
  | levels, .null, _ => by cases levels <;> rfl
  | levels, .bool _, _ => by cases levels <;> rfl
  | levels, .number _, _ => by cases levels <;> rfl
  | levels, .string _, _ => by cases levels <;> rfl
  | levels, .object .., _ => by cases levels <;> rfl
  | levels, .broken, _ => by cases levels <;> rfl

end

/-! ## Arrays of entries -/

namespace Document

variable {levels : Nat} {value : Json} {document : Document}

theorem decode_story {draft : Draft} (read : draft.read levels = .ok value) :
    decode (levels + 1) (.object [(keyOf "story", draft)] true) = .ok document ↔
      ∃ story, decodeStory levels draft = .ok story ∧ document = { story } := by
  have whole : (Draft.object [(keyOf "story", draft)] true).read (levels + 1) = .ok (.object [("story", value)]) := by
    refine Draft.read_object_eq_ok.mpr ⟨[("story", value)], ?_, rfl, rfl⟩
    exact Draft.readMembers_cons_eq_ok.mpr ⟨"story", rfl, value, read, [], rfl, rfl⟩
  have object : decodeStory (levels + 1) (.object [(keyOf "story", draft)] true) = .error .wrongShape := rfl
  have full : decodeFull (levels + 1) (.object [(keyOf "story", draft)] true) =
      (decodeStory levels draft).map fun story => { story } := by
    simp only [decodeFull, Decoder.structured, Decoder.record, Decoder.fields, Decoder.textKey, keyOf, ok_bind]
    cases decodeStory levels draft <;> rfl
  simp only [decode, whole, ok_bind, object, full, mapError_eq_ok, map_eq_ok]
  exact exists_congr fun story => and_congr_right' eq_comm

theorem decode_array {items : List Draft} {closed : Bool} (read : (Draft.array items closed).read levels = .ok value) :
    decode (levels + 1) (.array items closed) = .ok document ↔
      (∃ story, decodeStory levels (.array items closed) = .ok story ∧ document = { story }) ∨
        (∀ story, decodeStory levels (.array items closed) ≠ .ok story) ∧
          decodeFull (levels + 1) (.array items closed) = .ok document := by
  have shallow := Draft.shallow_of_read read
  have whole : (Draft.array items closed).read (levels + 1) = .ok value := (Draft.read_succ shallow).trans read
  simp only [decode, whole, ok_bind, levelled_decodeStory levels _ shallow]
  cases decodeStory levels (.array items closed) with
  | ok story => simp [eq_comm]
  | error cause => simp [mapError_eq_ok]

theorem length_le_of_decodeFull {items : List Draft} {closed : Bool}
    (decoded : decodeFull levels (.array items closed) = .ok document) : items.length ≤ 3 := by
  cases levels with
  | zero => simp [decodeFull, Decoder.structured] at decoded
  | succ levels => exact Decoder.length_le_of_positional decoded

end Document

theorem array_document_reads {items : List Json} (legible : ∀ number ∈ (Json.array items).numbers, number.Legible)
    (shallow : (Json.array items).depth ≤ 126) (document : Document) :
    let named := Document.ofBytes (Json.object [("story", .array items)]).compact.toUTF8.toList
    (named = .ok document → document = { story := document.story }) ∧
      (Document.ofBytes (Json.array items).compact.toUTF8.toList = .ok document ↔
        named = .ok document ∨ (∀ other, named ≠ .ok other) ∧
          Document.decodeFull deepest (Json.array items).redraft = .ok document) := by
  have read := Json.read_redraft legible shallow
  have named : ∀ other, Document.ofBytes (Json.object [("story", .array items)]).compact.toUTF8.toList = .ok other ↔
      ∃ story, decodeStory 126 (Json.array items).redraft = .ok story ∧ other = { story } := by
    intro other
    refine (Json.decodeBytes_compact (by simpa [Json.numbers, Json.numbersOfMembers] using legible)).trans ?_
    exact Document.decode_story read
  refine ⟨fun accepted => ?_, ?_⟩
  · obtain ⟨story, -, rfl⟩ := (named document).mp accepted
    rfl
  · refine (Json.decodeBytes_compact legible).trans ((Document.decode_array read).trans ?_)
    refine or_congr (named document).symm (and_congr_left' ?_)
    simp only [ne_eq, named, not_exists, not_and]
    exact ⟨fun none other story told _ => none story told, fun none story told => none _ story told rfl⟩

theorem long_array_document_reads {items : List Json} (legible : ∀ number ∈ (Json.array items).numbers, number.Legible)
    (shallow : (Json.array items).depth ≤ 126) (many : 3 < items.length) (document : Document) :
    Document.ofBytes (Json.array items).compact.toUTF8.toList = .ok document ↔
      Document.ofBytes (Json.object [("story", .array items)]).compact.toUTF8.toList = .ok document := by
  obtain ⟨-, either⟩ := array_document_reads legible shallow document
  refine either.trans (or_iff_left fun ⟨_, parts⟩ => ?_)
  have few := Document.length_le_of_decodeFull parts
  rw [Json.redraftItems_eq_map, List.length_map] at few
  omega

/-- A `null` is no entry, but an array of it is read: it stands for metadata that is not there. -/
theorem array_can_be_misread :
    let items := [Json.null]
    (Document.ofBytes (Json.object [("story", .array items)]).compact.toUTF8.toList).isOk = false ∧
      ((Document.ofBytes (Json.array items).compact.toUTF8.toList).toOption.map (·.story.length)) = some 0 := by
  decide +kernel

end BranchingStory
