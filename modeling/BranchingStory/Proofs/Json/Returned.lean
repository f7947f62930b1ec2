import BranchingStory.Proofs.Json.Printed
import BranchingStory.Proofs.Json.Taken
import BranchingStory.Proofs.Text.Encoding

/-!
Taking values out of texts that were printed. What a decoder takes out of the draft of a printed value, it takes out
of its text. A value whose numbers are lossless and which is not too deep comes back as it was.
-/

namespace BranchingStory
namespace Json

variable {α β : Type}

/-! ## Decoding what is printed -/

section

variable {decode : Decoder α} {value : Json} {result : α}

theorem decodeText_compact (legible : ∀ number ∈ value.numbers, number.Legible) :
    decodeText decode value.compact = .ok result ↔ decode deepest value.redraft = .ok result := by
  simp only [decodeText, decodeCharacters, compact, String.toList_ofList, draft_print legible]
  cases decode deepest value.redraft <;> simp

theorem decodeBytes_compact (legible : ∀ number ∈ value.numbers, number.Legible) :
    decodeBytes decode value.compact.toUTF8.toList = .ok result ↔ decode deepest value.redraft = .ok result := by
  simp only [decodeBytes, characters_toUTF8]
  exact decodeText_compact legible

end

theorem redraftItems_eq_map (items : List Json) : redraftItems items = items.map redraft := by
  induction items with
  | nil => rfl
  | cons first rest ih => rw [redraftItems, ih, List.map_cons]

theorem redraftMembers_eq_map (members : Members) :
    redraftMembers members = members.map fun member => (keyOf member.1, member.2.redraft) := by
  induction members with
  | nil => rfl
  | cons first rest ih => rw [redraftMembers, ih, List.map_cons]

namespace Decoder

variable {decode : Decoder α} {levels : Nat}

theorem pairs_redraft {γ : Type} {key : Key → Except Fault β} {entries : List (β × γ)} (write : β → String)
    (encode : γ → Json) (change : γ → α) (keys : ∀ entry ∈ entries, key (keyOf (write entry.1)) = .ok entry.1)
    (values : ∀ entry ∈ entries, decode levels (encode entry.2).redraft = .ok (change entry.2)) :
    Decoder.pairs key decode (levels + 1)
        (Json.object (entries.map fun entry => (write entry.1, encode entry.2))).redraft =
      .ok (entries.map fun entry => (entry.1, change entry.2)) := by
  rw [redraft, redraftMembers_eq_map, Decoder.pairs, List.map_map, List.mapM_map]
  refine bind_eq_ok.mpr ⟨entries.map fun entry => (entry.1, change entry.2), ?_, rfl⟩
  refine mapM_of_forall fun entry listed => ?_
  simp only [Function.comp_apply, keys entry listed, values entry listed]
  rfl

theorem catalog_redraft {entries : List (String × β)} (encode : β → Json) (change : β → α)
    (values : ∀ entry ∈ entries, decode levels (encode entry.2).redraft = .ok (change entry.2)) :
    Decoder.catalog decode (levels + 1) (Json.object (entries.map fun entry => (entry.1, encode entry.2))).redraft =
      .ok (.ofList (entries.map fun entry => (entry.1, change entry.2))) := by
  have named : ∀ entry ∈ entries, textKey (keyOf entry.1) = .ok entry.1 := fun _ _ => rfl
  rw [catalog, pairs_redraft (fun name => name) encode change named values]
  rfl

theorem list_redraft {items : List α} (encode : α → Json)
    (values : ∀ item ∈ items, decode levels (encode item).redraft = .ok item) :
    Decoder.list decode (levels + 1) (Json.array (items.map encode)).redraft = .ok items := by
  rw [redraft, redraftItems_eq_map, Decoder.list, List.map_map, List.mapM_map]
  refine bind_eq_ok.mpr ⟨items, ?_, rfl⟩
  have taken : items.mapM (fun item => decode levels (encode item).redraft) = .ok (items.map id) :=
    mapM_of_forall values
  rwa [List.map_id] at taken

theorem optional_of_ne_null {draft : Draft} (there : draft ≠ .null) :
    optional decode levels draft = (decode levels draft).map some := by
  cases draft with
  | null => exact absurd rfl there
  | _ => rfl

theorem readMembers_eq_mapM (levels : Nat) (members : List (Key × Draft)) :
    Draft.readMembers levels members = members.mapM fun member => do
      let name ← textKey member.1
      return (name, ← json levels member.2) := by
  induction members with
  | nil => rfl
  | cons first rest ih =>
      obtain ⟨⟨text, written⟩, value⟩ := first
      rw [List.mapM_cons, ← ih, Draft.readMembers]
      cases text with
      | none => rfl
      | some name => cases taken : value.read levels <;> (simp only [textKey, json, taken]; rfl)

theorem members_eq_ok {draft : Draft} {members : Members} :
    Decoder.members levels draft = .ok members ↔ draft.read levels = .ok (.object members) := by
  cases draft with
  | object drafts closed =>
      cases levels with
      | zero => simp [Decoder.members, pairs, Draft.read, Except.map]
      | succ levels =>
          rw [Draft.read, readMembers_eq_mapM, Decoder.members, pairs, map_eq_ok, bind_eq_ok]
          cases closed <;> simp [bind_eq_ok]
  | array items closed =>
      cases levels with
      | zero => simp [Decoder.members, pairs, Draft.read, Except.map]
      | succ levels => simp [Decoder.members, pairs, Draft.read_array_eq_ok, Except.map]
  | number value => cases value <;> simp [Decoder.members, pairs, Draft.read, Except.map]
  | string text => cases text <;> simp [Decoder.members, pairs, Draft.read, Except.map]
  | _ => simp [Decoder.members, pairs, Draft.read, Except.map]

end Decoder

/-! ## Values that come back -/

structure Returns (levels : Nat) (value : Json) : Prop where
  numbers : ∀ number ∈ value.numbers, number.Lossless
  shallow : value.depth ≤ levels

section

variable {levels : Nat} {value : Json}

theorem Returns.legible (returns : value.Returns levels) : ∀ number ∈ value.numbers, number.Legible :=
  fun number held => (returns.numbers number held).legible

theorem Returns.items {items : List Json} (returns : (Json.array items).Returns levels) :
    ∃ below, levels = below + 1 ∧ ∀ item ∈ items, item.Returns below := by
  obtain ⟨numbers, shallow⟩ := returns
  cases levels with
  | zero => exact absurd shallow (Nat.not_succ_le_zero _)
  | succ below =>
      have inside := depthOfItems_le_iff.mp (Nat.le_of_succ_le_succ shallow)
      exact ⟨below, rfl, fun item listed =>
        ⟨fun number held => numbers number (mem_numbersOfItems.mpr ⟨item, listed, held⟩), inside item listed⟩⟩

theorem Returns.members {members : Members} (returns : (Json.object members).Returns levels) :
    ∃ below, levels = below + 1 ∧ ∀ member ∈ members, member.2.Returns below := by
  obtain ⟨numbers, shallow⟩ := returns
  cases levels with
  | zero => exact absurd shallow (Nat.not_succ_le_zero _)
  | succ below =>
      have inside := depthOfMembers_le_iff.mp (Nat.le_of_succ_le_succ shallow)
      exact ⟨below, rfl, fun member listed =>
        ⟨fun number held => numbers number (mem_numbersOfMembers.mpr ⟨member, listed, held⟩), inside member listed⟩⟩

theorem Returns.read_redraft (returns : value.Returns levels) (proper : value.Proper) :
    value.redraft.read levels = .ok value := by
  rw [Json.read_redraft returns.legible returns.shallow,
    reread_eq_self proper fun number held => (returns.numbers number held).reread_eq]

theorem Returns.members_redraft {members : Members} (returns : (Json.object members).Returns levels)
    (proper : (Json.object members).Proper) : Decoder.members levels (Json.object members).redraft = .ok members :=
  Decoder.members_eq_ok.mpr (returns.read_redraft proper)

end

end Json
end BranchingStory
