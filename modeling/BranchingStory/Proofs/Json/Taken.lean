import BranchingStory.Proofs.Catalog.Lookup
import BranchingStory.Proofs.Json.Parsed
import BranchingStory.Proofs.Json.Sameness

/-!
What is taken out of drafts. A part of a draft has only numbers that the draft has, and it stands fewer levels from
the deepest.
-/

namespace BranchingStory
namespace Json

namespace Draft

def Within (Known : Number → Prop) (draft : Draft) : Prop := ∀ number ∈ draft.numbers, Known number

abbrev Finite (draft : Draft) : Prop := draft.Within Number.Finite

variable {Known : Number → Prop} {items : List Draft} {members : List (Key × Draft)} {closed : Bool}

theorem Within.item {item : Draft} (within : (Draft.array items closed).Within Known) (listed : item ∈ items) :
    item.Within Known :=
  fun number held => within number (mem_numbersOfItems.mpr ⟨item, listed, held⟩)

theorem Within.member {member : Key × Draft} (within : (Draft.object members closed).Within Known)
    (listed : member ∈ members) : member.2.Within Known :=
  fun number held => within number (mem_numbersOfMembers.mpr ⟨member, listed, held⟩)

mutual

theorem Within.proper : ∀ {levels : Nat} {draft : Draft} {value : Json}, draft.Finite →
    draft.read levels = .ok value → value.Proper
  | _, .null, _, _, read => by cases read; trivial
  | _, .bool _, _, _, read => by cases read; trivial
  | _, .number (some (.integer _)), _, _, read => by cases read; trivial
  | _, .number (some (.real level)), _, finite, read => by
      cases read
      exact finite (.real level) List.mem_cons_self
  | _, .string (some _), _, _, read => by cases read; trivial
  | levels + 1, .array items closed, value, finite, read => by
      obtain ⟨values, inside, _, rfl⟩ := read_array_eq_ok.mp read
      exact proper_of_readItems (fun item listed => finite.item listed) inside
  | levels + 1, .object members closed, value, finite, read => by
      obtain ⟨pairs, inside, _, rfl⟩ := read_object_eq_ok.mp read
      have proper := properMembers_iff.mp (proper_of_readMembers (fun member listed => finite.member listed) inside)
      refine ⟨Members.nodup_merge List.nodup_nil, properMembers_iff.mpr fun member listed => ?_⟩
      exact proper member ((Members.mem_or_mem_of_mem_merge listed).resolve_left List.not_mem_nil)
  | _, .number none, _, _, read => by cases read
  | _, .string none, _, _, read => by cases read
  | _, .broken, _, _, read => by cases read
  | 0, .array .., _, _, read => by cases read
  | 0, .object .., _, _, read => by cases read

theorem proper_of_readItems : ∀ {levels : Nat} {items : List Draft} {values : List Json},
    (∀ item ∈ items, item.Finite) → readItems levels items = .ok values → ProperItems values
  | _, [], _, _, read => by cases read; trivial
  | levels, item :: rest, values, finite, read => by
      obtain ⟨value, first, others, later, rfl⟩ := readItems_cons_eq_ok.mp read
      exact ⟨(finite item List.mem_cons_self).proper first,
        proper_of_readItems (fun item listed => finite item (List.mem_cons_of_mem _ listed)) later⟩

theorem proper_of_readMembers : ∀ {levels : Nat} {members : List (Key × Draft)} {pairs : Members},
    (∀ member ∈ members, member.2.Finite) → readMembers levels members = .ok pairs → ProperMembers pairs
  | _, [], _, _, read => by cases read; trivial
  | levels, (key, draft) :: rest, pairs, finite, read => by
      obtain ⟨name, _, value, first, others, later, rfl⟩ := readMembers_cons_eq_ok.mp read
      exact ⟨(finite (key, draft) List.mem_cons_self).proper first,
        proper_of_readMembers (fun member listed => finite member (List.mem_cons_of_mem _ listed)) later⟩

end

theorem finite_draft (text : List Char) : (Json.draft text).1.Finite := fun _ held => finite_of_draft held

end Draft

/-- What holds of a value that was read from text so many levels from the deepest. -/
structure FromText (levels : Nat) (value : Json) : Prop where
  finite : ∀ number ∈ value.numbers, number.Finite
  proper : value.Proper
  shallow : value.depth ≤ levels

theorem Draft.Within.fromText {draft : Draft} {levels : Nat} {value : Json} (finite : draft.Finite)
    (read : draft.read levels = .ok value) : value.FromText levels :=
  ⟨fun number held => finite number (Draft.mem_numbers_of_read read held), finite.proper read,
    Draft.depth_le_of_read read⟩

theorem FromText.mono {levels more : Nat} {value : Json} (fromText : value.FromText levels) (room : levels ≤ more) :
    value.FromText more :=
  ⟨fromText.finite, fromText.proper, fromText.shallow.trans room⟩

theorem FromText.member {levels : Nat} {members : Members} {member : String × Json}
    (fromText : (Json.object members).FromText levels) (listed : member ∈ members) :
    member.2.FromText (levels - 1) where
  finite number held := fromText.finite number (mem_numbersOfMembers.mpr ⟨member, listed, held⟩)
  proper := properMembers_iff.mp fromText.proper.2 member listed
  shallow := by
    have shallow : depthOfMembers members + 1 ≤ levels := fromText.shallow
    exact depthOfMembers_le_iff.mp (by omega) member listed

namespace Decoder

variable {α β ρ : Type} {Known : Number → Prop} {decode : Decoder α} {draft : Draft} {levels : Nat}

def Takes (Known : Number → Prop) (decode : Decoder α) (levels : Nat) (value : α) : Prop :=
  ∃ draft : Draft, draft.Within Known ∧ decode levels draft = .ok value

theorem Takes.of_optional {value : α} (takes : Takes Known (optional decode) levels (some value)) :
    Takes Known decode levels value := by
  obtain ⟨draft, within, decoded⟩ := takes
  refine ⟨draft, within, ?_⟩
  cases draft with
  | null => simp [optional] at decoded
  | _ =>
      obtain ⟨result, taken, same⟩ := map_eq_ok.mp decoded
      rw [taken, Option.some.inj same]

theorem required_eq_ok {given : Option α} {value : α} : required given = .ok value ↔ given = some value := by
  cases given <;> simp [required]

theorem Takes.pair {key : Key → Except Fault β} {pairs : List (β × α)} {pair : β × α}
    (takes : Takes Known (Decoder.pairs key decode) levels pairs) (listed : pair ∈ pairs) :
    ∃ below, levels = below + 1 ∧ Takes Known decode below pair.2 := by
  obtain ⟨draft, within, decoded⟩ := takes
  unfold Decoder.pairs at decoded
  split at decoded
  · rename_i below members closed
    obtain ⟨taken, all, closing⟩ := bind_eq_ok.mp decoded
    split at closing
    · obtain rfl := Except.ok.inj closing
      obtain ⟨member, member_listed, found⟩ := mem_of_mapM all pair listed
      obtain ⟨name, _, rest⟩ := bind_eq_ok.mp found
      obtain ⟨value, here, same⟩ := bind_eq_ok.mp rest
      obtain rfl := Except.ok.inj same
      exact ⟨below, rfl, member.2, within.member member_listed, here⟩
    · simp at closing
  · simp at decoded
  · simp at decoded

theorem Takes.catalog {catalog : Catalog String α} {entry : String × α}
    (takes : Takes Known (Decoder.catalog decode) levels catalog) (listed : entry ∈ catalog.entries) :
    ∃ below, levels = below + 1 ∧ Takes Known decode below entry.2 := by
  obtain ⟨draft, within, decoded⟩ := takes
  obtain ⟨pairs, taken, rfl⟩ := map_eq_ok.mp decoded
  exact Takes.pair ⟨draft, within, taken⟩ (Catalog.mem_of_mem_ofList listed)

theorem Takes.list {items : List α} {item : α} (takes : Takes Known (Decoder.list decode) levels items)
    (listed : item ∈ items) : ∃ below, levels = below + 1 ∧ Takes Known decode below item := by
  obtain ⟨draft, within, decoded⟩ := takes
  unfold Decoder.list at decoded
  split at decoded
  · rename_i below drafts closed
    obtain ⟨taken, all, closing⟩ := bind_eq_ok.mp decoded
    split at closing
    · obtain rfl := Except.ok.inj closing
      obtain ⟨value, value_listed, found⟩ := mem_of_mapM all item listed
      exact ⟨below, rfl, value, within.item value_listed, found⟩
    · simp at closing
  · simp at decoded
  · simp at decoded

/-! ## Structures -/

section

variable {names : List String} {field : ρ → String → Draft → Except Fault ρ} (Holds : ρ → Prop) {start result : ρ}
  (keeps : ∀ record name value after, Holds record → value.Within Known → field record name value = .ok after →
    Holds after)

include keeps

theorem holds_of_fields {members : List (Key × Draft)} {seen : List String}
    (within : ∀ member ∈ members, member.2.Within Known) (holds : Holds start)
    (decoded : fields names field members seen start = .ok result) : Holds result := by
  induction members generalizing seen start with
  | nil =>
      obtain rfl := Except.ok.inj decoded
      exact holds
  | cons first rest ih =>
      have later : ∀ member ∈ rest, member.2.Within Known := fun member listed =>
        within member (List.mem_cons_of_mem _ listed)
      obtain ⟨name, _, taken⟩ := bind_eq_ok.mp decoded
      split at taken
      · split at taken
        · simp at taken
        · obtain ⟨after, here, there⟩ := bind_eq_ok.mp taken
          exact ih later (keeps _ _ _ _ holds (within first List.mem_cons_self) here) there
      · split at taken
        · exact ih later holds taken
        · simp at taken

theorem holds_of_positional {items : List Draft} {closed : Bool} (within : ∀ item ∈ items, item.Within Known)
    (holds : Holds start) (decoded : positional field closed names items start = .ok result) : Holds result := by
  induction items generalizing names start with
  | nil =>
      cases names <;> cases closed <;> simp only [positional] at decoded <;> cases decoded <;> exact holds
  | cons item rest ih =>
      cases names with
      | nil => simp [positional] at decoded
      | cons name others =>
          obtain ⟨after, here, there⟩ := bind_eq_ok.mp decoded
          exact ih (fun item listed => within item (List.mem_cons_of_mem _ listed))
            (keeps _ _ _ _ holds (within item List.mem_cons_self) here) there

theorem holds_of_record (within : draft.Within Known) (holds : Holds start)
    (decoded : record names field start draft = .ok result) : Holds result := by
  cases draft with
  | object members closed =>
      obtain ⟨after, taken, closing⟩ := bind_eq_ok.mp decoded
      split at closing
      · obtain rfl := Except.ok.inj closing
        exact holds_of_fields Holds keeps (fun member listed => within.member listed) holds taken
      · simp at closing
  | array items closed => exact holds_of_positional Holds keeps (fun item listed => within.item listed) holds decoded
  | _ => simp [record] at decoded

end

end Decoder

/-! ## Texts -/

def writtenNumbers (bytes : List UInt8) : List Number := (draft (characters bytes).1).1.numbers

section

variable {α : Type} {Known : Number → Prop} {decode : Decoder α} {value : α}

theorem takes_of_decodeCharacters {text : List Char} {whole : Bool} (within : (draft text).1.Within Known)
    (decoded : decodeCharacters decode text whole = .ok value) : Decoder.Takes Known decode deepest value := by
  refine ⟨(draft text).1, within, ?_⟩
  simp only [decodeCharacters] at decoded
  split at decoded
  · simp at decoded
  · rename_i result taken
    split at decoded
    · rw [taken, Except.ok.inj decoded]
    · simp at decoded

theorem takes_of_decodeText {text : String} (decoded : decodeText decode text = .ok value) :
    Decoder.Takes Number.Finite decode deepest value :=
  takes_of_decodeCharacters (Draft.finite_draft _) decoded

theorem takes_of_decodeBytes {bytes : List UInt8} (decoded : decodeBytes decode bytes = .ok value) :
    Decoder.Takes Number.Finite decode deepest value :=
  takes_of_decodeCharacters (Draft.finite_draft _) decoded

end

end Json
end BranchingStory
