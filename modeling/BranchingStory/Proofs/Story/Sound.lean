import BranchingStory.Proofs.Json.Returned
import BranchingStory.Proofs.Playback.Traces
import BranchingStory.Proofs.Unlock.Growth
import BranchingStory.Story.Codec

/-!
Stories that are read from text. All that is in them was taken out of the text somewhere, the entries of sub-stories
deeper than those that lead to them. The ids that they unlock are values that a stored ledger has room for, since they
stand deeper in the document than they will stand in the ledger.
-/

namespace BranchingStory

open Json (Decoder Draft Fault deepest)

/-- An id that a stored ledger has room for, inside of three other containers. -/
def Json.Storable (id : Json) : Prop := id.FromText (deepest - 3)

def Entry.UnlocksOnly (Known : Json → Prop) (entry : Entry) : Prop :=
  ∀ category, ∀ id ∈ entry.unlocked.ids category, Known id

instance (Known : Json → Prop) [DecidablePred Known] (entry : Entry) : Decidable (entry.UnlocksOnly Known) :=
  decidable_of_iff (∀ category ∈ entry.unlocked.entries, ∀ id ∈ category.2, Known id.2) <| by
    constructor
    · intro all category id reached
      cases found : entry.unlocked.get? category with
      | none => simp [Unlocks.ids, found] at reached
      | some members =>
          rw [Unlocks.ids, found] at reached
          obtain ⟨member, listed, rfl⟩ := List.mem_map.mp reached
          exact all _ (Catalog.get?_eq_some_iff.mp found) member listed
    · intro only category listed id held
      refine only category.1 id.2 ?_
      rw [Unlocks.ids, Catalog.get?_eq_some_iff.mpr listed]
      exact List.mem_map_of_mem held

variable {Known : Number → Prop} {levels : Nat}

/-! ## Objects that are kept as they are -/

theorem Json.Decoder.Takes.fromText {members : Members}
    (takes : Decoder.Takes Number.Finite Decoder.members levels members) : (Json.object members).FromText levels := by
  obtain ⟨draft, finite, decoded⟩ := takes
  exact finite.fromText (Decoder.members_eq_ok.mp decoded)

theorem Json.Decoder.Takes.numbers {members : Members} (takes : Decoder.Takes Known Decoder.members levels members) :
    ∀ number ∈ Json.numbersOfMembers members, Known number := by
  obtain ⟨draft, within, decoded⟩ := takes
  exact fun number held => within number (Draft.mem_numbers_of_read (Decoder.members_eq_ok.mp decoded) held)

theorem Choice.effects_of_takes {choice : Choice} (takes : Decoder.Takes Known Choice.decode levels choice) :
    ∀ effects ∈ choice.effects, ∃ below, Decoder.Takes Known Decoder.members below effects.members := by
  obtain ⟨draft, within, decoded⟩ := takes
  obtain ⟨⟨given, blank⟩, taken, rest⟩ := bind_eq_ok.mp decoded
  obtain ⟨text, _, same⟩ := bind_eq_ok.mp rest
  obtain rfl := Except.ok.inj same
  cases levels with
  | zero => simp [Decoder.structured] at taken
  | succ levels =>
      refine Decoder.holds_of_record (fun record : Option String × Choice => ∀ effects ∈ record.2.effects,
        ∃ below, Decoder.Takes Known Decoder.members below effects.members) ?_ within (fun _ none => by cases none) taken
      intro record name value after known inside read
      rcases eq_or_eq_of_ite read with read | read
      · obtain ⟨text, _, same⟩ := bind_eq_ok.mp read
        obtain rfl := Except.ok.inj same
        exact known
      rcases eq_or_eq_of_ite read with read | read
      · obtain ⟨effects, found, same⟩ := bind_eq_ok.mp read
        obtain rfl := Except.ok.inj same
        intro given there
        obtain rfl := Option.mem_def.mp there
        obtain ⟨source, known, taken⟩ := Decoder.Takes.of_optional ⟨value, inside, found⟩
        obtain ⟨members, here, rfl⟩ := map_eq_ok.mp taken
        exact ⟨levels, source, known, here⟩
      · obtain ⟨toast, _, same⟩ := bind_eq_ok.mp read
        obtain rfl := Except.ok.inj same
        exact known

/-! ## Entries -/

structure Entry.Taken (Known : Number → Prop) (levels : Nat) (entry : Entry) : Prop where
  responses : ∀ choices ∈ entry.responses, Decoder.Takes Known (Decoder.list Choice.decode) levels choices
  branch : ∀ branch ∈ entry.branch, Decoder.Takes Known Branch.decode levels branch
  unlocks : ∀ unlocks ∈ entry.unlocks, Decoder.Takes Known Unlocks.decode levels unlocks

theorem Entry.Taken.congr {entry other : Entry} (taken : entry.Taken Known levels)
    (responses : other.responses = entry.responses) (unlocks : other.unlocks = entry.unlocks)
    (branch : other.branch = entry.branch) : other.Taken Known levels where
  responses := by
    rw [responses]
    exact taken.responses
  branch := by
    rw [branch]
    exact taken.branch
  unlocks := by
    rw [unlocks]
    exact taken.unlocks

theorem Entry.taken_of_takes {entry : Entry} (takes : Decoder.Takes Known Entry.decode levels entry) :
    ∃ below, levels = below + 1 ∧ entry.Taken Known below := by
  obtain ⟨draft, within, decoded⟩ := takes
  cases levels with
  | zero => simp [Entry.decode] at decoded
  | succ levels =>
      have blank : Entry.blank.Taken Known levels :=
        ⟨(fun _ none => by cases none), (fun _ none => by cases none), (fun _ none => by cases none)⟩
      refine ⟨levels, rfl, ?_⟩
      rw [Entry.decode] at decoded
      refine Decoder.holds_of_record (Entry.Taken Known levels) ?_ within blank decoded
      intro entry name value after known inside taken
      have plain : ∀ {part : Type} {read : Except Fault part} {change : part → Entry},
          (do return change (← read)) = Except.ok after →
            (∀ given, (change given).responses = entry.responses ∧ (change given).unlocks = entry.unlocks ∧
              (change given).branch = entry.branch) → after.Taken Known levels := by
        intro part read change taken same
        obtain ⟨given, _, made⟩ := bind_eq_ok.mp taken
        obtain rfl := Except.ok.inj made
        exact known.congr (same given).1 (same given).2.1 (same given).2.2
      dsimp only at taken
      iterate 8
        rcases eq_or_eq_of_ite taken with taken | taken
        · exact plain taken fun _ => ⟨rfl, rfl, rfl⟩
      rcases eq_or_eq_of_ite taken with taken | taken
      · obtain ⟨responses, read, same⟩ := bind_eq_ok.mp taken
        obtain rfl := Except.ok.inj same
        refine ⟨fun choices there => ?_, known.branch, known.unlocks⟩
        obtain rfl := Option.mem_def.mp there
        exact .of_optional ⟨value, inside, read⟩
      rcases eq_or_eq_of_ite taken with taken | taken
      · split at taken
        · obtain rfl := Except.ok.inj taken
          exact ⟨known.responses, (fun _ none => by cases none), known.unlocks⟩
        · obtain ⟨branch, read, same⟩ := bind_eq_ok.mp taken
          obtain rfl := Except.ok.inj same
          refine ⟨known.responses, fun other led => ?_, known.unlocks⟩
          obtain rfl := Option.some.inj led
          exact ⟨value, inside, read⟩
      · obtain ⟨unlocks, read, same⟩ := bind_eq_ok.mp taken
        obtain rfl := Except.ok.inj same
        refine ⟨known.responses, known.branch, fun given there => ?_⟩
        obtain rfl := Option.mem_def.mp there
        exact .of_optional ⟨value, inside, read⟩

/-! ## Stories -/

def Story.Taken (Known : Number → Prop) (levels : Nat) (story : Story) : Prop :=
  ∀ entry ∈ story, ∃ below, below < levels ∧ Decoder.Takes Known Entry.decode below entry

theorem Story.Taken.mono {more : Nat} {story : Story} (taken : story.Taken Known levels) (room : levels ≤ more) :
    story.Taken Known more := by
  intro entry listed
  obtain ⟨below, less, takes⟩ := taken entry listed
  exact ⟨below, Nat.lt_of_lt_of_le less room, takes⟩

theorem Story.taken_of_takes {story : Story} (takes : Decoder.Takes Known decodeStory levels story) :
    story.Taken Known levels := by
  obtain ⟨draft, within, decoded⟩ := takes
  cases levels with
  | zero => cases draft <;> simp [decodeStory] at decoded
  | succ levels =>
      cases draft with
      | array items closed =>
          rw [decodeStory] at decoded
          obtain ⟨entries, taken, closing⟩ := bind_eq_ok.mp decoded
          split at closing
          · obtain rfl := Except.ok.inj closing
            intro entry listed
            obtain ⟨item, item_listed, here⟩ := mem_of_mapM taken entry listed
            exact ⟨levels, Nat.lt_succ_self levels, item, within.item item_listed, here⟩
          · simp at closing
      | _ => simp [decodeStory] at decoded

theorem Branch.taken_of_takes {branch : Branch} (takes : Decoder.Takes Known Branch.decode levels branch) :
    Story.Taken Known levels branch.story := by
  obtain ⟨draft, within, decoded⟩ := takes
  cases levels with
  | zero => simp [Branch.decode] at decoded
  | succ levels =>
      rw [Branch.decode] at decoded
      obtain ⟨record, taken, rest⟩ := bind_eq_ok.mp decoded
      obtain ⟨condition, _, same⟩ := bind_eq_ok.mp rest
      obtain rfl := Except.ok.inj same
      refine Decoder.holds_of_record (fun record => Story.Taken Known (levels + 1) record.2) ?_ within
        (fun entry listed => absurd listed List.not_mem_nil) taken
      intro record name value after known inside read
      split at read
      · obtain ⟨text, _, same⟩ := bind_eq_ok.mp read
        obtain rfl := Except.ok.inj same
        exact known
      · obtain ⟨story, decoded, same⟩ := bind_eq_ok.mp read
        obtain rfl := Except.ok.inj same
        exact (Story.taken_of_takes ⟨value, inside, decoded⟩).mono (Nat.le_succ levels)

theorem Entry.LiesIn.taken {story : Story} {entry : Entry} (lies : entry.LiesIn story) {levels : Nat}
    (taken : story.Taken Known levels) : ∃ below, below + 1 < levels ∧ entry.Taken Known below := by
  induction lies generalizing levels with
  | here listed =>
      obtain ⟨_, less, takes⟩ := taken _ listed
      obtain ⟨below, rfl, known⟩ := Entry.taken_of_takes takes
      exact ⟨below, less, known⟩
  | inside listed led _ ih =>
      obtain ⟨_, less, takes⟩ := taken _ listed
      obtain ⟨below, rfl, known⟩ := Entry.taken_of_takes takes
      obtain ⟨deeper, further, inner⟩ := ih (Branch.taken_of_takes (known.branch _ led))
      exact ⟨deeper, by omega, inner⟩

theorem Entry.Taken.fromText {entry : Entry} (taken : entry.Taken Number.Finite levels) :
    ∀ category ∈ entry.unlocked.entries, (Json.object category.2).FromText (levels - 1) := by
  intro category listed
  cases given : entry.unlocks with
  | none =>
      rw [Entry.unlocked, given] at listed
      exact absurd listed List.not_mem_nil
  | some unlocks =>
      rw [Entry.unlocked, given] at listed
      obtain ⟨below, rfl, takes⟩ := Decoder.Takes.catalog (taken.unlocks unlocks given) listed
      exact takes.fromText

theorem Entry.LiesIn.storable {story : Story} {entry : Entry} (lies : entry.LiesIn story)
    (taken : story.Taken Number.Finite deepest) : entry.UnlocksOnly Json.Storable := by
  obtain ⟨below, less, known⟩ := lies.taken taken
  intro category id reached
  cases found : entry.unlocked.get? category with
  | none => simp [Unlocks.ids, found] at reached
  | some members =>
      rw [Unlocks.ids, found] at reached
      obtain ⟨member, listed, rfl⟩ := List.mem_map.mp reached
      have object := known.fromText _ (Catalog.get?_eq_some_iff.mp found)
      exact (object.member listed).mono (by omega)

/-! ## Documents -/

structure Metadata.Taken (Known : Number → Prop) (levels : Nat) (metadata : Metadata) : Prop where
  distinct : (metadata.extra.map (·.1)).Nodup
  extra : ∀ member ∈ metadata.extra, member.1 ≠ "storyName" ∧ Decoder.Takes Known Decoder.json levels member.2

theorem Metadata.extra_of_take {members : List (Json.Key × Draft)} {seen : Bool} {name : Option String}
    {extra : Members} (within : ∀ member ∈ members, member.2.Within Known)
    (taken : Metadata.decode.take levels seen members = .ok (name, extra)) :
    ∀ member ∈ extra, member.1 ≠ "storyName" ∧ Decoder.Takes Known Decoder.json levels member.2 := by
  induction members generalizing seen name extra with
  | nil =>
      obtain ⟨-, rfl⟩ := Prod.mk.inj (Except.ok.inj taken)
      exact fun _ listed => absurd listed List.not_mem_nil
  | cons first rest ih =>
      obtain ⟨key, value⟩ := first
      have later : ∀ member ∈ rest, member.2.Within Known := fun member listed =>
        within member (List.mem_cons_of_mem _ listed)
      rw [Metadata.decode.take] at taken
      obtain ⟨given, _, taken⟩ := bind_eq_ok.mp taken
      split at taken
      · split at taken
        · simp at taken
        · obtain ⟨storyName, _, taken⟩ := bind_eq_ok.mp taken
          obtain ⟨⟨_, others⟩, onward, same⟩ := bind_eq_ok.mp taken
          obtain ⟨-, rfl⟩ := Prod.mk.inj (Except.ok.inj same)
          exact ih later onward
      · rename_i other
        obtain ⟨read, here, taken⟩ := bind_eq_ok.mp taken
        obtain ⟨⟨_, others⟩, onward, same⟩ := bind_eq_ok.mp taken
        obtain ⟨-, rfl⟩ := Prod.mk.inj (Except.ok.inj same)
        exact List.forall_mem_cons.mpr
          ⟨⟨other, value, within (key, value) List.mem_cons_self, here⟩, ih later onward⟩

theorem Metadata.taken_of_takes {metadata : Metadata} (takes : Decoder.Takes Known Metadata.decode levels metadata) :
    ∃ below, levels = below + 1 ∧ metadata.Taken Known below := by
  obtain ⟨draft, within, decoded⟩ := takes
  unfold Metadata.decode at decoded
  split at decoded
  · rename_i below members closed
    obtain ⟨⟨name, extra⟩, taken, closing⟩ := bind_eq_ok.mp decoded
    dsimp only at closing
    split at closing
    · obtain rfl := Except.ok.inj closing
      have known := Metadata.extra_of_take (fun member listed => within.member listed) taken
      refine ⟨below, rfl, Members.nodup_merge List.nodup_nil, fun member listed => known member ?_⟩
      exact (Members.mem_or_mem_of_mem_merge listed).resolve_left List.not_mem_nil
    · simp at closing
  · simp at decoded
  · simp at decoded

structure Document.Taken (Known : Number → Prop) (document : Document) : Prop where
  story : document.story.Taken Known deepest
  constants : ∀ constants ∈ document.constants, ∃ levels, Decoder.Takes Known Decoder.members levels constants
  metadata : ∀ metadata ∈ document.metadata, ∃ levels, metadata.Taken Known levels

theorem Document.Taken.constantNumbers {document : Document} (taken : document.Taken Known) :
    ∀ number ∈ Json.numbersOfMembers (document.constants.getD []), Known number := by
  cases given : document.constants with
  | none => exact fun _ held => absurd held List.not_mem_nil
  | some constants =>
      obtain ⟨_, takes⟩ := taken.constants constants given
      exact takes.numbers

theorem Document.taken_of_decodeFull {draft : Draft} {document : Document} (room : levels ≤ deepest)
    (within : draft.Within Known) (decoded : Document.decodeFull levels draft = .ok document) :
    document.Taken Known := by
  cases levels with
  | zero => simp [Document.decodeFull, Decoder.structured] at decoded
  | succ levels =>
      refine Decoder.holds_of_record (Document.Taken Known) ?_ within
        ⟨fun _ listed => absurd listed List.not_mem_nil, (fun _ none => by cases none), (fun _ none => by cases none)⟩
        decoded
      intro document name value after known inside taken
      rcases eq_or_eq_of_ite taken with taken | taken
      · obtain ⟨metadata, read, same⟩ := bind_eq_ok.mp taken
        obtain rfl := Except.ok.inj same
        refine ⟨known.story, known.constants, fun given there => ?_⟩
        obtain rfl := Option.mem_def.mp there
        obtain ⟨below, _, described⟩ := Metadata.taken_of_takes (.of_optional ⟨value, inside, read⟩)
        exact ⟨below, described⟩
      · rcases eq_or_eq_of_ite taken with taken | taken
        · obtain ⟨constants, read, same⟩ := bind_eq_ok.mp taken
          obtain rfl := Except.ok.inj same
          refine ⟨known.story, fun given there => ?_, known.metadata⟩
          obtain rfl := Option.mem_def.mp there
          exact ⟨levels, .of_optional ⟨value, inside, read⟩⟩
        · obtain ⟨story, read, same⟩ := bind_eq_ok.mp taken
          obtain rfl := Except.ok.inj same
          exact ⟨(Story.taken_of_takes ⟨value, inside, read⟩).mono (by omega), known.constants, known.metadata⟩

theorem Document.taken_of_takes {document : Document} (takes : Decoder.Takes Known Document.decode deepest document) :
    document.Taken Known := by
  obtain ⟨draft, within, decoded⟩ := takes
  obtain ⟨_, _, taken⟩ := bind_eq_ok.mp decoded
  split at taken
  · rename_i story found
    obtain rfl := Except.ok.inj taken
    exact ⟨Story.taken_of_takes ⟨draft, within, found⟩, (fun _ none => by cases none), (fun _ none => by cases none)⟩
  · exact Document.taken_of_decodeFull (Nat.le_refl _) within (mapError_eq_ok.mp taken)

end BranchingStory
