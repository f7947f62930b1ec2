import BranchingStory.Proofs.Json.Short
import BranchingStory.Proofs.Story.Sound

/-!
Stories that are written and read again. Whatever spelling a document was read from, it is written as a structure of
structures that names only what is there, and that is read as the same document.
-/

namespace BranchingStory

open Json (Decoder Draft Fault Key deepest keyOf)

/-! ## Structures of which parts are there -/

namespace Json

theorem mem_present {given : List (String × Option Json)} (name : String) (value : Json)
    (there : (name, some value) ∈ given) :
    (name, value) ∈ given.filterMap fun (name, value) => value.map fun value => (name, value) :=
  List.mem_filterMap.mpr ⟨_, there, rfl⟩

namespace Decoder

variable {ρ : Type} {names : List String} {field : ρ → String → Draft → Except Fault ρ}

def part (field : ρ → String → Draft → Except Fault ρ) (record : ρ) (given : String × Option Json) : Except Fault ρ :=
  match given.2 with
  | some value => field record given.1 value.redraft
  | none => .ok record

theorem fields_present {given : List (String × Option Json)} {seen : List String} {start : ρ}
    (known : ∀ name ∈ given.map (·.1), name ∈ names) (fresh : ∀ name ∈ given.map (·.1), name ∉ seen)
    (distinct : (given.map (·.1)).Nodup) :
    fields names field
        (redraftMembers (given.filterMap fun (name, value) => value.map fun value => (name, value))) seen start =
      given.foldlM (part field) start := by
  induction given generalizing seen start with
  | nil => rfl
  | cons first rest ih =>
      obtain ⟨name, value⟩ := first
      obtain ⟨apart, others⟩ := List.nodup_cons.mp distinct
      have later : ∀ other ∈ rest.map (·.1), other ∈ names := fun other listed =>
        known other (List.mem_cons_of_mem _ listed)
      cases value with
      | none => exact ih later (fun other listed => fresh other (List.mem_cons_of_mem _ listed)) others
      | some value =>
          have here : name ∈ names := known name List.mem_cons_self
          have unseen : name ∉ seen := fresh name List.mem_cons_self
          have onward : ∀ other ∈ rest.map (·.1), other ∉ name :: seen := by
            intro other listed
            rw [List.mem_cons, not_or]
            exact ⟨fun same => apart (same ▸ listed), fresh other (List.mem_cons_of_mem _ listed)⟩
          have taken : textKey (keyOf name) = .ok name := rfl
          simp only [List.filterMap_cons, Option.map_some, redraftMembers, fields, taken, ok_bind, if_pos here,
            if_neg unseen, List.foldlM_cons, part]
          congr 1
          funext record
          exact ih later onward others

theorem record_present {given : List (String × Option Json)} {start result : ρ} (named : given.map (·.1) = names)
    (distinct : names.Nodup) (taken : given.foldlM (part field) start = .ok result) :
    record names field start (Json.present given).redraft = .ok result := by
  have known : ∀ name ∈ given.map (·.1), name ∈ names := fun name listed => named ▸ listed
  rw [present, redraft, record, fields_present known (fun _ _ => List.not_mem_nil) (named ▸ distinct), taken]
  rfl

theorem taken_optional {γ : Type} {decode : Decoder γ} {levels : Nat} {name : String} {given : Option γ}
    {rest : List (String × Option Json)} {start result : ρ} (encode : γ → Json) (change : Option γ → ρ)
    (takes : ∀ draft, field start name draft = do return change (← optional decode levels draft))
    (absent : change none = start) (there : ∀ value, (encode value).redraft ≠ .null)
    (reads : ∀ value, given = some value → decode levels (encode value).redraft = .ok value)
    (later : rest.foldlM (part field) (change given) = .ok result) :
    ((name, given.map encode) :: rest).foldlM (part field) start = .ok result := by
  refine bind_eq_ok.mpr ⟨change given, ?_, later⟩
  cases given with
  | none => exact congrArg Except.ok absent.symm
  | some value =>
      change field start name (encode value).redraft = _
      rw [takes, optional_of_ne_null (there value), reads value rfl]
      rfl

theorem taken_text {levels : Nat} {name : String} {given : Option String} {rest : List (String × Option Json)}
    {start result : ρ} (change : Option String → ρ)
    (takes : ∀ draft, field start name draft = do return change (← optional text levels draft))
    (absent : change none = start) (later : rest.foldlM (part field) (change given) = .ok result) :
    ((name, given.map .string) :: rest).foldlM (part field) start = .ok result :=
  taken_optional .string change takes absent (fun _ => nofun) (fun _ _ => rfl) later

end Decoder
end Json

/-! ## Parts of entries -/

/-- The effects of a choice name each variable once. -/
def Choice.Proper (choice : Choice) : Prop := ∀ effects ∈ choice.effects, (Json.object effects.members).Proper

theorem Effects.decode_redraft {levels : Nat} {effects : Effects} (returns : effects.encode.Returns levels)
    (proper : (Json.object effects.members).Proper) : Effects.decode levels effects.encode.redraft = .ok effects :=
  map_eq_ok.mpr ⟨effects.members, returns.members_redraft proper, rfl⟩

theorem Choice.decode_redraft {levels : Nat} {choice : Choice} (returns : choice.encode.Returns levels)
    (proper : choice.Proper) : Choice.decode levels choice.encode.redraft = .ok choice := by
  obtain ⟨below, rfl, inside⟩ := returns.members
  obtain ⟨text, effects, toast⟩ := choice
  have affected : ∀ given, effects = some given → Effects.decode below given.encode.redraft = .ok given := by
    rintro given rfl
    have part := inside _ (Json.mem_present "effects" given.encode (by simp))
    exact Effects.decode_redraft part (proper given rfl)
  refine bind_eq_ok.mpr ⟨(some text, ⟨"", effects, toast⟩), ?_, rfl⟩
  refine Decoder.record_present rfl (by decide) ?_
  refine bind_eq_ok.mpr ⟨(some text, ⟨"", none, none⟩), rfl, ?_⟩
  refine Decoder.taken_optional Effects.encode (fun effects => (some text, ⟨"", effects, none⟩)) (fun _ => rfl) rfl
    (fun _ => nofun) affected ?_
  exact Decoder.taken_text (fun toast => (some text, ⟨"", effects, toast⟩)) (fun _ => rfl) rfl rfl

theorem Unlocks.decode_redraft {levels : Nat} {unlocks : Unlocks} (returns : unlocks.encode.Returns levels)
    (proper : ∀ category ∈ unlocks.entries, (Json.object category.2).Proper) :
    Unlocks.decode levels unlocks.encode.redraft = .ok unlocks := by
  obtain ⟨below, rfl, inside⟩ := returns.members
  have categories : ∀ category ∈ unlocks.entries,
      Decoder.members below (Json.object category.2).redraft = .ok category.2 := fun category listed =>
    (inside _ (List.mem_map_of_mem listed)).members_redraft (proper category listed)
  have read := Decoder.catalog_redraft Json.object (fun ids => ids) categories
  rw [List.map_id', Catalog.ofList_entries] at read
  exact read

/-! ## Entries -/

def Entry.parts (entry : Entry) : List (String × Option Json) :=
  [("character", entry.character.map .string),
   ("state", entry.state.map .string),
   ("outfit", entry.outfit.map .string),
   ("position", entry.position.map fun position => .string position.word),
   ("background", entry.background.map .string),
   ("dialogue", entry.dialogue.map .string),
   ("sfx", entry.sfx.map .string),
   ("vfx", entry.vfx.map .string),
   ("responses", entry.responses.map fun choices => .array (choices.map Choice.encode)),
   ("branch", entry.branch.map Branch.encode),
   ("unlocks", entry.unlocks.map Unlocks.encode)]

theorem Entry.encode_eq (entry : Entry) : entry.encode = .present entry.parts := by
  obtain ⟨_, _, _, _, _, _, _, _, _, branch, _⟩ := entry
  rw [Entry.encode.eq_def]
  cases branch <;> rfl

theorem encodeStory_eq_map (story : List Entry) : encodeStory story = story.map Entry.encode := by
  induction story with
  | nil => simp only [encodeStory, List.map_nil]
  | cons first rest ih => rw [encodeStory, ih, List.map_cons]

theorem Branch.encode_eq (branch : Branch) : branch.encode =
    .present [("condition", some (.string branch.condition)),
      ("story", some (.array (branch.story.map Entry.encode)))] := by
  obtain ⟨condition, story⟩ := branch
  rw [Branch.encode, encodeStory_eq_map]
  rfl

structure Entry.Proper (entry : Entry) : Prop where
  choices : ∀ choice ∈ entry.choices, choice.Proper
  unlocked : ∀ category ∈ entry.unlocked.entries, (Json.object category.2).Proper

def Story.Proper (story : Story) : Prop := ∀ entry : Entry, entry.LiesIn story → entry.Proper

theorem Story.Proper.branch {story : Story} {entry : Entry} {branch : Branch} (proper : story.Proper)
    (listed : entry ∈ story) (led : entry.branch = some branch) : Story.Proper branch.story :=
  fun inner lies => proper inner (.inside listed led lies)

mutual

theorem Entry.decode_redraft : ∀ {levels : Nat} {story : Story} {entry : Entry}, story.Proper → entry ∈ story →
    entry.encode.Returns levels → Entry.decode levels entry.encode.redraft = .ok entry
  | 0, _, entry, _, _, returns => by
      rw [Entry.encode_eq] at returns
      obtain ⟨below, impossible, _⟩ := returns.members
      cases impossible
  | levels + 1, story, entry, proper, listed, returns => by
      rw [Entry.encode_eq] at returns ⊢
      obtain ⟨below, same, inside⟩ := returns.members
      obtain rfl := Nat.succ.inj same
      have known := proper _ (.here listed)
      have led : ∀ branch, entry.branch = some branch → Story.Proper branch.story := fun _ => proper.branch listed
      obtain ⟨character, state, outfit, position, background, dialogue, sfx, vfx, responses, branch, unlocks⟩ := entry
      simp only at led
      have offered : ∀ choices, responses = some choices →
          Decoder.list Choice.decode levels (Json.array (choices.map Choice.encode)).redraft = .ok choices := by
        rintro choices rfl
        have part := inside _ (Json.mem_present "responses" (.array (choices.map Choice.encode))
          (by simp [Entry.parts]))
        obtain ⟨further, rfl, items⟩ := part.items
        exact Decoder.list_redraft _ fun choice member =>
          Choice.decode_redraft (items _ (List.mem_map_of_mem member)) (known.choices _ member)
      have entered : ∀ given, branch = some given → Branch.decode levels given.encode.redraft = .ok given := by
        rintro given rfl
        have part := inside _ (Json.mem_present "branch" given.encode (by simp [Entry.parts]))
        exact Branch.decode_redraft (led given rfl) part
      have unlocked : ∀ given, unlocks = some given → Unlocks.decode levels given.encode.redraft = .ok given := by
        rintro given rfl
        have part := inside _ (Json.mem_present "unlocks" given.encode (by simp [Entry.parts]))
        exact Unlocks.decode_redraft part known.unlocked
      have placed : ∀ given, position = some given →
          Position.decode levels (Json.string given.word).redraft = .ok given := fun given _ =>
        congrArg Except.ok (Position.ofWord_word given)
      rw [Entry.decode]
      refine Decoder.record_present rfl (by decide) ?_
      refine Decoder.taken_text (fun character => { Entry.blank with character }) (fun _ => rfl) rfl ?_
      refine Decoder.taken_text (fun state => { Entry.blank with character, state }) (fun _ => rfl) rfl ?_
      refine Decoder.taken_text (fun outfit => { Entry.blank with character, state, outfit }) (fun _ => rfl) rfl ?_
      refine Decoder.taken_optional (fun position : Position => .string position.word)
        (fun position => { Entry.blank with character, state, outfit, position }) (fun _ => rfl) rfl (fun _ => nofun)
        placed ?_
      refine Decoder.taken_text (fun background => { Entry.blank with character, state, outfit, position, background })
        (fun _ => rfl) rfl ?_
      refine Decoder.taken_text (fun dialogue =>
        { Entry.blank with character, state, outfit, position, background, dialogue }) (fun _ => rfl) rfl ?_
      refine Decoder.taken_text (fun sfx =>
        { Entry.blank with character, state, outfit, position, background, dialogue, sfx }) (fun _ => rfl) rfl ?_
      refine Decoder.taken_text (fun vfx =>
        { Entry.blank with character, state, outfit, position, background, dialogue, sfx, vfx }) (fun _ => rfl) rfl ?_
      refine Decoder.taken_optional (fun choices : List Choice => .array (choices.map Choice.encode)) (fun responses =>
        ⟨character, state, outfit, position, background, dialogue, sfx, vfx, responses, none, none⟩) (fun _ => rfl) rfl
        (fun _ => nofun) offered ?_
      refine bind_eq_ok.mpr
        ⟨⟨character, state, outfit, position, background, dialogue, sfx, vfx, responses, branch, none⟩, ?_, ?_⟩
      · cases branch with
        | none => rfl
        | some given =>
            have there := entered given rfl
            rw [Branch.encode_eq, Json.present, Json.redraft] at there
            simp only [Decoder.part, Option.map_some, Branch.encode_eq, Json.present, Json.redraft, there]
            rfl
      · exact Decoder.taken_optional Unlocks.encode (fun unlocks =>
          ⟨character, state, outfit, position, background, dialogue, sfx, vfx, responses, branch, unlocks⟩)
          (fun _ => rfl) rfl (fun _ => nofun) unlocked rfl

theorem Branch.decode_redraft : ∀ {levels : Nat} {branch : Branch}, Story.Proper branch.story →
    branch.encode.Returns levels → Branch.decode levels branch.encode.redraft = .ok branch
  | 0, branch, _, returns => by
      rw [Branch.encode_eq] at returns
      obtain ⟨below, impossible, _⟩ := returns.members
      cases impossible
  | levels + 1, branch, proper, returns => by
      rw [Branch.encode_eq] at returns ⊢
      obtain ⟨below, same, inside⟩ := returns.members
      obtain rfl := Nat.succ.inj same
      have told := decodeStory_redraft proper (inside _ (Json.mem_present "story" _ (by simp)))
      obtain ⟨condition, story⟩ := branch
      rw [Branch.decode]
      refine bind_eq_ok.mpr ⟨(some condition, story), ?_, rfl⟩
      refine Decoder.record_present rfl (by decide) ?_
      refine bind_eq_ok.mpr ⟨(some condition, []), rfl, ?_⟩
      simp [Decoder.part, told]

theorem decodeStory_redraft : ∀ {levels : Nat} {story : Story}, story.Proper →
    (Json.array (story.map Entry.encode)).Returns levels →
      decodeStory levels (Json.array (story.map Entry.encode)).redraft = .ok story
  | 0, _, _, returns => by
      obtain ⟨below, impossible, _⟩ := returns.items
      cases impossible
  | levels + 1, story, proper, returns => by
      obtain ⟨below, same, inside⟩ := returns.items
      obtain rfl := Nat.succ.inj same
      have each : ∀ entry ∈ story, Entry.decode levels entry.encode.redraft = .ok entry := fun entry listed =>
        Entry.decode_redraft proper listed (inside _ (List.mem_map_of_mem listed))
      have read : story.mapM (fun entry => Entry.decode levels entry.encode.redraft) = .ok (story.map id) :=
        mapM_of_forall each
      rw [List.map_id] at read
      rw [Json.redraft, Json.redraftItems_eq_map, decodeStory, List.map_map, List.mapM_map]
      exact bind_eq_ok.mpr ⟨story, read, rfl⟩

end

/-! ## Documents -/

structure Metadata.Proper (metadata : Metadata) : Prop where
  extra : (Json.object metadata.extra).Proper
  apart : "storyName" ∉ metadata.extra.map (·.1)

theorem Metadata.take_redraft {levels : Nat} {extra : Members} (seen : Bool)
    (read : ∀ member ∈ extra, member.2.redraft.read levels = .ok member.2) (apart : "storyName" ∉ extra.map (·.1)) :
    Metadata.decode.take levels seen (Json.redraftMembers extra) = .ok (none, extra) := by
  induction extra with
  | nil => rfl
  | cons first rest ih =>
      obtain ⟨name, value⟩ := first
      rw [List.map_cons, List.mem_cons, not_or] at apart
      have later := ih (fun member listed => read member (List.mem_cons_of_mem _ listed)) apart.2
      have here := read (name, value) List.mem_cons_self
      have named : Decoder.textKey (keyOf name) = .ok name := rfl
      simp only [Json.redraftMembers, Metadata.decode.take, named, ok_bind, if_neg (Ne.symm apart.1), here, later]
      rfl

theorem Metadata.decode_redraft {levels : Nat} {metadata : Metadata} (returns : metadata.encode.Returns levels)
    (proper : metadata.Proper) : Metadata.decode levels metadata.encode.redraft = .ok metadata := by
  obtain ⟨name, extra⟩ := metadata
  obtain ⟨⟨distinct, values⟩, apart⟩ := proper
  have single := Json.properMembers_iff.mp values
  cases name with
  | none =>
      obtain ⟨below, rfl, inside⟩ := returns.members
      have taken := Metadata.take_redraft false
        (fun member listed => (inside member listed).read_redraft (single member listed)) apart
      simp only [Metadata.encode, Json.redraft, Metadata.decode, taken, ok_bind, Members.ofList_of_nodup distinct]
      rfl
  | some name =>
      obtain ⟨below, rfl, inside⟩ := returns.members
      have taken := Metadata.take_redraft true
        (fun member listed => (inside member (List.mem_cons_of_mem _ listed)).read_redraft (single member listed)) apart
      have named : Metadata.decode.take below false (Json.redraftMembers (("storyName", .string name) :: extra)) =
          .ok (some name, extra) := by
        simp only [Json.redraftMembers, Metadata.decode.take, taken]
        rfl
      simp only [Metadata.encode, Json.redraft, Metadata.decode, named, ok_bind, Members.ofList_of_nodup distinct]
      rfl

/-- A document can be written if its parts can. -/
structure Document.Proper (document : Document) : Prop where
  metadata : ∀ metadata ∈ document.metadata, metadata.Proper
  constants : ∀ constants ∈ document.constants, (Json.object constants).Proper
  story : document.story.Proper

theorem Document.decode_redraft {levels : Nat} {document : Document} (returns : document.encode.Returns levels)
    (proper : document.Proper) : Document.decode levels document.encode.redraft = .ok document := by
  have read := Json.read_redraft returns.legible returns.shallow
  have object : decodeStory levels document.encode.redraft = .error .wrongShape := by
    cases levels <;> rfl
  have full : Document.decodeFull levels document.encode.redraft = .ok document := by
    obtain ⟨below, rfl, inside⟩ := returns.members
    obtain ⟨metadata, constants, story⟩ := document
    have told : decodeStory below (Json.array (encodeStory story)).redraft = .ok story := by
      have part := inside _ (Json.mem_present "story" (.array (encodeStory story)) (by simp))
      rw [encodeStory_eq_map] at part ⊢
      exact decodeStory_redraft proper.story part
    have described : ∀ given, metadata = some given → Metadata.decode below given.encode.redraft = .ok given := by
      rintro given rfl
      have part := inside _ (Json.mem_present "metadata" given.encode (by simp))
      exact Metadata.decode_redraft part (proper.metadata given rfl)
    have kept : ∀ given, constants = some given →
        Decoder.members below (Json.object given).redraft = .ok given := by
      rintro given rfl
      have part := inside _ (Json.mem_present "constants" (.object given) (by simp))
      exact part.members_redraft (proper.constants given rfl)
    have there : ∀ metadata : Metadata, metadata.encode.redraft ≠ .null := by
      rintro ⟨_ | name, extra⟩ <;> exact nofun
    refine Decoder.record_present rfl (by decide) ?_
    refine Decoder.taken_optional Metadata.encode (fun metadata => { metadata }) (fun _ => rfl) rfl there described ?_
    refine Decoder.taken_optional Json.object (fun constants => { metadata, constants }) (fun _ => rfl) rfl
      (fun _ => nofun) kept ?_
    exact bind_eq_ok.mpr ⟨⟨metadata, constants, story⟩, bind_eq_ok.mpr ⟨story, told, rfl⟩, rfl⟩
  simp only [Document.decode, read, ok_bind, object, full]
  rfl

/-! ## Documents that were read -/

section

variable {Known : Number → Prop} {levels : Nat}

theorem Entry.Taken.choice {entry : Entry} {choice : Choice} (taken : entry.Taken Known levels)
    (listed : choice ∈ entry.choices) : ∃ below, Decoder.Takes Known Choice.decode below choice := by
  cases given : entry.responses with
  | none =>
      rw [Entry.choices, given] at listed
      exact absurd listed List.not_mem_nil
  | some choices =>
      rw [Entry.choices, given] at listed
      obtain ⟨below, -, takes⟩ := (taken.responses choices given).list listed
      exact ⟨below, takes⟩

theorem Entry.Taken.proper {entry : Entry} (taken : entry.Taken Number.Finite levels) : entry.Proper where
  choices choice listed effects there := by
    obtain ⟨_, takes⟩ := taken.choice listed
    obtain ⟨_, members⟩ := Choice.effects_of_takes takes effects there
    exact members.fromText.proper
  unlocked category listed := (taken.fromText category listed).proper

theorem Metadata.Taken.proper {metadata : Metadata} (taken : metadata.Taken Number.Finite levels) :
    metadata.Proper where
  extra := by
    refine ⟨taken.distinct, Json.properMembers_iff.mpr fun member listed => ?_⟩
    obtain ⟨-, draft, finite, read⟩ := taken.extra member listed
    exact (finite.fromText read).proper
  apart := by
    intro named
    obtain ⟨member, listed, same⟩ := List.mem_map.mp named
    exact (taken.extra member listed).1 same

theorem Document.Taken.proper {document : Document} (taken : document.Taken Number.Finite) : document.Proper where
  metadata metadata there := by
    obtain ⟨_, known⟩ := taken.metadata metadata there
    exact known.proper
  constants constants there := by
    obtain ⟨_, takes⟩ := taken.constants constants there
    exact takes.fromText.proper
  story entry lies := by
    obtain ⟨_, _, known⟩ := lies.taken taken.story
    exact known.proper

/-! ### Their numbers -/

def Json.Within (Known : Number → Prop) (value : Json) : Prop := ∀ number ∈ value.numbers, Known number

theorem Json.within_items {items : List Json} :
    (Json.array items).Within Known ↔ ∀ item ∈ items, item.Within Known := by
  constructor
  · exact fun within item listed number held => within number (Json.mem_numbersOfItems.mpr ⟨item, listed, held⟩)
  · intro within number held
    obtain ⟨item, listed, inside⟩ := Json.mem_numbersOfItems.mp held
    exact within item listed number inside

theorem Json.within_members {members : Members} :
    (Json.object members).Within Known ↔ ∀ member ∈ members, member.2.Within Known := by
  constructor
  · exact fun within member listed number held => within number (Json.mem_numbersOfMembers.mpr ⟨member, listed, held⟩)
  · intro within number held
    obtain ⟨member, listed, inside⟩ := Json.mem_numbersOfMembers.mp held
    exact within member listed number inside

theorem Json.within_present {given : List (String × Option Json)}
    (within : ∀ part ∈ given, ∀ value ∈ part.2, value.Within Known) : (Json.present given).Within Known := by
  refine Json.within_members.mpr fun member listed => ?_
  obtain ⟨part, part_listed, there⟩ := List.mem_filterMap.mp listed
  obtain ⟨value, given, rfl⟩ := Option.map_eq_some_iff.mp there
  exact within part part_listed value given

theorem Json.within_text (text : Option String) : ∀ value ∈ text.map Json.string, value.Within Known := by
  intro value there
  obtain ⟨_, -, rfl⟩ := Option.map_eq_some_iff.mp there
  exact fun _ held => absurd held List.not_mem_nil

theorem Choice.within_encode {choice : Choice} (takes : Decoder.Takes Known Choice.decode levels choice) :
    choice.encode.Within Known := by
  refine Json.within_present ?_
  simp only [List.forall_mem_cons]
  refine ⟨Json.within_text (some choice.text), fun value there => ?_, Json.within_text choice.toast, by simp⟩
  obtain ⟨effects, given, rfl⟩ := Option.map_eq_some_iff.mp there
  obtain ⟨_, members⟩ := Choice.effects_of_takes takes effects given
  exact members.numbers

theorem Unlocks.within_encode {unlocks : Unlocks} (takes : Decoder.Takes Known Unlocks.decode levels unlocks) :
    unlocks.encode.Within Known := by
  refine Json.within_members.mpr fun member listed => ?_
  obtain ⟨category, category_listed, rfl⟩ := List.mem_map.mp listed
  obtain ⟨_, -, members⟩ := Decoder.Takes.catalog takes category_listed
  exact members.numbers

theorem Entry.within_encode {entry : Entry} (takes : Decoder.Takes Known Entry.decode levels entry) :
    entry.encode.Within Known := by
  induction levels using Nat.strong_induction_on generalizing entry with
  | _ levels deeper =>
      obtain ⟨below, rfl, taken⟩ := Entry.taken_of_takes takes
      rw [Entry.encode_eq]
      refine Json.within_present ?_
      have placed : ∀ value ∈ entry.position.map fun position => Json.string position.word, value.Within Known := by
        intro value there
        obtain ⟨_, -, rfl⟩ := Option.map_eq_some_iff.mp there
        exact fun _ held => absurd held List.not_mem_nil
      have offered : ∀ value ∈ entry.responses.map fun choices => Json.array (choices.map Choice.encode),
          value.Within Known := by
        intro value there
        obtain ⟨choices, given, rfl⟩ := Option.map_eq_some_iff.mp there
        refine Json.within_items.mpr (List.forall_mem_map.mpr fun choice listed => ?_)
        obtain ⟨_, -, choice_takes⟩ := (taken.responses choices given).list listed
        exact Choice.within_encode choice_takes
      have entered : ∀ value ∈ entry.branch.map Branch.encode, value.Within Known := by
        intro value there
        obtain ⟨branch, given, rfl⟩ := Option.map_eq_some_iff.mp there
        rw [Branch.encode_eq]
        refine Json.within_present ?_
        simp only [List.forall_mem_cons]
        refine ⟨Json.within_text (some branch.condition), fun value there => ?_, by simp⟩
        obtain rfl := Option.some.inj there
        refine Json.within_items.mpr (List.forall_mem_map.mpr fun inner listed => ?_)
        obtain ⟨inside, less, inner_takes⟩ := Branch.taken_of_takes (taken.branch branch given) inner listed
        exact deeper inside (by omega) inner_takes
      have unlocked : ∀ value ∈ entry.unlocks.map Unlocks.encode, value.Within Known := by
        intro value there
        obtain ⟨unlocks, given, rfl⟩ := Option.map_eq_some_iff.mp there
        exact Unlocks.within_encode (taken.unlocks unlocks given)
      simp only [Entry.parts, List.forall_mem_cons]
      exact ⟨Json.within_text _, Json.within_text _, Json.within_text _, placed, Json.within_text _,
        Json.within_text _, Json.within_text _, Json.within_text _, offered, entered, unlocked, List.forall_mem_nil _⟩

theorem Metadata.within_encode {metadata : Metadata} (taken : metadata.Taken Known levels) :
    metadata.encode.Within Known := by
  have extra : ∀ member ∈ metadata.extra, member.2.Within Known := by
    intro member listed number held
    obtain ⟨-, draft, within, read⟩ := taken.extra member listed
    exact within number (Draft.mem_numbers_of_read read held)
  rw [Metadata.encode]
  split
  · exact Json.within_members.mpr (List.forall_mem_cons.mpr ⟨fun _ held => absurd held List.not_mem_nil, extra⟩)
  · exact Json.within_members.mpr extra

theorem Document.within_encode {document : Document} (taken : document.Taken Known) :
    document.encode.Within Known := by
  refine Json.within_present ?_
  have described : ∀ value ∈ document.metadata.map Metadata.encode, value.Within Known := by
    intro value there
    obtain ⟨metadata, given, rfl⟩ := Option.map_eq_some_iff.mp there
    obtain ⟨_, known⟩ := taken.metadata metadata given
    exact Metadata.within_encode known
  have kept : ∀ value ∈ document.constants.map Json.object, value.Within Known := by
    intro value there
    obtain ⟨constants, given, rfl⟩ := Option.map_eq_some_iff.mp there
    obtain ⟨_, takes⟩ := taken.constants constants given
    exact takes.numbers
  have told : (Json.array (encodeStory document.story)).Within Known := by
    rw [encodeStory_eq_map]
    refine Json.within_items.mpr (List.forall_mem_map.mpr fun entry listed => ?_)
    obtain ⟨_, -, takes⟩ := taken.story entry listed
    exact Entry.within_encode takes
  simp only [List.forall_mem_cons]
  refine ⟨described, kept, fun value there => ?_, List.forall_mem_nil _⟩
  obtain rfl := Option.some.inj there
  exact told

end

/-- A document that is written is read as what it was, in whatever form it was read at first. -/
theorem document_reads_back {bytes : List UInt8} {document : Document} (read : Document.ofBytes bytes = .ok document)
    (plain : ∀ number ∈ Json.writtenNumbers bytes, number.Plain) (shallow : document.encode.depth ≤ 127) :
    Document.ofBytes document.encode.compact.toUTF8.toList = .ok document := by
  have within : document.encode.Within Number.Plain :=
    Document.within_encode (Document.taken_of_takes (Json.takes_of_decodeCharacters plain read))
  have proper : document.Proper :=
    (Document.taken_of_takes (Json.takes_of_decodeBytes read)).proper
  have returns : document.encode.Returns deepest := ⟨fun number held => (within number held).lossless, shallow⟩
  exact (Json.decodeBytes_compact returns.legible).mpr (Document.decode_redraft returns proper)

theorem positional_document_reads_back :
    let text := "[\x7b\"storyName\":\"Fair\",\"year\":2024\x7d,null," ++
        "[[\"Alice\",null,null,\"left\",null,\"Hi!\",null,null,[[\"Wave\",\x7b\"Alice\":1\x7d]]," ++
        "\x7b\"condition\":\"true\",\"story\":[\x7b\"unlocks\":\x7b\"cg\":\x7b\"first\":-7\x7d\x7d,\"branch\":null\x7d]\x7d]]]"
    let bytes := text.toUTF8.toList
    (∀ number ∈ Json.writtenNumbers bytes, number.Plain) ∧
      ∃ document, Document.ofBytes bytes = .ok document ∧ document.encode.depth ≤ 127 ∧
        Document.ofBytes document.encode.compact.toUTF8.toList = .ok document := by
  intro text bytes
  have plain : ∀ number ∈ Json.writtenNumbers bytes, number.Plain := by decide +kernel
  have accepted : ∃ document ∈ (Document.ofBytes bytes).toOption, document.encode.depth ≤ 127 := by decide +kernel
  obtain ⟨document, there, shallow⟩ := accepted
  have read := toOption_eq_some.mp there
  exact ⟨plain, document, read, shallow, document_reads_back read plain shallow⟩

end BranchingStory
