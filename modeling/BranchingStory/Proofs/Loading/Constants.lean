import BranchingStory.Proofs.Loading.Affection
import BranchingStory.Proofs.Loading.Course
import BranchingStory.Proofs.Loading.Finite

/-!
Which document the variables come from at the start of a playthrough. In a scene the shared constants come before
those of the story. In texting those of the story come first, and the shared ones are found together under one name.
The colors of the characters follow from that.
-/

namespace BranchingStory

/-! ## Colors -/

def colorAmong? : Option Json → String → Option String
  | some (.object colors), name =>
      match Members.get? colors name with
      | some (.string color) => some color
      | _ => none
  | _, _ => none

theorem colorAmong?_eq (colors : Option Json) (name : String) :
    colorAmong? colors name = (colors.bind (·.member? name)).bind Json.string? := by
  cases colors with
  | none => rfl
  | some value =>
      cases value with
      | object colors =>
          rw [colorAmong?]
          change _ = (Members.get? colors name).bind Json.string?
          cases Members.get? colors name with
          | none => rfl
          | some color => cases color <;> rfl
      | _ => rfl

theorem Variables.speakerColor?_eq (scope : Variables) (name : String) :
    scope.speakerColor? name = (colorAmong? (scope.get? "defaultColors") name).or
      (colorAmong? ((scope.get? "constants").bind (·.member? "defaultColors")) name) := by
  rw [colorAmong?_eq, colorAmong?_eq]
  rfl

namespace Loading

/-! ## Constants of a document -/

namespace LoadedStory

/-- No document gives a constant twice. So it is with every story that is loaded (`namesOnce_of_load`). -/
structure NamesOnce (story : LoadedStory) : Prop where
  own : ∀ own, story.document.constants = some own → (own.map (·.1)).Nodup
  shared : ∀ shared, story.shared = some shared → (shared.map (·.1)).Nodup

def ownConstant? (story : LoadedStory) (name : String) : Option Json :=
  story.document.constants.bind fun own => own.get? name

def sharedConstant? (story : LoadedStory) (name : String) : Option Json :=
  story.shared.bind fun shared => shared.get? name

def bundled? (story : LoadedStory) (name : String) : Option Json :=
  if name = "constants" then story.shared.map .object else none

variable {story : LoadedStory}

theorem Parsed.namesOnce (parsed : story.Parsed) : story.NamesOnce where
  own own given := by
    obtain ⟨levels, takes⟩ := parsed.taken.constants own given
    exact takes.fromText.proper.1
  shared shared given := by
    obtain ⟨path, bytes, read⟩ := parsed.shared shared given
    exact (fromText_constants read).proper.1

section

variable {σ : Type} {fetch : Fetch (StateM σ)} {state : σ} {directories : Directories} {kind : StoryKind} {name : String}

theorem kind_of_load (loaded : ((load fetch directories kind name).run state).1 = .ok story) : story.kind = kind := by
  have ends := load_ends fetch state directories kind name
  rw [loaded] at ends
  exact ends.of_ok.1

theorem parsed_of_load (loaded : ((load fetch directories kind name).run state).1 = .ok story) : story.Parsed := by
  have ends := load_ends fetch state directories kind name
  rw [loaded] at ends
  obtain ⟨-, document, shared⟩ := ends.of_ok
  constructor
  · obtain ⟨bytes, -, read⟩ := Option.bind_eq_some_iff.mp document
    exact ⟨bytes, toOption_eq_some.mp read⟩
  · intro members given
    obtain ⟨path, -, told⟩ := Option.bind_eq_some_iff.mp ((shared members).mp given).2
    obtain ⟨bytes, -, read⟩ := Option.bind_eq_some_iff.mp told
    refine ⟨path, bytes, ?_⟩
    rw [constantsOfBytes, toOption_eq_some.mp read]

theorem namesOnce_of_load (loaded : ((load fetch directories kind name).run state).1 = .ok story) : story.NamesOnce :=
  (parsed_of_load loaded).namesOnce

end

theorem get?_ownConstants (story : LoadedStory) (name : String) :
    Members.get? (story.document.constants.getD []) name = story.ownConstant? name := by
  rw [ownConstant?]
  cases story.document.constants <;> rfl

theorem get?_sharedConstants (story : LoadedStory) (name : String) :
    Members.get? (story.shared.getD []) name = story.sharedConstant? name := by
  rw [sharedConstant?]
  cases story.shared <;> rfl

theorem NamesOnce.nodup_own (once : story.NamesOnce) : ((story.document.constants.getD []).map (·.1)).Nodup := by
  cases given : story.document.constants with
  | none => exact List.nodup_nil
  | some own => exact once.own own given

theorem NamesOnce.nodup_shared (once : story.NamesOnce) : ((story.shared.getD []).map (·.1)).Nodup := by
  cases given : story.shared with
  | none => exact List.nodup_nil
  | some shared => exact once.shared shared given

end LoadedStory

/-! ## Values at the start -/

def seeded? (levels : Affection) (name : String) : Option Json :=
  if name = affectionName then some (.object (startingLevels levels)) else none

theorem get?_withAffection (levels : Affection) (name : String) :
    (Variables.withAffection levels).get? name = seeded? levels name := by
  rw [Variables.get?, Variables.withAffection, Members.get?_cons, seeded?]
  rfl

namespace LoadedStory

variable {story : LoadedStory} {levels : Affection} {name : String}

theorem NamesOnce.get?_of_event (once : story.NamesOnce) (kind : story.kind = .event) :
    (story.variables levels).get? name =
      ((story.sharedConstant? name).or (story.ownConstant? name)).or (seeded? levels name) := by
  have merged : (story.variables levels).bindings =
      Members.merge (Members.merge (Variables.withAffection levels).bindings (story.document.constants.getD []))
        (story.shared.getD []) := by
    rw [LoadedStory.variables, kind]
    rfl
  rw [Variables.get?, merged, Members.get?_merge once.nodup_shared, Members.get?_merge once.nodup_own,
    get?_sharedConstants, get?_ownConstants, ← get?_withAffection, Option.or_assoc]
  rfl

theorem NamesOnce.get?_mergeInto (once : story.NamesOnce) {shared : Members} (given : story.shared = some shared) :
    ((Variables.withAffection levels).mergeInto "constants" shared).get? name =
      (story.bundled? name).or (seeded? levels name) := by
  have vacant : (Variables.withAffection levels).get? "constants" = none := by
    rw [get?_withAffection, seeded?, if_neg (by decide)]
  have whole : Members.merge [] shared = shared := Members.ofList_of_nodup (once.shared shared given)
  rw [Variables.mergeInto, vacant, whole, bundled?, given]
  by_cases here : name = "constants"
  · rw [if_pos here, here]
    exact Members.get?_set_self
  · rw [if_neg here, ← get?_withAffection]
    exact Members.get?_set_of_ne here

theorem NamesOnce.get?_of_texting (once : story.NamesOnce) (kind : story.kind = .texting) :
    (story.variables levels).get? name =
      ((story.ownConstant? name).or (story.bundled? name)).or (seeded? levels name) := by
  have below : ∃ scope : Variables, (story.variables levels).bindings =
      Members.merge scope.bindings (story.document.constants.getD []) ∧
        scope.get? name = (story.bundled? name).or (seeded? levels name) := by
    rw [LoadedStory.variables, kind]
    cases given : story.shared with
    | none =>
        refine ⟨Variables.withAffection levels, rfl, ?_⟩
        rw [get?_withAffection, bundled?, given]
        split <;> rfl
    | some shared => exact ⟨_, rfl, once.get?_mergeInto given⟩
  obtain ⟨scope, merged, found⟩ := below
  rw [Variables.get?, merged, Members.get?_merge once.nodup_own, get?_ownConstants, Option.or_assoc, ← found]
  rfl

end LoadedStory

/-- Each variable at the start has the value of one document, or holds the saved levels. In a scene shared constants
come first, in texting those of the story. So do the colors, as long as a story in texting has no constants of its own
under the name that the shared ones have. -/
theorem constants_take_precedence (story : LoadedStory) (once : story.NamesOnce) (levels : Affection) :
    let scope := story.variables levels
    let own := story.ownConstant?
    let shared := story.sharedConstant?
    (story.kind = .event →
      (∀ name, scope.get? name = ((shared name).or (own name)).or (seeded? levels name)) ∧
        ∀ character,
          let merged := fun name => (shared name).or (own name)
          scope.speakerColor? character = (colorAmong? (merged "defaultColors") character).or
            (colorAmong? ((merged "constants").bind (·.member? "defaultColors")) character)) ∧
      (story.kind = .texting →
        (∀ name, scope.get? name = ((own name).or (story.bundled? name)).or (seeded? levels name)) ∧
          (own "constants" = none → ∀ character,
            scope.speakerColor? character = (colorAmong? (own "defaultColors") character).or
              (colorAmong? (shared "defaultColors") character))) := by
  intro scope own shared
  have unseeded : ∀ name, name ≠ affectionName → seeded? levels name = none := fun name differs => if_neg differs
  refine ⟨fun kind => ⟨fun name => once.get?_of_event kind, fun character => ?_⟩,
    fun kind => ⟨fun name => once.get?_of_texting kind, fun vacant character => ?_⟩⟩
  · rw [Variables.speakerColor?_eq, once.get?_of_event kind, once.get?_of_event kind, unseeded _ (by decide),
      unseeded _ (by decide), Option.or_none, Option.or_none]
  · have top : scope.get? "defaultColors" = own "defaultColors" := by
      rw [once.get?_of_texting kind, unseeded _ (by decide), Option.or_none, LoadedStory.bundled?, if_neg (by decide),
        Option.or_none]
    have inside : (scope.get? "constants").bind (·.member? "defaultColors") = shared "defaultColors" := by
      rw [once.get?_of_texting kind, unseeded _ (by decide), Option.or_none]
      change ((own "constants").or _).bind _ = _
      rw [vacant, Option.none_or, LoadedStory.bundled?, if_pos rfl]
      change _ = story.shared.bind _
      cases story.shared <;> rfl
    rw [Variables.speakerColor?_eq, top, inside]

theorem date_has_one_color_each :
    let document : Json :=
      .object [("constants", .object
        [("paths", .object [("predefinedConstants", .string "shared")]),
          ("defaultColors", .object [("Alice", .string "#f0a")])])]
    let shared : Json := .object [("defaultColors", .object [("Alice", .string "#fff"), ("Bea", .string "#0af")])]
    let fetch : Fetch (StateM Unit) := fun path =>
      pure (.ok (if path = "shared" then shared else document).compact.toUTF8.toList)
    let loaded (kind : StoryKind) : Except Error LoadedStory := ((load fetch {} kind "date").run ()).1
    (∃ story, loaded .event = .ok story ∧ story.NamesOnce ∧
        (story.variables .empty).speakerColor? "Alice" = some "#fff") ∧
      ∃ story, loaded .texting = .ok story ∧ story.NamesOnce ∧ story.ownConstant? "constants" = none ∧
        (story.variables .empty).speakerColor? "Alice" = some "#f0a" ∧
          (story.variables .empty).speakerColor? "Bea" = some "#0af" := by
  intro document shared fetch loaded
  have found (kind : StoryKind) (whole : (loaded kind).isOk = true) :
      ∃ story, loaded kind = .ok story ∧ story.kind = kind ∧ story.NamesOnce := by
    cases read : loaded kind with
    | error cause => simp [read, Except.isOk, Except.toBool] at whole
    | ok story => exact ⟨story, rfl, LoadedStory.kind_of_load read, LoadedStory.namesOnce_of_load read⟩
  obtain ⟨scene, scene_read, scene_kind, scene_once⟩ := found .event (by decide +kernel)
  obtain ⟨messages, messages_read, messages_kind, messages_once⟩ := found .texting (by decide +kernel)
  have merged : ((loaded .event).toOption.bind fun story =>
      colorAmong? ((story.sharedConstant? "defaultColors").or (story.ownConstant? "defaultColors")) "Alice") =
        some "#fff" := by decide +kernel
  have apart : ((loaded .texting).toOption.map fun story =>
      ((story.ownConstant? "constants").isNone, colorAmong? (story.ownConstant? "defaultColors") "Alice",
        colorAmong? (story.ownConstant? "defaultColors") "Bea",
        colorAmong? (story.sharedConstant? "defaultColors") "Bea")) =
      some (true, some "#f0a", none, some "#0af") := by decide +kernel
  rw [scene_read] at merged
  rw [messages_read] at apart
  simp only [Except.toOption, Option.bind_some, Option.map_some, Option.some.injEq, Prod.mk.injEq,
    Option.isNone_iff_eq_none] at merged apart
  obtain ⟨vacant, alice, bea, shared_bea⟩ := apart
  refine ⟨⟨scene, scene_read, scene_once, ?_⟩, ⟨messages, messages_read, messages_once, vacant, ?_, ?_⟩⟩
  · rw [((constants_take_precedence scene scene_once .empty).1 scene_kind).2 "Alice", merged]
    rfl
  · rw [((constants_take_precedence messages messages_once .empty).2 messages_kind).2 vacant "Alice", alice]
    rfl
  · rw [((constants_take_precedence messages messages_once .empty).2 messages_kind).2 vacant "Bea", bea, shared_bea]
    rfl

end Loading
end BranchingStory
