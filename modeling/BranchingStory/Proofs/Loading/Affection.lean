import BranchingStory.Loading.Story
import BranchingStory.Proofs.Catalog.Lookup
import BranchingStory.Proofs.Decimal.Whole
import BranchingStory.Proofs.Json.Sameness
import BranchingStory.Proofs.Playback.Levels

/-!
How saved affection levels come into a playthrough and out of it. The constants of a story can stand in their
place; if they do not, each level is what it was, and the first change of a level leaves the others alone.
-/

namespace BranchingStory

/-! ## Levels as JSON -/

theorem levelJson_float? {level : Float} (finite : level.isFinite = true) :
    ∃ read, (levelJson level).float? = some read ∧ (read == level) = true := by
  have plain : ∃ read, (Json.ofFloat level).float? = some read ∧ (read == level) = true := by
    rw [Json.ofFloat, if_pos finite]
    exact ⟨level, rfl, beq_self_of_isFinite finite⟩
  rw [levelJson]
  cases found : wholeNumber? level with
  | none => exact plain
  | some whole =>
      by_cases fits : whole.natAbs < 9223372036854775808
      · simp only [if_pos fits]
        exact ⟨Float.ofInt whole, rfl, ofInt_beq_of_wholeNumber? found⟩
      · simp only [if_neg fits]
        exact plain

namespace Members

variable {members : Members} {name : String} {level : Float}

theorem mem_numeric :
    (name, level) ∈ members.numeric ↔ ∃ value, (name, value) ∈ members ∧ value.float? = some level := by
  simp [numeric]

theorem nodup_numeric (distinct : (members.map (·.1)).Nodup) :
    (members.numeric.map (·.1)).Nodup := by
  refine List.Sublist.nodup ?_ distinct
  induction members with
  | nil => exact .slnil
  | cons first rest ih =>
      have later := ih (List.nodup_cons.mp distinct).2
      cases read : first.2.float? with
      | none => simpa [numeric, read] using later.cons first.1
      | some level => simpa [numeric, read] using later.cons_cons first.1

end Members

namespace Variables

variable {scope : Variables} {members : Members} {name changed : String} {level amount : Float}

/-! ## Levels among the variables -/

theorem affection_get? (held : scope.get? affectionName = some (.object members))
    (distinct : (members.map (·.1)).Nodup) :
    scope.affection.get? name = (members.get? name).bind Json.float? := by
  apply Option.ext
  intro level
  have listed : scope.affection = Catalog.ofList members.numeric := by
    rw [affection, held]
    rfl
  rw [listed, Catalog.get?_ofList_eq_some_iff (Members.nodup_numeric distinct), Members.mem_numeric,
    Option.bind_eq_some_iff]
  constructor
  · rintro ⟨value, member, read⟩
    exact ⟨value, Members.get?_of_mem distinct member, read⟩
  · rintro ⟨value, found, read⟩
    exact ⟨value, Members.mem_of_get? found, read⟩

theorem affectionOf_eq (held : scope.get? affectionName = some (.object members))
    (distinct : (members.map (·.1)).Nodup) :
    scope.affectionOf name = (scope.affection.get? name).getD 0 := by
  rw [affectionOf, affection_get? held distinct, held]
  rfl

theorem affection_get?_raise (held : scope.get? affectionName = some (.object members))
    (distinct : (members.map (·.1)).Nodup) :
    (scope.raise (changed, amount)).affection.get? name =
      if name = changed then (levelJson (scope.affectionOf changed + amount)).float?
      else scope.affection.get? name := by
  have raised : (scope.raise (changed, amount)).get? affectionName =
      some (.object (members.set changed (levelJson (scope.affectionOf changed + amount)))) := by
    rw [raise, setAffection, mergeInto, held]
    exact Members.get?_set_self
  rw [affection_get? raised (Members.nodup_set distinct)]
  by_cases same : name = changed
  · rw [if_pos same, same, Members.get?_set_self]
    rfl
  · rw [if_neg same, Members.get?_set_of_ne same, affection_get? held distinct]

end Variables

namespace Loading

/-! ## Levels at the start of a playthrough -/

def startingLevels (levels : Affection) : Members :=
  levels.entries.map fun (name, level) => (name, levelJson level)

/-- The constants that become variables of their own. -/
def LoadedStory.topLevel (story : LoadedStory) : Members :=
  match story.kind with
  | .event => story.document.constants.getD [] ++ story.shared.getD []
  | .texting => story.document.constants.getD []

variable {story : LoadedStory} {levels : Affection} {name : String} {level : Float}

theorem nodup_startingLevels (levels : Affection) : ((startingLevels levels).map (·.1)).Nodup := by
  have names : (startingLevels levels).map (·.1) = levels.keys := by
    simp [startingLevels, Catalog.keys]
  rw [names]
  exact Catalog.nodup_keys

theorem get?_startingLevels (found : levels.get? name = some level) :
    (startingLevels levels).get? name = some (levelJson level) :=
  Members.get?_of_mem (nodup_startingLevels levels)
    (List.mem_map.mpr ⟨_, Catalog.get?_eq_some_iff.mp found, rfl⟩)

theorem LoadedStory.get?_variables (free : affectionName ∉ story.topLevel.map (·.1)) (levels : Affection) :
    (story.variables levels).get? affectionName = some (.object (startingLevels levels)) := by
  have start : (Variables.withAffection levels).get? affectionName =
      some (.object (startingLevels levels)) := by
    simp [Variables.withAffection, Variables.get?, Members.get?_cons, startingLevels]
  have apart : affectionName ≠ "constants" := by decide
  rw [LoadedStory.variables, ← start]
  rw [LoadedStory.topLevel] at free
  cases kind : story.kind with
  | event =>
      rw [kind, List.map_append, List.mem_append, not_or] at free
      exact (Members.get?_merge_of_not_mem free.2).trans (Members.get?_merge_of_not_mem free.1)
  | texting =>
      rw [kind] at free
      cases story.shared with
      | none => exact Members.get?_merge_of_not_mem free
      | some shared =>
          -- Here the shared constants stand under a name of their own.
          exact (Members.get?_merge_of_not_mem free).trans (Members.get?_set_of_ne apart)

/-! ## Levels in a playthrough -/

open Playback (Exchange levelsOf)

def LoadedStory.playback (story : LoadedStory) (levels : Affection) (teller : Playback.Teller) : Playback :=
  .ofStory story.document.story { teller with scope := story.variables levels }

theorem levels_survive_loading (story : LoadedStory) (levels : Affection) (teller : Playback.Teller)
    (clock : Nat → Instant) (calls : List Playback.Call)
    (finite : ∀ level ∈ levels.values, level.isFinite = true)
    (free : affectionName ∉ story.topLevel.map (·.1)) :
    let scope := story.variables levels
    let exchanges := (story.playback levels teller).transcript clock calls
    (∀ name level, levels.get? name = some level →
      (scope.affectionOf name == level) = true ∧
        ∃ held, scope.affection.get? name = some held ∧ (held == level) = true) ∧
      ∀ first more, levelsOf (exchanges.flatMap Exchange.deeds) = first :: more →
        ∃ changed amount, (exchanges.flatMap Exchange.levelChanges).head? = some (changed, amount) ∧
          ∀ name level, levels.get? name = some level →
            (name ≠ changed → ∃ held, first.get? name = some held ∧ (held == level) = true) ∧
            (name = changed → (scope.affectionOf name + amount).isFinite = true →
              ∃ held, first.get? name = some held ∧ (held == scope.affectionOf name + amount) = true) := by
  intro scope exchanges
  have placed := LoadedStory.get?_variables free levels
  have distinct := nodup_startingLevels levels
  have kept : ∀ name level, levels.get? name = some level →
      ∃ held, scope.affection.get? name = some held ∧ (held == level) = true := by
    intro name level found
    rw [Variables.affection_get? placed distinct, get?_startingLevels found]
    exact levelJson_float? (finite level (List.mem_map_of_mem (Catalog.get?_eq_some_iff.mp found)))
  constructor
  · intro name level found
    obtain ⟨held, present, equal⟩ := kept name level found
    rw [Variables.affectionOf_eq placed distinct, present]
    exact ⟨equal, held, rfl, equal⟩
  · intro first more written
    rw [Playback.levelsOf_transcript, (Playback.levels_course _ clock calls).1] at written
    cases changes : exchanges.flatMap Exchange.levelChanges with
    | nil =>
        rw [changes] at written
        exact absurd written.symm (List.cons_ne_nil _ _)
    | cons change later =>
        obtain ⟨changed, amount⟩ := change
        rw [changes] at written
        obtain ⟨here, _⟩ := List.cons.inj written
        have raised : first = (scope.raise (changed, amount)).affection := here.symm
        refine ⟨changed, amount, rfl, fun name level found => ⟨fun differs => ?_, fun same bounded => ?_⟩⟩
        · rw [raised, Variables.affection_get?_raise placed distinct, if_neg differs]
          exact kept name level found
        · rw [raised, Variables.affection_get?_raise placed distinct, if_pos same, ← same]
          exact levelJson_float? bounded

def greeting (name : String) (amount : Number) : Story :=
  [{ Entry.blank with
      responses := some
        [{ text := "Wave", effects := some ⟨[(affectionName, .object [(name, .number amount)])]⟩ }] }]

theorem greeting_keeps_levels :
    let story : LoadedStory :=
      { kind := .texting
        document := { constants := some [("mood", .string "calm")], story := greeting "Alice" (.integer 1) }
        shared := some [(affectionName, .object [])] }
    let levels : Affection := .ofList [("Alice", 3), ("Bob", 1.5)]
    let exchanges := (story.playback levels {}).transcript default [.start, .event (.choose 0)]
    (∀ level ∈ levels.values, level.isFinite = true) ∧ affectionName ∉ story.topLevel.map (·.1) ∧
      ∃ first, levelsOf (exchanges.flatMap Exchange.deeds) = [first] ∧
        ∃ held, first.get? "Bob" = some held ∧ (held == 1.5) = true := by
  intro story levels exchanges
  have finite : ∀ level ∈ levels.values, level.isFinite = true := by decide +kernel
  have free : affectionName ∉ story.topLevel.map (·.1) := by decide
  have changes : (exchanges.flatMap Exchange.levelChanges).head? = some ("Alice", 1) := by decide +kernel
  have once : (levelsOf (exchanges.flatMap Exchange.deeds)).length = 1 := by decide +kernel
  obtain ⟨first, written⟩ := List.length_eq_one_iff.mp once
  obtain ⟨changed, amount, head, kept⟩ :=
    (levels_survive_loading story levels {} default [.start, .event (.choose 0)] finite free).2 first [] written
  obtain ⟨rfl, _⟩ := Prod.mk.inj (Option.some.inj (head.symm.trans changes))
  exact ⟨finite, free, first, written, (kept "Bob" 1.5 (by decide +kernel)).1 (by decide)⟩

/-- Levels that constants stand in place of are not there, and not written. Nor is a level that a change makes
too large for a number. -/
theorem levels_can_be_lost :
    let calls : List Playback.Call := [.start, .event (.choose 0)]
    let first (story : LoadedStory) (levels : Affection) : Option Affection :=
      (levelsOf (((story.playback levels {}).transcript default calls).flatMap Exchange.deeds)).head?
    let replacing : LoadedStory :=
      { kind := .event
        document := { constants := some [(affectionName, .object [])], story := greeting "Bob" (.integer 1) }
        shared := none }
    let earned : Affection := .ofList [("Alice", 3)]
    let plain : LoadedStory :=
      { kind := .event, document := { story := greeting "Alice" (.real 1e308) }, shared := none }
    let large : Affection := .ofList [("Alice", 1e308)]
    ((∀ level ∈ earned.values, level.isFinite = true) ∧ earned.get? "Alice" = some 3 ∧
        ((replacing.variables earned).affectionOf "Alice" == 3) = false ∧
        (replacing.variables earned).affection.get? "Alice" = none ∧
        (first replacing earned).map (·.keys) = some ["Bob"]) ∧
      (∀ level ∈ large.values, level.isFinite = true) ∧ (first plain large).map (·.keys) = some [] := by
  decide +kernel

end Loading
end BranchingStory
