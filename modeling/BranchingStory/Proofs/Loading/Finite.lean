import BranchingStory.Loading.Story
import BranchingStory.Proofs.Catalog.Lookup
import BranchingStory.Proofs.Playback.Levels
import BranchingStory.Proofs.Story.Sound

/-!
Levels stay finite. A level that is set is a finite number or none at all, and the constants of a story that was
read from text bring no others.
-/

namespace BranchingStory

theorem finite_levelJson {level : Float} : ∀ number ∈ (levelJson level).numbers, number.Finite := by
  have plain : ∀ number ∈ (Json.ofFloat level).numbers, number.Finite := by
    intro number held
    rw [Json.ofFloat] at held
    split at held
    · rename_i finite
      rw [List.mem_singleton.mp held]
      exact finite
    · exact absurd held List.not_mem_nil
  rw [levelJson]
  cases wholeNumber? level with
  | none => exact plain
  | some whole =>
      by_cases fits : whole.natAbs < 9223372036854775808
      · simp only [if_pos fits]
        intro number held
        rw [List.mem_singleton.mp held]
        exact Nat.lt_trans fits (by decide)
      · simp only [if_neg fits]
        exact plain

namespace Variables

variable {scope : Variables}

def FiniteLevels (scope : Variables) : Prop :=
  ∀ value, scope.get? affectionName = some value → ∀ number ∈ value.numbers, number.Finite

theorem FiniteLevels.affection (finite : scope.FiniteLevels) :
    ∀ level ∈ scope.affection.values, level.isFinite = true := by
  intro level listed
  obtain ⟨entry, entry_listed, rfl⟩ := List.mem_map.mp listed
  rw [Variables.affection] at entry_listed
  split at entry_listed
  · rename_i members held
    obtain ⟨member, member_listed, read⟩ := List.mem_filterMap.mp (Catalog.mem_of_mem_ofList entry_listed)
    obtain ⟨level, number, rfl⟩ := Option.map_eq_some_iff.mp read
    cases shape : member.2 <;> rw [shape] at number <;> simp only [Json.float?, reduceCtorEq] at number
    rename_i value
    obtain rfl := Option.some.inj number
    have inside : value ∈ member.2.numbers := by rw [shape]; exact List.mem_singleton_self value
    exact (finite _ held value (Json.mem_numbersOfMembers.mpr ⟨member, member_listed, inside⟩)).toFloat
  · exact absurd entry_listed List.not_mem_nil

theorem exists_mergeInto (scope : Variables) (name : String) (constants : Members) :
    ∃ members : Members,
      (∀ number ∈ Json.numbersOfMembers members, ∃ value, scope.get? name = some value ∧ number ∈ value.numbers) ∧
        scope.mergeInto name constants = scope.set name (.object (Members.merge members constants)) := by
  have none : ∀ number ∈ Json.numbersOfMembers [], ∃ value, scope.get? name = some value ∧ number ∈ value.numbers :=
    fun _ held => absurd held List.not_mem_nil
  rw [mergeInto]
  split
  · rename_i members held
    exact ⟨members, fun number inside => ⟨_, held, inside⟩, rfl⟩
  · exact ⟨[], none, rfl⟩

theorem FiniteLevels.raise (finite : scope.FiniteLevels) (change : String × Float) :
    (scope.raise change).FiniteLevels := by
  obtain ⟨members, old, merged⟩ := scope.exists_mergeInto affectionName
    [(change.1, levelJson (scope.affectionOf change.1 + change.2))]
  intro value found
  rw [Variables.raise, setAffection, merged] at found
  obtain rfl := Option.some.inj (Members.get?_set_self.symm.trans found)
  intro number held
  rcases Json.mem_numbersOfMembers_merge held with before | added
  · obtain ⟨value, present, inside⟩ := old number before
    exact finite value present number inside
  · simp only [Json.numbersOfMembers, List.append_nil] at added
    exact finite_levelJson number added

theorem FiniteLevels.levelsAfter (finite : scope.FiniteLevels) (changes : List (String × Float)) :
    ∀ levels ∈ scope.levelsAfter changes, ∀ level ∈ levels.values, level.isFinite = true := by
  induction changes generalizing scope with
  | nil => exact fun levels listed => absurd listed List.not_mem_nil
  | cons change rest ih =>
      intro levels listed
      rcases List.mem_cons.mp listed with rfl | later
      · exact (finite.raise change).affection
      · exact ih (finite.raise change) levels later

end Variables

namespace Loading

open Json (numbersOfMembers)

structure LoadedStory.Parsed (story : LoadedStory) : Prop where
  document : ∃ bytes, Document.ofBytes bytes = .ok story.document
  shared : ∀ shared, story.shared = some shared → ∃ path bytes, constantsOfBytes path bytes = .ok shared

variable {story : LoadedStory}

theorem LoadedStory.parsed_of_isOk {bytes : List UInt8} (kind : StoryKind)
    (accepted : (Document.ofBytes bytes).isOk = true) :
    LoadedStory.Parsed { kind, document := (Document.ofBytes bytes).toOption.getD default, shared := none } where
  document := by
    cases read : Document.ofBytes bytes with
    | error cause => simp [read, Except.isOk, Except.toBool] at accepted
    | ok document => exact ⟨bytes, read⟩
  shared _ none := by cases none

theorem LoadedStory.Parsed.taken (parsed : story.Parsed) : story.document.Taken Number.Finite := by
  obtain ⟨bytes, read⟩ := parsed.document
  exact Document.taken_of_takes (Json.takes_of_decodeBytes read)

theorem fromText_constants {path : String} {bytes : List UInt8} {constants : Members}
    (read : constantsOfBytes path bytes = .ok constants) : (Json.object constants).FromText Json.deepest := by
  rw [constantsOfBytes] at read
  split at read
  · rename_i members decoded
    obtain rfl := Except.ok.inj read
    obtain ⟨draft, finite, taken⟩ := Json.takes_of_decodeBytes decoded
    exact finite.fromText taken
  · simp at read
  · simp at read

theorem finite_constants {path : String} {bytes : List UInt8} {constants : Members}
    (read : constantsOfBytes path bytes = .ok constants) :
    ∀ number ∈ numbersOfMembers constants, number.Finite := (fromText_constants read).finite

theorem LoadedStory.Parsed.finite_shared (parsed : story.Parsed) :
    ∀ number ∈ numbersOfMembers (story.shared.getD []), number.Finite := by
  cases present : story.shared with
  | none => exact fun _ held => absurd held List.not_mem_nil
  | some shared =>
      obtain ⟨path, bytes, read⟩ := parsed.shared shared present
      exact finite_constants read

theorem LoadedStory.Parsed.finiteLevels (parsed : story.Parsed) (levels : Affection) :
    (story.variables levels).FiniteLevels := by
  have own := parsed.taken.constantNumbers
  have shared := parsed.finite_shared
  have start : ∀ number ∈ numbersOfMembers (Variables.withAffection levels).bindings, number.Finite := by
    intro number held
    simp only [Variables.withAffection, numbersOfMembers, List.append_nil] at held
    obtain ⟨member, listed, inside⟩ := Json.mem_numbersOfMembers.mp held
    obtain ⟨entry, _, rfl⟩ := List.mem_map.mp listed
    exact finite_levelJson number inside
  have merged : ∀ (scope : Variables) (constants : Members),
      (∀ number ∈ numbersOfMembers scope.bindings, number.Finite) →
        (∀ number ∈ numbersOfMembers constants, number.Finite) →
          ∀ number ∈ numbersOfMembers (scope.merge constants).bindings, number.Finite :=
    fun scope constants before added number held =>
      (Json.mem_numbersOfMembers_merge held).elim (before number) (added number)
  have all : ∀ number ∈ numbersOfMembers (story.variables levels).bindings, number.Finite := by
    rw [LoadedStory.variables]
    cases story.kind with
    | event => exact merged _ _ (merged _ _ start own) shared
    | texting =>
        cases present : story.shared with
        | none => exact merged _ _ start own
        | some constants =>
            rw [present] at shared
            obtain ⟨members, old, placed⟩ :=
              (Variables.withAffection levels).exists_mergeInto "constants" constants
            refine merged _ _ ?_ own
            intro number held
            rw [placed] at held
            obtain ⟨member, listed, inside⟩ := Json.mem_numbersOfMembers.mp held
            rcases Members.eq_or_mem_of_mem_set listed with rfl | before
            · rcases Json.mem_numbersOfMembers_merge inside with earlier | added
              · obtain ⟨value, present, within⟩ := old number earlier
                exact start number (Json.mem_numbersOfMembers.mpr ⟨_, Members.mem_of_get? present, within⟩)
              · exact shared number added
            · exact start number (Json.mem_numbersOfMembers.mpr ⟨member, before, inside⟩)
  intro value found number held
  exact all number (Json.mem_numbersOfMembers.mpr ⟨_, Members.mem_of_get? found, held⟩)

end Loading
end BranchingStory
