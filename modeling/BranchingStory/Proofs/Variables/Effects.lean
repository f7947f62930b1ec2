import BranchingStory.Proofs.Decimal.Sum
import BranchingStory.Proofs.Playback.Levels

/-!
What effects come to when one set of them is applied after the other. Levels add up: as long as they stay among the
whole numbers that floats can tell apart, neither the grouping of the changes into sets nor their order matters. Any
other variable has the value that it was given last, and nothing stands in the place of the levels but levels.
-/

namespace BranchingStory

def Effects.value? (effects : Effects) (name : String) : Option Json :=
  ((effects.members.filter (·.1 = name)).map (·.2)).getLast?

/-- What is added to the level of a character, one time after the other. -/
def amountsFor (name : String) (changes : List (String × Float)) : List Float :=
  (changes.filter (·.1 = name)).map (·.2)

/-- Amounts that are whole numbers, whose sums on the way, from a level on, are among those that floats can tell
apart. -/
structure AddsUp (start : Int) (amounts : List Float) (numbers : List Int) : Prop where
  whole : amounts.map wholeNumber? = numbers.map some
  bounded : ∀ count ≤ numbers.length, (start + (numbers.take count).sum).natAbs ≤ 2 ^ 53

theorem AddsUp.rest {start number : Int} {amount : Float} {amounts : List Float} {numbers : List Int}
    (adds : AddsUp start (amount :: amounts) (number :: numbers)) : AddsUp (start + number) amounts numbers where
  whole := (List.cons.inj adds.whole).2
  bounded count within := by
    have bound := adds.bounded (count + 1) (Nat.succ_le_succ within)
    rwa [List.take_succ_cons, List.sum_cons, ← add_assoc] at bound

theorem levelJson_of_whole {level : Float} {number : Int} (whole : wholeNumber? level = some number)
    (small : number.natAbs ≤ 2 ^ 53) : levelJson level = .number (.integer number) := by
  rw [levelJson, whole]
  exact if_pos (by omega)

namespace Variables

variable {scope : Variables} {name changed : String} {amount : Float}

def level? (scope : Variables) (name : String) : Option Json := (scope.get? affectionName).bind (·.member? name)

theorem affectionOf_eq_level? : scope.affectionOf name = ((scope.level? name).bind Json.float?).getD 0 := rfl

def applySets (scope : Variables) (sets : List Effects) : Variables :=
  sets.foldl (fun scope effects => (scope.apply effects).1) scope

/-! ## Levels -/

theorem get?_setAffection (scope : Variables) (changed : String) (level : Float) :
    ∃ members : Members, (scope.setAffection changed level).get? affectionName = some (.object members) ∧
      members.get? changed = some (levelJson level) ∧
        ∀ other, other ≠ changed → members.get? other = scope.level? other := by
  rw [setAffection, mergeInto]
  refine ⟨_, Members.get?_set_self, Members.get?_set_self, fun other differs => ?_⟩
  rw [level?]
  refine (Members.get?_set_of_ne differs).trans ?_
  cases scope.get? affectionName with
  | none => rfl
  | some value => cases value <;> rfl

theorem level?_raise : (scope.raise (changed, amount)).level? name =
    if name = changed then some (levelJson (scope.affectionOf changed + amount)) else scope.level? name := by
  obtain ⟨members, held, same, others⟩ := get?_setAffection scope changed (scope.affectionOf changed + amount)
  have found : (scope.raise (changed, amount)).level? name = members.get? name := by
    rw [level?, raise, held]
    rfl
  rw [found]
  by_cases equal : name = changed
  · rw [if_pos equal, equal, same]
  · rw [if_neg equal, others name equal]

theorem level?_foldl_raise_of_unnamed {changes : List (String × Float)} (unnamed : amountsFor name changes = []) :
    (changes.foldl raise scope).level? name = scope.level? name := by
  induction changes generalizing scope with
  | nil => rfl
  | cons change rest ih =>
      have apart : change.1 ≠ name := by
        intro same
        simp [amountsFor, same] at unnamed
      have later : amountsFor name rest = [] := by simpa [amountsFor, apart] using unnamed
      rw [List.foldl_cons, ih later, level?_raise, if_neg (Ne.symm apart)]

theorem level?_foldl_raise {changes : List (String × Float)} {start : Int} {numbers : List Int}
    (known : wholeNumber? (scope.affectionOf name) = some start)
    (adds : AddsUp start (amountsFor name changes) numbers) :
    (changes.foldl raise scope).level? name =
      if numbers = [] then scope.level? name else some (.number (.integer (start + numbers.sum))) := by
  induction changes generalizing scope start numbers with
  | nil =>
      have none : numbers = [] := List.map_eq_nil_iff.mp adds.whole.symm
      rw [if_pos none]
      rfl
  | cons change rest ih =>
      obtain ⟨changed, amount⟩ := change
      rw [List.foldl_cons]
      by_cases same : changed = name
      · subst same
        have here : amountsFor changed ((changed, amount) :: rest) = amount :: amountsFor changed rest := by
          simp [amountsFor]
        rw [here] at adds
        cases numbers with
        | nil => exact absurd adds.whole (List.cons_ne_nil _ _)
        | cons number later =>
            have small : (start + number).natAbs ≤ 2 ^ 53 := by simpa using adds.bounded 1 (by simp)
            have sum := wholeNumber?_add known (List.cons.inj adds.whole).1 small
            have raised : (scope.raise (changed, amount)).level? changed = some (.number (.integer (start + number))) := by
              rw [level?_raise, if_pos rfl, levelJson_of_whole sum small]
            have after : wholeNumber? ((scope.raise (changed, amount)).affectionOf changed) = some (start + number) := by
              rw [affectionOf_eq_level?, raised]
              exact wholeNumber?_ofInt small
            rw [ih after adds.rest, raised, if_neg (List.cons_ne_nil _ _), List.sum_cons, ← add_assoc]
            split
            · rename_i none
              rw [none, List.sum_nil, add_zero]
            · rfl
      · have apart : amountsFor name ((changed, amount) :: rest) = amountsFor name rest := by
          simp [amountsFor, same]
        have kept : (scope.raise (changed, amount)).level? name = scope.level? name := by
          rw [level?_raise, if_neg (Ne.symm same)]
        rw [apart] at adds
        rw [← kept]
        refine ih ?_ adds
        rwa [affectionOf_eq_level?, kept]

theorem get?_applySets (sets : List Effects) :
    (scope.applySets sets).get? affectionName =
      ((sets.flatMap Effects.levelChanges).foldl raise scope).get? affectionName := by
  induction sets generalizing scope with
  | nil => rfl
  | cons effects rest ih =>
      rw [List.flatMap_cons, List.foldl_append]
      exact ih.trans (get?_foldl_raise_congr (applyAll_eq scope effects.members).1 _)

theorem level?_applySets (sets : List Effects) :
    (scope.applySets sets).level? name = ((sets.flatMap Effects.levelChanges).foldl raise scope).level? name := by
  rw [level?, level?, get?_applySets]

theorem get?_foldl_raise {changes : List (String × Float)} (some_change : changes ≠ []) :
    ∃ members, (changes.foldl raise scope).get? affectionName = some (.object members) := by
  obtain ⟨earlier, last, rfl⟩ := (List.eq_nil_or_concat' changes).resolve_left some_change
  obtain ⟨members, held, -⟩ := get?_setAffection (earlier.foldl raise scope) last.1
    ((earlier.foldl raise scope).affectionOf last.1 + last.2)
  rw [List.foldl_append]
  exact ⟨members, held⟩

/-! ## Other variables -/

theorem get?_applyChanges_of_ne (apart : name ≠ affectionName) (changes : Members) :
    (scope.applyChanges changes).1.get? name = scope.get? name := by
  rw [(applyChanges_eq scope changes).1]
  generalize changes.numeric = changes
  induction changes generalizing scope with
  | nil => rfl
  | cons change rest ih =>
      rw [List.foldl_cons, ih]
      exact Members.get?_set_of_ne apart

theorem get?_applyEffect_of_ne {value : Json} (apart : name ≠ changed) :
    (scope.applyEffect changed value).1.get? name = scope.get? name := by
  by_cases affects : changed = affectionName
  · simp only [applyEffect, if_pos affects]
    cases value with
    | object changes => exact get?_applyChanges_of_ne (affects ▸ apart) changes
    | _ => rfl
  · simp only [applyEffect, if_neg affects]
    exact Members.get?_set_of_ne apart

theorem get?_applyAll_of_ne (apart : name ≠ affectionName) (members : Members) :
    (scope.applyAll members).1.get? name = (Effects.value? ⟨members⟩ name).or (scope.get? name) := by
  induction members generalizing scope with
  | nil => rfl
  | cons first rest ih =>
      obtain ⟨changed, value⟩ := first
      have stepped : (scope.applyAll ((changed, value) :: rest)).1 =
          ((scope.applyEffect changed value).1.applyAll rest).1 := rfl
      rw [stepped, ih]
      by_cases same : changed = name
      · subst same
        have given : (scope.applyEffect changed value).1.get? changed = some value := by
          simp only [applyEffect, if_neg apart]
          exact Members.get?_set_self
        rw [given]
        simp only [Effects.value?, List.filter_cons, decide_true, if_true, List.map_cons, List.getLast?_cons]
        cases ((rest.filter (·.1 = changed)).map (·.2)).getLast? <;> rfl
      · rw [get?_applyEffect_of_ne (Ne.symm same)]
        simp [Effects.value?, same]

theorem get?_applySets_of_ne (apart : name ≠ affectionName) (sets : List Effects) :
    (scope.applySets sets).get? name = (sets.filterMap (·.value? name)).getLast?.or (scope.get? name) := by
  induction sets generalizing scope with
  | nil => rfl
  | cons effects rest ih =>
      have stepped : scope.applySets (effects :: rest) = (scope.applyAll effects.members).1.applySets rest := rfl
      rw [stepped, ih, get?_applyAll_of_ne apart]
      cases given : effects.value? name with
      | none => simp [given]
      | some value =>
          rw [List.filterMap_cons, given]
          simp only [List.getLast?_cons]
          cases (rest.filterMap (·.value? name)).getLast? <;> rfl

/-! ## Sets of effects -/

theorem effects_add_up (scope : Variables) (sets : List Effects) :
    let changes := sets.flatMap Effects.levelChanges
    let after := scope.applySets sets
    (∀ name, (scope.level? name).bind Json.float? = none → wholeNumber? (scope.affectionOf name) = some 0) ∧
      (∀ name start numbers, wholeNumber? (scope.affectionOf name) = some start →
        AddsUp start (amountsFor name changes) numbers →
          wholeNumber? (after.affectionOf name) = some (start + numbers.sum) ∧
            ∀ others reordered, numbers.Perm reordered →
              AddsUp start (amountsFor name (others.flatMap Effects.levelChanges)) reordered →
                (scope.applySets others).affectionOf name = after.affectionOf name) ∧
      (∀ name, amountsFor name changes = [] → after.level? name = scope.level? name) ∧
      (∀ name, name ≠ affectionName →
        after.get? name = (sets.filterMap (·.value? name)).getLast?.or (scope.get? name)) ∧
      (changes = [] → after.get? affectionName = scope.get? affectionName) ∧
      (changes ≠ [] → ∃ members, after.get? affectionName = some (.object members)) := by
  intro changes after
  refine ⟨fun name absent => ?_, fun name start numbers known adds => ?_, fun name unnamed => ?_,
    fun name apart => get?_applySets_of_ne apart sets, fun unchanged => ?_, fun changed => ?_⟩
  · rw [affectionOf_eq_level?, absent]
    exact wholeNumber?_of_stands (.zero .positive)
  · have reached (others : List Effects) (reordered : List Int)
        (adds : AddsUp start (amountsFor name (others.flatMap Effects.levelChanges)) reordered) :=
      (level?_applySets others).trans (level?_foldl_raise known adds)
    have level := reached sets numbers adds
    have small := adds.bounded numbers.length (Nat.le_refl _)
    rw [List.take_length] at small
    constructor
    · rw [affectionOf_eq_level?, level]
      by_cases none : numbers = []
      · rw [if_pos none, ← affectionOf_eq_level?, known, none, List.sum_nil, add_zero]
      · rw [if_neg none]
        exact wholeNumber?_ofInt small
    · intro others reordered same more
      have empty : reordered = [] ↔ numbers = [] := by
        rw [← List.length_eq_zero_iff, ← List.length_eq_zero_iff, same.length_eq]
      have levels : (scope.applySets others).level? name = after.level? name := by
        rw [reached others reordered more, level, same.sum_eq]
        simp only [empty]
      rw [affectionOf_eq_level?, affectionOf_eq_level?, levels]
  · rw [level?_applySets, level?_foldl_raise_of_unnamed unnamed]
  · rw [get?_applySets]
    change (changes.foldl raise scope).get? affectionName = _
    rw [unchanged]
    rfl
  · rw [get?_applySets]
    exact get?_foldl_raise changed

theorem second_answer_adds_up :
    let scope : Variables := ⟨[(affectionName, .object [("Alice", .number (.integer 3)), ("Bob", .string "shy")])]⟩
    let answer (amount : Number) (mood : String) : Effects :=
      ⟨[(affectionName, .object [("Alice", .number amount)]), ("mood", .string mood)]⟩
    let sets := [answer (.integer 2) "glad", answer (.real (-4)) "sad"]
    let changes := sets.flatMap Effects.levelChanges
    wholeNumber? (scope.affectionOf "Alice") = some 3 ∧ AddsUp 3 (amountsFor "Alice" changes) [2, -4] ∧
      wholeNumber? ((scope.applySets sets).affectionOf "Alice") = some 1 := by
  intro scope answer sets changes
  have known : wholeNumber? (scope.affectionOf "Alice") = some 3 := by decide +kernel
  have adds : AddsUp 3 (amountsFor "Alice" changes) [2, -4] := ⟨by decide +kernel, by decide⟩
  exact ⟨known, adds, ((effects_add_up scope sets).2.1 "Alice" 3 [2, -4] known adds).1⟩

end Variables
end BranchingStory
