import Mathlib.Data.List.Basic

/-!
Results that come about in steps. A sequence of steps has a result if each of them has one.
-/

namespace BranchingStory

variable {ε α β : Type} {take : α → Except ε β}

def causeOf? : Except ε α → Option ε
  | .ok _ => none
  | .error cause => some cause

@[simp] theorem causeOf?_ok (value : α) : causeOf? (.ok value : Except ε α) = none := rfl

@[simp] theorem causeOf?_error (cause : ε) : causeOf? (.error cause : Except ε α) = some cause := rfl

theorem causeOf?_eq_some {result : Except ε α} {cause : ε} : causeOf? result = some cause ↔ result = .error cause := by
  cases result with
  | ok value => simp
  | error other => simp

theorem ok_bind (value : α) (next : α → Except ε β) : (Except.ok value >>= next) = next value := rfl

theorem bind_eq_ok {result : Except ε α} {next : α → Except ε β} {value : β} :
    (result >>= next) = .ok value ↔ ∃ middle, result = .ok middle ∧ next middle = .ok value := by
  cases result with
  | error cause => simp [bind, Except.bind]
  | ok middle => simp [bind, Except.bind]

theorem bind_eq_error {result : Except ε α} {next : α → Except ε β} {cause : ε} :
    (result >>= next) = .error cause ↔
      result = .error cause ∨ ∃ middle, result = .ok middle ∧ next middle = .error cause := by
  cases result with
  | error cause => simp [bind, Except.bind]
  | ok middle => simp [bind, Except.bind]

theorem map_eq_ok {result : Except ε α} {change : α → β} {value : β} :
    result.map change = .ok value ↔ ∃ middle, result = .ok middle ∧ change middle = value := by
  cases result with
  | error cause => simp [Except.map]
  | ok middle => simp [Except.map]

theorem mapError_eq_ok {ε' : Type} {result : Except ε α} {change : ε → ε'} {value : α} :
    result.mapError change = .ok value ↔ result = .ok value := by
  cases result with
  | error cause => simp [Except.mapError]
  | ok middle => simp [Except.mapError]

theorem toOption_eq_some {result : Except ε α} {value : α} : result.toOption = some value ↔ result = .ok value := by
  cases result with
  | error cause => simp [Except.toOption]
  | ok middle => simp [Except.toOption]

theorem eq_or_eq_of_ite {condition : Prop} [Decidable condition] {first second value : α}
    (chosen : (if condition then first else second) = value) : first = value ∨ second = value := by
  split at chosen
  · exact .inl chosen
  · exact .inr chosen

theorem ite_throw_eq_ok {condition : Prop} [Decidable condition] {cause : ε} {otherwise : Except ε α} {value : α} :
    (if condition then throw cause else otherwise) = .ok value ↔ ¬ condition ∧ otherwise = .ok value := by
  split
  · rename_i holds
    simp [holds, throw, throwThe, MonadExceptOf.throw]
  · rename_i fails
    simp [fails]

theorem mem_of_mapM {items : List α} {values : List β} (taken : items.mapM take = .ok values) :
    ∀ value ∈ values, ∃ item ∈ items, take item = .ok value := by
  induction items generalizing values with
  | nil =>
      simp only [List.mapM_nil, pure, Except.pure, Except.ok.injEq] at taken
      simp [← taken]
  | cons first rest ih =>
      simp only [List.mapM_cons, bind_eq_ok, pure, Except.pure, Except.ok.injEq] at taken
      obtain ⟨value, here, others, later, rfl⟩ := taken
      intro other member
      rcases List.mem_cons.mp member with rfl | member
      · exact ⟨first, List.mem_cons_self, here⟩
      · obtain ⟨item, listed, found⟩ := ih later other member
        exact ⟨item, List.mem_cons_of_mem _ listed, found⟩

theorem mapM_congr {items : List α} {other : α → Except ε β} (same : ∀ item ∈ items, take item = other item) :
    items.mapM take = items.mapM other := by
  induction items with
  | nil => rfl
  | cons first rest ih =>
      have later := ih fun item member => same item (List.mem_cons_of_mem _ member)
      rw [List.mapM_cons, List.mapM_cons, same first List.mem_cons_self, later]

theorem mapM_of_forall {items : List α} {change : α → β} (all : ∀ item ∈ items, take item = .ok (change item)) :
    items.mapM take = .ok (items.map change) := by
  induction items with
  | nil => rfl
  | cons first rest ih =>
      have later := ih fun item member => all item (List.mem_cons_of_mem _ member)
      rw [List.mapM_cons, all first List.mem_cons_self, later]
      rfl

end BranchingStory
