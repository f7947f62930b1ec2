import BranchingStory.Condition.Judgement
import BranchingStory.Proofs.Results
import BranchingStory.Proofs.Variables.Effects

/-!
What a condition looks at. Evaluation asks for the variables that an expression names and for no others, and it fails
only where one of them is missing or a property is read of nothing. So a branch does not heed what becomes of variables
that its condition does not mention.
-/

namespace BranchingStory

/-! ## Changes of variables -/

namespace Variables

inductive Change
  | set (name : String) (value : Json)
  | merge (constants : Members)
  | mergeInto (name : String) (constants : Members)
  | apply (effects : Effects)

def Change.names : Change → List String
  | .set name _ => [name]
  | .merge constants => constants.map (·.1)
  | .mergeInto name _ => [name]
  | .apply effects => effects.members.map (·.1)

def change (scope : Variables) : Change → Variables
  | .set name value => scope.set name value
  | .merge constants => scope.merge constants
  | .mergeInto name constants => scope.mergeInto name constants
  | .apply effects => (scope.apply effects).1

variable {scope : Variables} {name : String}

theorem get?_applyAll_of_not_mem {members : Members} (untouched : name ∉ members.map (·.1)) :
    (scope.applyAll members).1.get? name = scope.get? name := by
  induction members generalizing scope with
  | nil => rfl
  | cons first rest ih =>
      rw [List.map_cons, List.mem_cons, not_or] at untouched
      exact (ih untouched.2).trans (get?_applyEffect_of_ne untouched.1)

theorem get?_change {change : Change} (untouched : name ∉ change.names) :
    (scope.change change).get? name = scope.get? name := by
  cases change with
  | set changed value => exact Members.get?_set_of_ne (List.ne_of_not_mem_cons untouched)
  | merge constants => exact Members.get?_merge_of_not_mem untouched
  | mergeInto changed constants => exact Members.get?_set_of_ne (List.ne_of_not_mem_cons untouched)
  | apply effects => exact get?_applyAll_of_not_mem untouched

theorem get?_changes {changes : List Change} (untouched : ∀ change ∈ changes, name ∉ change.names) :
    (changes.foldl change scope).get? name = scope.get? name := by
  induction changes generalizing scope with
  | nil => rfl
  | cons first rest ih =>
      obtain ⟨here, later⟩ := List.forall_mem_cons.mp untouched
      exact (ih later).trans (get?_change here)

end Variables

namespace Condition
namespace Expression

/-! ## Names -/

def names : Expression → List String
  | .literal _ => []
  | .variable name => [name]
  | .member object property => object.names ++ property.names
  | .unary _ operand => operand.names
  | .binary _ left right => left.names ++ right.names

def parts : Expression → List Expression
  | .literal value => [.literal value]
  | .variable name => [.variable name]
  | .member object property => .member object property :: (object.parts ++ property.parts)
  | .unary op operand => .unary op operand :: operand.parts
  | .binary op left right => .binary op left right :: (left.parts ++ right.parts)

variable {scope other : Members} {value inner : Expression} {cause : Error}

theorem eval_congr (agree : ∀ name ∈ value.names, scope.get? name = other.get? name) :
    value.eval scope = value.eval other := by
  induction value with
  | literal operand => rfl
  | «variable» name =>
      have same := agree name (List.mem_singleton.mpr rfl)
      rw [eval, eval, same]
  | member object property objects properties =>
      obtain ⟨before, behind⟩ := List.forall_mem_append.mp agree
      rw [eval, eval, objects before, properties behind]
  | unary op operand ih => rw [eval, eval, ih agree]
  | binary op left right lefts rights =>
      obtain ⟨before, behind⟩ := List.forall_mem_append.mp agree
      rw [eval, eval, lefts before, rights behind]

/-! ## Failures -/

inductive Fails (scope : Members) (value : Expression) : Error → Prop
  | unbound {name : String} (named : name ∈ value.names) (missing : scope.get? name = none) :
      Fails scope value (.unknownName name)
  | undefined {object property : Expression} {key : Operand} (within : .member object property ∈ value.parts)
      (nothing : object.eval scope = .ok .undefined) (keyed : property.eval scope = .ok key) :
      Fails scope value (.memberOfNothing key.display .undefined)
  | null {object property : Expression} {key : Operand} (within : .member object property ∈ value.parts)
      (nothing : object.eval scope = .ok .null) (keyed : property.eval scope = .ok key) :
      Fails scope value (.memberOfNothing key.display .null)

theorem Fails.mono (fails : Fails scope inner cause) (names : inner.names ⊆ value.names)
    (parts : inner.parts ⊆ value.parts) : Fails scope value cause := by
  cases fails with
  | unbound named missing => exact .unbound (names named) missing
  | undefined within nothing keyed => exact .undefined (parts within) nothing keyed
  | null within nothing keyed => exact .null (parts within) nothing keyed

theorem fails_of_member {object property : Expression} {target key : Operand} (found : object.eval scope = .ok target)
    (keyed : property.eval scope = .ok key) (failed : target.member key.display = .error cause) :
    Fails scope (.member object property) cause := by
  have within : .member object property ∈ (Expression.member object property).parts := List.mem_cons_self
  cases target with
  | undefined =>
      obtain rfl := Except.error.inj failed
      exact .undefined within found keyed
  | null =>
      obtain rfl := Except.error.inj failed
      exact .null within found keyed
  | bool | number | text | array | object => simp [Operand.member] at failed

theorem fails_of_eval (failed : value.eval scope = .error cause) : Fails scope value cause := by
  induction value generalizing cause with
  | literal operand => simp [eval] at failed
  | «variable» name =>
      rw [eval] at failed
      cases missing : scope.get? name with
      | none =>
          rw [missing] at failed
          obtain rfl := Except.error.inj failed
          exact .unbound (List.mem_singleton.mpr rfl) missing
      | some found => simp [missing] at failed
  | member object property objects properties =>
      simp only [eval, bind_eq_error] at failed
      obtain first | ⟨target, found, second | ⟨key, keyed, access⟩⟩ := failed
      · exact (objects first).mono (List.subset_append_left _ _)
          (List.subset_cons_of_subset _ (List.subset_append_left _ _))
      · exact (properties second).mono (List.subset_append_right _ _)
          (List.subset_cons_of_subset _ (List.subset_append_right _ _))
      · exact fails_of_member found keyed access
  | unary op operand ih =>
      simp only [eval, bind_eq_error, pure, Except.pure, reduceCtorEq, and_false, exists_false, or_false] at failed
      exact (ih failed).mono (List.Subset.refl _) (List.subset_cons_self _ _)
  | binary op left right lefts rights =>
      simp only [eval, bind_eq_error] at failed
      obtain first | ⟨target, found, later⟩ := failed
      · exact (lefts first).mono (List.subset_append_left _ _)
          (List.subset_cons_of_subset _ (List.subset_append_left _ _))
      · split at later
        · simp [pure, Except.pure] at later
        · simp only [bind_eq_error, pure, Except.pure, reduceCtorEq, and_false, exists_false, or_false] at later
          exact (rights later).mono (List.subset_append_right _ _)
            (List.subset_cons_of_subset _ (List.subset_append_right _ _))

theorem exists_eval (plain : ∀ object property, .member object property ∉ value.parts)
    (bound : ∀ name ∈ value.names, (scope.get? name).isSome = true) : ∃ found, value.eval scope = .ok found := by
  cases result : value.eval scope with
  | ok found => exact ⟨found, rfl⟩
  | error cause =>
      cases fails_of_eval result with
      | unbound named missing =>
          have present := bound _ named
          rw [missing] at present
          cases present
      | undefined within => exact absurd within (plain _ _)
      | null within => exact absurd within (plain _ _)

end Expression

/-! ## Branches -/

/-- The variables that a condition mentions. One that cannot be read mentions none. -/
def mentioned (source : String) : List String :=
  match Expression.read source with
  | .ok value => value.names
  | .error _ => []

theorem judge_congr {source : String} {scope other : Members}
    (agree : ∀ name ∈ mentioned source, scope.get? name = other.get? name) : judge source scope = judge source other := by
  have same : holds? source scope = holds? source other := by
    rw [holds?, holds?]
    cases read : Expression.read source with
    | error cause => rfl
    | ok value =>
        rw [mentioned, read] at agree
        rw [ok_bind, ok_bind, Expression.eval_congr agree]
  rw [judge, judge, same]

open Variables (Change)

/-- Variables have a say in an expression only if it names them, and it fails for two reasons only. However often
other variables are set, merged or changed by effects, a branch with this condition is judged as before. -/
theorem conditions_see_what_they_name (value : Expression) (scope : Members) :
    (∀ other : Members, (∀ name ∈ value.names, scope.get? name = other.get? name) →
        value.eval scope = value.eval other) ∧
      (∀ cause, value.eval scope = .error cause → Expression.Fails scope value cause) ∧
      ((∀ object property, .member object property ∉ value.parts) →
        (∀ name ∈ value.names, (scope.get? name).isSome = true) → ∃ found, value.eval scope = .ok found) ∧
      ∀ (source : String) (before : Variables) (changes : List Change),
        (∀ name ∈ mentioned source, ∀ change ∈ changes, name ∉ change.names) →
          judge source (changes.foldl Variables.change before).bindings = judge source before.bindings := by
  refine ⟨fun other => Expression.eval_congr, fun cause => Expression.fails_of_eval, Expression.exists_eval, ?_⟩
  intro source before changes apart
  refine judge_congr ?_
  intro name listed
  exact Variables.get?_changes (apart name listed)

theorem mood_has_no_say :
    let scope : Members := [("seen", .bool true), (affectionName, .object [("Alice", .number (.integer 3))])]
    let moody : Members := ("mood", .string "glad") :: scope
    let plain : Expression := .binary .or (.variable "seen") (.unary .not (.variable affectionName))
    let misled : Expression := .binary .and (.variable "seen") (.member (.literal .null) (.literal (.text "Bob")))
    let source := "affection.Alice >= 3 && !gone"
    let changes : List Change := [.set "mood" (.string "sad"), .merge [("mood", .null), ("gold", .bool true)],
      .mergeInto "gold" [("Alice", .null)], .apply ⟨[("mood", .bool false), ("silver", .null)]⟩]
    plain.eval scope = plain.eval moody ∧ (∃ found, plain.eval scope = .ok found) ∧
      misled.eval scope = .error (.memberOfNothing "Bob" .null) ∧
      Expression.Fails scope misled (.memberOfNothing "Bob" .null) ∧
      mentioned source = [affectionName, "gone"] ∧
      judge source (changes.foldl Variables.change ⟨scope⟩).bindings = judge source scope := by
  intro scope moody plain misled source changes
  obtain ⟨agreed, -, defined, -⟩ := conditions_see_what_they_name plain scope
  obtain ⟨-, failed, -, judged⟩ := conditions_see_what_they_name misled scope
  have agree : ∀ name ∈ plain.names, scope.get? name = moody.get? name := by
    intro name named
    simp only [plain, Expression.names, List.singleton_append, List.mem_cons, List.not_mem_nil, or_false] at named
    obtain rfl | rfl := named
    · rfl
    · rfl
  have failure : misled.eval scope = .error (.memberOfNothing "Bob" .null) := rfl
  have listed : mentioned source = [affectionName, "gone"] := by decide +kernel
  have apart : ∀ name ∈ mentioned source, ∀ change ∈ changes, name ∉ change.names := by
    rw [listed]
    decide
  refine ⟨agreed moody agree, defined (by simp [plain, Expression.parts]) (by decide), failure,
    failed _ failure, listed, judged source ⟨scope⟩ changes apart⟩

end Condition
end BranchingStory
