import BranchingStory.Condition.Expression
import BranchingStory.Proofs.Json.Sameness

/-!
How the values of conditions compare. Both equalities and the order treat their two sides alike, every value but one
that is no number equals itself, and loose equality, told clause by clause, always comes to an answer.
-/

namespace BranchingStory.Condition

open Float.Model (UnpackedFloat)
open Float.Model.UnpackedFloat (Sign)

/-! ## Floats -/

theorem compare_sign_swap (left right : Sign) : (compare left right).swap = compare right left := by
  cases left <;> cases right <;> rfl

theorem UnpackedFloat.compare_swap (left right : UnpackedFloat) :
    (left.compare right).map Ordering.swap = right.compare left := by
  cases left with
  | notANumber => cases right <;> rfl
  | infinity sign =>
      cases right with
      | infinity other => exact congrArg some (compare_sign_swap sign other)
      | notANumber => cases sign <;> rfl
      | zero other => cases sign <;> rfl
      | finite other => cases sign <;> rfl
  | zero sign =>
      cases right with
      | infinity other => cases other <;> rfl
      | notANumber => rfl
      | zero other => rfl
      | finite other => cases other <;> rfl
  | finite sign significand exponent =>
      cases right with
      | infinity other => cases other <;> rfl
      | notANumber => rfl
      | zero other => cases sign <;> rfl
      | finite other digits power =>
          have swapped : ((compare exponent power).then (compare significand digits)).swap =
              (compare power exponent).then (compare digits significand) := by
            rw [Ordering.swap_then, Int.compare_swap, Nat.compare_swap]
          cases sign <;> cases other
          · exact congrArg (some ·.swap) swapped
          · rfl
          · rfl
          · exact congrArg some swapped

def Order.reverse : Order → Order
  | .less => .greater
  | .equal => .equal
  | .greater => .less

def Order.ofOrdering : Ordering → Order
  | .lt => .less
  | .eq => .equal
  | .gt => .greater

/-- Of the three questions that are asked of two floats, at most one has the answer yes. -/
theorem compareFloats_eq (left right : Float) :
    Operand.compareFloats left right = (left.toModel.unpack.compare right.toModel.unpack).map Order.ofOrdering := by
  have swapped := UnpackedFloat.compare_swap left.toModel.unpack right.toModel.unpack
  have less (x y : Float) : x < y ↔ x.toModel.unpack.compare y.toModel.unpack = some .lt := by
    change decide (UnpackedFloat.lt x.toModel.unpack y.toModel.unpack = true) = true ↔ _
    rw [decide_eq_true_eq]
    exact beq_iff_eq
  have equal : (left == right) = true ↔ left.toModel.unpack.compare right.toModel.unpack = some .eq := by
    change UnpackedFloat.beq left.toModel.unpack right.toModel.unpack = true ↔ _
    exact beq_iff_eq
  rw [Operand.compareFloats]
  simp only [less, equal, ← swapped]
  cases left.toModel.unpack.compare right.toModel.unpack with
  | none => rfl
  | some order => cases order <;> rfl

namespace Operand

variable {left right : Operand}

/-- What an operand can be: any number, and of JSON values those that a text can stand for. -/
def Proper : Operand → Prop
  | .array items => (Json.array items).Proper
  | .object members => (Json.object members).Proper
  | _ => True

theorem identical_comm (first : left.Proper) (second : right.Proper) : left.identical right = right.identical left := by
  cases left <;> cases right <;> simp only [identical]
  · exact BEq.comm
  · exact BEq.comm
  · exact BEq.comm
  · exact Json.same_comm first second
  · exact Json.same_comm first second

theorem identical_self (proper : left.Proper) (definite : left ≠ .number Float.nan) : left.identical left = true := by
  cases left with
  | undefined | null => rfl
  | bool value => exact beq_self_eq_true value
  | number value => exact Float.beq_self_iff.mpr fun indefinite => definite (congrArg Operand.number indefinite)
  | text value => exact beq_self_eq_true value
  | array items => exact Json.same_self proper
  | object members => exact Json.same_self proper

/-! ## Order -/

theorem compareFloats_reverse (x y : Float) : compareFloats y x = (compareFloats x y).map Order.reverse := by
  rw [compareFloats_eq, compareFloats_eq, ← UnpackedFloat.compare_swap, Option.map_map, Option.map_map]
  congr 1
  funext order
  cases order <;> rfl

theorem compare?_reverse (left right : Operand) : right.compare? left = (left.compare? right).map Order.reverse := by
  have floats := compareFloats_reverse left.toNumber right.toNumber
  cases left with
  | text value =>
      cases right with
      | text other =>
          simp only [compare?, Option.map_some, Option.some.injEq]
          rcases lt_trichotomy value other with less | rfl | greater
          · simp [less, String.lt_asymm less, less.ne', Order.reverse]
          · simp [Order.reverse]
          · simp [greater, String.lt_asymm greater, greater.ne', Order.reverse]
      | _ => exact floats
  | _ => cases right <;> exact floats

/-! ## Loose equality -/

/-- How loose equality is settled, clause by clause: with an answer, or with operands that are compared instead. The
first clause that fits counts. -/
def clause (left right : Operand) : Bool ⊕ Operand × Operand :=
  match left, right with
  | .undefined, .undefined | .undefined, .null | .null, .undefined | .null, .null => .inl true
  | .undefined, _ | .null, _ | _, .undefined | _, .null => .inl false
  | .bool _, _ => .inr (.number left.toNumber, right)
  | _, .bool _ => .inr (left, .number right.toNumber)
  | .number value, .text _ => .inl (value == right.toNumber)
  | .text _, .number value => .inl (left.toNumber == value)
  | .array _, .number _ | .array _, .text _ | .object _, .number _ | .object _, .text _ =>
      .inr (.text left.display, right)
  | .number _, .array _ | .number _, .object _ | .text _, .array _ | .text _, .object _ =>
      .inr (left, .text right.display)
  | _, _ => .inl (left.identical right)

inductive Settles : Operand → Operand → Bool → Prop
  | answer {left right : Operand} {answer : Bool} (found : clause left right = .inl answer) : Settles left right answer
  | instead {left right other another : Operand} {answer : Bool} (found : clause left right = .inr (other, another))
      (more : Settles other another answer) : Settles left right answer

def turns : Operand → Nat
  | .bool _ | .array _ | .object _ => 1
  | _ => 0

theorem looselyEqual_of_answer {answer : Bool} (found : clause left right = .inl answer) :
    left.looselyEqual right = answer := by
  cases left <;> cases right <;> cases found <;> rfl

theorem looselyEqual_of_instead {other another : Operand} (found : clause left right = .inr (other, another)) :
    left.looselyEqual right = other.looselyEqual another ∧ other.turns + another.turns < left.turns + right.turns := by
  cases left <;> cases right <;> cases found <;> exact ⟨rfl, by simp [turns]⟩

/-- The clauses always come to an answer, and it is the one of loose equality. -/
theorem settles_iff {answer : Bool} : Settles left right answer ↔ left.looselyEqual right = answer := by
  constructor
  · intro settles
    induction settles with
    | answer found => exact looselyEqual_of_answer found
    | instead found _ ih => exact (looselyEqual_of_instead found).1.trans ih
  · rintro rfl
    -- on the operands that are still to be turned
    induction turned : left.turns + right.turns using Nat.strong_induction_on generalizing left right with
    | _ count ih =>
        cases found : clause left right with
        | inl answer =>
            rw [looselyEqual_of_answer found]
            exact .answer found
        | inr pair =>
            obtain ⟨same, fewer⟩ := looselyEqual_of_instead found
            rw [same]
            exact .instead found (ih _ (turned ▸ fewer) rfl)

theorem scalarEqual_comm (first : left.Proper) (second : right.Proper) :
    scalarEqual left right = scalarEqual right left := by
  have strict := identical_comm first second
  cases left <;> cases right <;> first | exact strict | exact BEq.comm

theorem unbool_proper (proper : left.Proper) : left.unbool.Proper := by
  cases left <;> exact proper

theorem looselyEqual_comm (first : left.Proper) (second : right.Proper) :
    left.looselyEqual right = right.looselyEqual left := by
  have one := unbool_proper first
  have two := unbool_proper second
  simp only [looselyEqual, Bool.or_comm right.isNothing, Bool.and_comm right.isNothing]
  split
  · rfl
  · generalize left.unbool = left at one ⊢
    generalize right.unbool = right at two ⊢
    cases left.isComposite <;> cases right.isComposite <;> simp only [Bool.not_false, Bool.not_true, Bool.and_true,
      Bool.and_false, Bool.false_eq_true, if_true, if_false]
    · exact scalarEqual_comm one two
    · exact scalarEqual_comm one trivial
    · exact scalarEqual_comm trivial two
    · exact scalarEqual_comm one two

theorem looselyEqual_of_identical (same : left.identical right = true) : left.looselyEqual right = true := by
  cases left <;> cases right <;> simp only [identical, Bool.false_eq_true] at same
  case undefined.undefined | null.null => rfl
  case bool.bool value other =>
    obtain rfl := beq_iff_eq.mp same
    cases value <;> decide
  all_goals exact same

theorem looselyEqual_of_isNothing (nothing : left.isNothing = true) : left.looselyEqual right = right.isNothing := by
  rw [looselyEqual, nothing, Bool.true_or, if_pos rfl, Bool.true_and]

end Operand

open Operand (Settles)

/-- What holds of the comparisons whatever is compared. Only a number that is none differs from itself. -/
theorem comparisons_are_lawful {left right : Operand} (first : left.Proper) (second : right.Proper) :
    (∀ answer, Settles left right answer ↔ left.looselyEqual right = answer) ∧
      left.looselyEqual right = right.looselyEqual left ∧
      left.identical right = right.identical left ∧
      (left.identical right = true → left.looselyEqual right = true) ∧
      (left ≠ .number Float.nan → left.identical left = true ∧ left.looselyEqual left = true) ∧
      right.compare? left = (left.compare? right).map Order.reverse ∧
      BinaryOp.less.apply left right = BinaryOp.greater.apply right left ∧
      BinaryOp.atMost.apply left right = BinaryOp.atLeast.apply right left ∧
      (BinaryOp.atMost.apply left right = .bool true ↔
        BinaryOp.less.apply left right = .bool true ∨ left.compare? right = some .equal) ∧
      (left.isNothing = true → (left.looselyEqual right = true ↔ right.isNothing = true)) := by
  have turned := left.compare?_reverse right
  have exchanged (order : Order) :
      (right.compare? left == some order.reverse) = (left.compare? right == some order) := by
    rw [turned]
    cases left.compare? right with
    | none => rfl
    | some found => cases found <;> cases order <;> rfl
  refine ⟨fun _ => Operand.settles_iff, Operand.looselyEqual_comm first second, Operand.identical_comm first second,
    Operand.looselyEqual_of_identical, fun definite => ?_, turned, ?_, ?_, ?_, fun nothing => ?_⟩
  · have strict := Operand.identical_self first definite
    exact ⟨strict, Operand.looselyEqual_of_identical strict⟩
  · exact congrArg Operand.bool (exchanged .less).symm
  · exact congrArg Operand.bool (congrArg₂ or (exchanged .less).symm (exchanged .equal).symm)
  · simp [BinaryOp.apply]
  · rw [Operand.looselyEqual_of_isNothing nothing]

theorem turned_members_are_lawful :
    let left : Operand := .object [("a", .array [.number (.real 1.5)]), ("b", .null)]
    let right : Operand := .object [("b", .null), ("a", .array [.number (.real 1.5)])]
    left.Proper ∧ right.Proper ∧ left.identical right = true ∧ left.identical right = right.identical left ∧
      left.looselyEqual right = right.looselyEqual left ∧
      right.compare? left = (left.compare? right).map Order.reverse := by
  have first : (Operand.object [("a", .array [.number (.real 1.5)]), ("b", .null)]).Proper := by
    simp [Operand.Proper, Json.Proper, Json.ProperMembers, Json.ProperItems]
    decide
  have second : (Operand.object [("b", .null), ("a", .array [.number (.real 1.5)])]).Proper := by
    simp [Operand.Proper, Json.Proper, Json.ProperMembers, Json.ProperItems]
    decide
  obtain ⟨-, loose, strict, -, -, turned, -⟩ := comparisons_are_lawful first second
  exact ⟨first, second, by decide, strict, loose, turned⟩

end BranchingStory.Condition
