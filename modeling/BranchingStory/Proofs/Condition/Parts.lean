import BranchingStory.Condition.Operand
import BranchingStory.Proofs.Decimal.Digits
import BranchingStory.Proofs.Decimal.Sum
import BranchingStory.Proofs.Json.Sameness

/-!
Equality of arrays and objects, and of their parts. Parts that are numbers are compared as floats, but within an array
or an object they are compared as they are written. Where that makes no difference, arrays and objects are equal just
as far as their parts are.
-/

namespace BranchingStory

/-! ## Numbers -/

/-- Two numbers that are the same once they are floats are the same as they are written. -/
def Json.Uniform : Json → Json → Prop
  | .number left, .number right => (left.toFloat == right.toFloat) = true → left.same right = true
  | _, _ => True

theorem Number.toFloat_beq_of_same {left right : Number} (same : left.same right = true) :
    (left.toFloat == right.toFloat) = true := by
  cases left <;> cases right <;> simp only [Number.same, Bool.false_eq_true] at same
  · obtain rfl := beq_iff_eq.mp same
    exact ofInt_beq_self _
  · exact same

/-- An integer that a float holds exactly, or a float that is not whole. -/
def Json.Usual : Json → Prop
  | .number (.integer value) => value.natAbs ≤ 2 ^ 53
  | .number (.real value) => wholeNumber? value = none
  | _ => True

theorem Json.Usual.uniform {left right : Json} (first : left.Usual) (second : right.Usual) : left.Uniform right := by
  cases left <;> cases right <;> try trivial
  case number.number left right =>
    intro same
    cases left with
    | integer value =>
        have whole := wholeNumber?_ofInt first
        cases right with
        | integer other =>
            have found := wholeNumber?_of_beq same (wholeNumber?_ofInt second)
            exact beq_iff_eq.mpr (Option.some.inj (whole.symm.trans found))
        | real other =>
            have found := wholeNumber?_of_beq (BEq.symm same) whole
            exact absurd (second.symm.trans found) (Option.some_ne_none value).symm
    | real value =>
        cases right with
        | integer other =>
            have found := wholeNumber?_of_beq same (wholeNumber?_ofInt second)
            exact absurd (first.symm.trans found) (Option.some_ne_none other).symm
        | real other => exact same

namespace Condition

open Operand (ofJson)

/-! ## Values and their parts -/

theorem same_iff_identical {left right : Json} :
    left.same right = true ↔ (ofJson left).identical (ofJson right) = true ∧ left.Uniform right := by
  cases left <;> cases right <;> try exact (and_iff_left trivial).symm
  case number.number left right =>
    exact ⟨fun same => ⟨Number.toFloat_beq_of_same same, fun _ => same⟩, fun both => both.2 both.1⟩

/-! ## Arrays -/

section

variable {left right : List Json}

theorem array_identical_iff :
    (Operand.array left).identical (.array right) = true ↔
      left.length = right.length ∧ ∀ (i : Nat) (item other : Json), left[i]? = some item → right[i]? = some other →
        (ofJson item).identical (ofJson other) = true ∧ item.Uniform other := by
  change Json.sameItems left right = true ↔ _
  simp only [Json.sameItems_iff, List.forall₂_iff_get, same_iff_identical, List.get_eq_getElem]
  constructor
  · rintro ⟨length, pairs⟩
    refine ⟨length, fun i item other first second => ?_⟩
    obtain ⟨below, rfl⟩ := List.getElem?_eq_some_iff.mp first
    obtain ⟨inside, rfl⟩ := List.getElem?_eq_some_iff.mp second
    exact pairs i below inside
  · rintro ⟨length, pairs⟩
    exact ⟨length, fun i below inside =>
      pairs i _ _ (List.getElem?_eq_getElem below) (List.getElem?_eq_getElem inside)⟩

theorem index?_toString {number : Nat} (small : number < 2 ^ 64) : index? (toString number) = some number := by
  have digits : (toString number).toList = Nat.toDigits 10 number := Nat.toList_repr
  have all : ∀ c ∈ Nat.toDigits 10 number, Numeral.isDigit c = true := fun c => Numeral.isDigit_of_mem_toDigits
  have read := Numeral.value_toDigits number
  obtain ⟨first, rest, same⟩ := List.exists_cons_of_ne_nil (l := Nat.toDigits 10 number) Nat.toDigits_ne_nil
  rw [same] at digits all read
  have plain : first ≠ '+' := by
    rintro rfl
    exact absurd (all '+' List.mem_cons_self) (by decide)
  have whole : (first :: rest).all Numeral.isDigit = true := List.all_eq_true.mpr all
  have fits : number < 18446744073709551616 := small
  simp only [index?, digits]
  split
  · rename_i more same
    exact absurd (List.cons.inj same).1 plain
  · simp only [whole, read, List.isEmpty_cons, Bool.not_true, Bool.or_false, Bool.false_eq_true, if_false, if_pos fits]

theorem member_toString {items : List Json} {i : Nat} {item : Json} (found : items[i]? = some item) (few : i < 2 ^ 64) :
    (Operand.array items).member (toString i) = .ok (ofJson item) := by
  have other : toString i ≠ "length" := by
    intro same
    have digits : (toString i).toList = Nat.toDigits 10 i := Nat.toList_repr
    have letter : 'l' ∈ Nat.toDigits 10 i := by rw [← digits, same]; decide
    exact absurd (Numeral.isDigit_of_mem_toDigits letter) (by decide)
  simp only [Operand.member, if_neg other, Operand.at?, index?_toString few, Option.bind_some, found]

theorem array_identical_of_usual (first : ∀ item ∈ left, item.Usual) (second : ∀ item ∈ right, item.Usual)
    (few : left.length < 2 ^ 64) :
    (Operand.array left).identical (.array right) = true ↔
      left.length = right.length ∧ ∀ i < left.length, ∃ item other,
        (Operand.array left).member (toString i) = .ok item ∧ (Operand.array right).member (toString i) = .ok other ∧
          item.identical other = true := by
  rw [array_identical_iff]
  refine and_congr_right fun length => ⟨fun pairs i below => ?_, fun pairs i item other here there => ?_⟩
  · have here := List.getElem?_eq_getElem below
    have there := List.getElem?_eq_getElem (length ▸ below)
    exact ⟨_, _, member_toString here (by omega), member_toString there (by omega), (pairs i _ _ here there).1⟩
  · obtain ⟨below, -⟩ := List.getElem?_eq_some_iff.mp here
    obtain ⟨one, two, found, present, same⟩ := pairs i below
    obtain rfl := Except.ok.inj ((member_toString here (by omega)).symm.trans found)
    obtain rfl := Except.ok.inj ((member_toString there (by omega)).symm.trans present)
    exact ⟨same, (first item (List.mem_of_getElem? here)).uniform (second other (List.mem_of_getElem? there))⟩

end

/-! ## Objects -/

section

variable {left right : Members}

theorem object_identical_iff (first : (Json.object left).Proper) (second : (Json.object right).Proper) :
    (Operand.object left).identical (.object right) = true ↔
      (∀ key, (left.get? key).isSome = (right.get? key).isSome) ∧
        ∀ key value other, left.get? key = some value → right.get? key = some other →
          (ofJson value).identical (ofJson other) = true ∧ value.Uniform other := by
  have forward : (Operand.object left).identical (.object right) = true ↔
      left.length = right.length ∧ ∀ key value, (key, value) ∈ left →
        ∃ other, right.get? key = some other ∧ value.same other = true := by
    change (left.length == right.length && Json.sameMembers left right) = true ↔ _
    rw [Bool.and_eq_true, beq_iff_eq, Json.sameMembers_iff]
  simp only [forward, ← same_iff_identical]
  constructor
  · rintro ⟨length, all⟩
    have held := Json.keys_subset_of_sameMembers (Json.sameMembers_iff.mpr all)
    have back := Json.mem_keys_of_length_le first.1 length.ge held
    refine ⟨fun key => ?_, fun key value other here there => ?_⟩
    · rw [Bool.eq_iff_iff, Members.isSome_get?_iff, Members.isSome_get?_iff]
      exact ⟨fun listed => held listed, fun listed => back listed⟩
    · obtain ⟨found, present, same⟩ := all key value (Members.mem_of_get? here)
      obtain rfl := Option.some.inj (present.symm.trans there)
      exact same
  · rintro ⟨keys, all⟩
    have perm : (left.map (·.1)).Perm (right.map (·.1)) := by
      refine (List.perm_ext_iff_of_nodup first.1 second.1).mpr fun key => ?_
      rw [← Members.isSome_get?_iff, ← Members.isSome_get?_iff, keys]
    refine ⟨by simpa using perm.length_eq, fun key value member => ?_⟩
    have here := Members.get?_of_mem first.1 member
    have present := keys key
    rw [here] at present
    obtain ⟨other, there⟩ := Option.isSome_iff_exists.mp present.symm
    exact ⟨other, there, all key value other here there⟩

theorem member_of_get? {members : Members} {key : String} {value : Json} (found : members.get? key = some value) :
    (Operand.object members).member key = .ok (ofJson value) := by
  rw [Operand.member, found]

theorem object_identical_of_usual (first : (Json.object left).Proper) (second : (Json.object right).Proper)
    (usual : ∀ member ∈ left, member.2.Usual) (others : ∀ member ∈ right, member.2.Usual) :
    (Operand.object left).identical (.object right) = true ↔
      (∀ key, (left.get? key).isSome = (right.get? key).isSome) ∧
        ∀ key, (left.get? key).isSome = true → ∃ value other,
          (Operand.object left).member key = .ok value ∧ (Operand.object right).member key = .ok other ∧
            value.identical other = true := by
  rw [object_identical_iff first second]
  refine and_congr_right fun keys => ⟨fun pairs key listed => ?_, fun pairs key value other here there => ?_⟩
  · obtain ⟨value, here⟩ := Option.isSome_iff_exists.mp listed
    obtain ⟨other, there⟩ := Option.isSome_iff_exists.mp ((keys key).symm.trans listed)
    exact ⟨_, _, member_of_get? here, member_of_get? there, (pairs key value other here there).1⟩
  · obtain ⟨one, two, found, present, same⟩ := pairs key (by rw [here]; rfl)
    obtain rfl := Except.ok.inj ((member_of_get? here).symm.trans found)
    obtain rfl := Except.ok.inj ((member_of_get? there).symm.trans present)
    exact ⟨same, (usual _ (Members.mem_of_get? here)).uniform (others _ (Members.mem_of_get? there))⟩

end

example :
    (ofJson (.number (.integer 1))).identical (ofJson (.number (.real 1))) = true ∧
      (Operand.array [.number (.integer 1)]).identical (.array [.number (.real 1)]) = false := by
  decide

end Condition
end BranchingStory
