import BranchingStory.Proofs.Decimal.Finite
import BranchingStory.Proofs.Json.Members

/-!
Which JSON values are the same. Sameness carries over from one value to the next, whatever a JSON text can stand for
is the same as itself, and it does not matter which of two such values comes first.
-/

namespace BranchingStory

namespace Json

/-! ## Proper values -/

mutual

/-- What a JSON text can stand for: every number is finite, and no object has a key twice. -/
def Proper : Json → Prop
  | .number (.real value) => value.isFinite = true
  | .array items => ProperItems items
  | .object members => (members.map (·.1)).Nodup ∧ ProperMembers members
  | _ => True

def ProperItems : List Json → Prop
  | [] => True
  | item :: rest => item.Proper ∧ ProperItems rest

def ProperMembers : List (String × Json) → Prop
  | [] => True
  | (_, value) :: rest => value.Proper ∧ ProperMembers rest

end

theorem properMembers_iff {members : Members} : ProperMembers members ↔ ∀ member ∈ members, member.2.Proper := by
  induction members with
  | nil => simp [ProperMembers]
  | cons first rest ih => simp [ProperMembers, ih]

/-! ## Sameness -/

theorem sameItems_iff {left right : List Json} :
    sameItems left right = true ↔ List.Forall₂ (fun item other => item.same other = true) left right := by
  induction left generalizing right with
  | nil => cases right <;> simp [sameItems]
  | cons item rest ih => cases right <;> simp [sameItems, ih]

theorem sameMembers_iff {left right : Members} :
    sameMembers left right = true ↔
      ∀ key value, (key, value) ∈ left →
        ∃ other, Members.get? right key = some other ∧ value.same other = true := by
  induction left with
  | nil => simp [sameMembers]
  | cons first rest ih =>
      rw [sameMembers, Bool.and_eq_true, ih]
      constructor
      · rintro ⟨here, there⟩ key value member
        rcases List.mem_cons.mp member with rfl | later
        · split at here
          · rename_i other found
            exact ⟨other, found, here⟩
          · simp at here
        · exact there key value later
      · intro all
        obtain ⟨other, found, equal⟩ := all first.1 first.2 List.mem_cons_self
        refine ⟨?_, fun key value member => all key value (List.mem_cons_of_mem _ member)⟩
        rw [found]
        exact equal

theorem keys_subset_of_sameMembers {left right : Members} (same : sameMembers left right = true) :
    left.map (·.1) ⊆ right.map (·.1) := by
  intro key listed
  obtain ⟨⟨key, value⟩, member, rfl⟩ := List.mem_map.mp listed
  obtain ⟨other, found, -⟩ := sameMembers_iff.mp same key value member
  exact List.mem_map.mpr ⟨(key, other), Members.mem_of_get? found, rfl⟩

theorem Number.same_trans {left middle right : Number} (first : left.same middle = true)
    (second : middle.same right = true) : left.same right = true := by
  cases left <;> cases middle <;> simp only [Number.same, Bool.false_eq_true] at first <;>
    cases right <;> simp only [Number.same, Bool.false_eq_true] at second
  · exact BEq.trans first second
  · exact BEq.trans first second

mutual

theorem same_trans : ∀ {left middle right : Json}, left.same middle = true → middle.same right = true →
    left.same right = true
  | .null, middle, right, first, second => by
      cases middle <;> simp only [same, Bool.false_eq_true] at first
      exact second
  | .bool value, middle, right, first, second => by
      cases middle <;> simp only [same, Bool.false_eq_true, beq_iff_eq] at first
      exact first ▸ second
  | .number value, middle, right, first, second => by
      cases middle <;> simp only [same, Bool.false_eq_true] at first
      cases right <;> simp only [same, Bool.false_eq_true] at second
      exact Number.same_trans first second
  | .string text, middle, right, first, second => by
      cases middle <;> simp only [same, Bool.false_eq_true, beq_iff_eq] at first
      exact first ▸ second
  | .array items, middle, right, first, second => by
      cases middle <;> simp only [same, Bool.false_eq_true] at first
      cases right <;> simp only [same, Bool.false_eq_true] at second
      exact sameItems_trans first second
  | .object members, middle, right, first, second => by
      cases middle <;> simp only [same, Bool.false_eq_true, Bool.and_eq_true, beq_iff_eq] at first
      cases right <;> simp only [same, Bool.false_eq_true, Bool.and_eq_true, beq_iff_eq] at second
      rw [same, Bool.and_eq_true, beq_iff_eq]
      exact ⟨first.1.trans second.1, sameMembers_trans first.2 second.2⟩

theorem sameItems_trans : ∀ {left middle right : List Json}, sameItems left middle = true →
    sameItems middle right = true → sameItems left right = true
  | [], [], _, _, second => second
  | [], _ :: _, _, first, _ => by simp [sameItems] at first
  | item :: rest, middle, right, first, second => by
      cases middle <;> simp only [sameItems, Bool.false_eq_true, Bool.and_eq_true] at first
      cases right <;> simp only [sameItems, Bool.false_eq_true, Bool.and_eq_true] at second
      rw [sameItems, Bool.and_eq_true]
      exact ⟨same_trans first.1 second.1, sameItems_trans first.2 second.2⟩

theorem sameMembers_trans : ∀ {left middle right : Members}, sameMembers left middle = true →
    sameMembers middle right = true → sameMembers left right = true
  | [], _, _, _, _ => rfl
  | (key, value) :: rest, middle, right, first, second => by
      rw [sameMembers, Bool.and_eq_true] at first ⊢
      refine ⟨?_, sameMembers_trans first.2 second⟩
      cases found : Members.get? middle key with
      | none => simp [found] at first
      | some other =>
          obtain ⟨last, present, equal⟩ := sameMembers_iff.mp second key other (Members.mem_of_get? found)
          rw [present]
          simp only [found] at first
          exact same_trans first.1 equal

end

mutual

theorem same_self : ∀ {value : Json}, value.Proper → value.same value = true
  | .null, _ => rfl
  | .bool value, _ => beq_self_eq_true value
  | .number (.integer value), _ => beq_self_eq_true value
  | .number (.real _), proper => beq_self_of_isFinite proper
  | .string text, _ => beq_self_eq_true text
  | .array items, proper => sameItems_self proper
  | .object members, ⟨distinct, proper⟩ => by
      rw [same, beq_self_eq_true, Bool.true_and, sameMembers_iff]
      intro key value member
      exact ⟨value, Members.get?_of_mem distinct member, same_of_mem proper member⟩

theorem sameItems_self : ∀ {items : List Json}, ProperItems items → sameItems items items = true
  | [], _ => rfl
  | _ :: _, ⟨first, rest⟩ => by
      rw [sameItems, same_self first, sameItems_self rest]
      rfl

theorem same_of_mem : ∀ {members : Members}, ProperMembers members → ∀ {key : String} {value : Json},
    (key, value) ∈ members → value.same value = true
  | (_, _) :: _, ⟨first, rest⟩, _, _, member => by
      rcases List.mem_cons.mp member with same | later
      · obtain ⟨rfl, rfl⟩ := Prod.mk.inj same
        exact same_self first
      · exact same_of_mem rest later

end

/-! ## The other way round -/

theorem Number.same_comm (left right : Number) : left.same right = right.same left := by
  cases left <;> cases right <;> simp only [Number.same]
  · exact BEq.comm
  · exact BEq.comm

theorem mem_keys_of_length_le {left right : Members} (distinct : (left.map (·.1)).Nodup)
    (length : right.length ≤ left.length) (held : left.map (·.1) ⊆ right.map (·.1)) :
    right.map (·.1) ⊆ left.map (·.1) := by
  have perm := (List.subperm_of_subset distinct held).perm_of_length_le (by simpa using length)
  exact perm.symm.subset

mutual

theorem same_symm : ∀ {left right : Json}, left.Proper → right.Proper → left.same right = true →
    right.same left = true
  | .null, right, _, _, same => by
      cases right <;> simp only [Json.same, Bool.false_eq_true] at same
      rfl
  | .bool value, right, _, _, same => by
      cases right <;> simp only [Json.same, Bool.false_eq_true] at same
      exact BEq.symm same
  | .number value, right, _, _, same => by
      cases right <;> simp only [Json.same, Bool.false_eq_true] at same
      exact (Number.same_comm _ _).trans same
  | .string text, right, _, _, same => by
      cases right <;> simp only [Json.same, Bool.false_eq_true] at same
      exact BEq.symm same
  | .array items, right, proper, other, same => by
      cases right <;> simp only [Json.same, Bool.false_eq_true] at same
      exact sameItems_symm proper other same
  | .object members, right, ⟨distinct, proper⟩, other, same => by
      cases right <;> simp only [Json.same, Bool.false_eq_true, Bool.and_eq_true, beq_iff_eq] at same
      obtain ⟨length, same⟩ := same
      have turned := sameMembers_symm proper other.2 same
      have held := keys_subset_of_sameMembers same
      rw [Json.same, Bool.and_eq_true, beq_iff_eq, sameMembers_iff]
      refine ⟨length.symm, fun key value member => ?_⟩
      obtain ⟨⟨key, held⟩, listed, rfl⟩ :=
        List.mem_map.mp (mem_keys_of_length_le distinct length.ge held (List.mem_map_of_mem member))
      exact ⟨held, Members.get?_of_mem distinct listed,
        turned key held listed value (Members.get?_of_mem other.1 member)⟩

theorem sameItems_symm : ∀ {left right : List Json}, ProperItems left → ProperItems right →
    sameItems left right = true → sameItems right left = true
  | [], [], _, _, _ => rfl
  | [], _ :: _, _, _, same => by simp [sameItems] at same
  | _ :: _, [], _, _, same => by simp [sameItems] at same
  | _ :: _, _ :: _, ⟨first, rest⟩, ⟨other, others⟩, same => by
      rw [sameItems, Bool.and_eq_true] at same ⊢
      exact ⟨same_symm first other same.1, sameItems_symm rest others same.2⟩

theorem sameMembers_symm : ∀ {left right : Members}, ProperMembers left → ProperMembers right →
    sameMembers left right = true → ∀ key value, (key, value) ∈ left → ∀ other,
      Members.get? right key = some other → other.same value = true
  | [], _, _, _, _, _, _, member, _, _ => by cases member
  | (name, value) :: rest, right, ⟨first, later⟩, proper, same, key, held, member, other, found => by
      rw [sameMembers, Bool.and_eq_true] at same
      rcases List.mem_cons.mp member with here | there
      · obtain ⟨rfl, rfl⟩ := Prod.mk.inj here
        rw [found] at same
        exact same_symm first (properMembers_iff.mp proper _ (Members.mem_of_get? found)) same.1
      · exact sameMembers_symm later proper same.2 key held there other found

end

theorem same_comm {left right : Json} (first : left.Proper) (second : right.Proper) :
    left.same right = right.same left :=
  Bool.eq_iff_iff.mpr ⟨same_symm first second, same_symm second first⟩

end Json
end BranchingStory
