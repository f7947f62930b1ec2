import BranchingStory.Json.Basic

/-!
What is found among the members of an object. A member that is set is found under its key, and changes
nothing that is found under other keys.
-/

namespace BranchingStory
namespace Members

variable {members changes : Members} {key other : String} {value : Json}

theorem get?_cons (first : String × Json) (rest : Members) :
    get? (first :: rest) key = if key = first.1 then some first.2 else get? rest key := by
  obtain ⟨name, held⟩ := first
  simp only [get?, List.lookup_cons]
  by_cases same : key = name
  · simp [same]
  · simp [same, beq_eq_false_iff_ne.mpr same]

theorem mem_of_get? (found : members.get? key = some value) : (key, value) ∈ members := by
  obtain ⟨before, after, rfl, _⟩ := List.lookup_eq_some_iff.mp found
  exact List.mem_append_right before List.mem_cons_self

theorem get?_of_mem (distinct : (members.map (·.1)).Nodup) (member : (key, value) ∈ members) :
    members.get? key = some value := by
  obtain ⟨before, after, rfl⟩ := List.append_of_mem member
  refine List.lookup_eq_some_iff.mpr ⟨before, after, rfl, fun other earlier => ?_⟩
  rw [List.map_append, List.nodup_append] at distinct
  have apart := distinct.2.2 other.1 (List.mem_map_of_mem earlier) key (by simp)
  simpa using apart.symm

theorem isSome_get?_iff : (members.get? key).isSome = true ↔ key ∈ members.map (·.1) := by
  induction members with
  | nil => simp [get?]
  | cons first rest ih =>
      rw [get?_cons, List.map_cons, List.mem_cons]
      by_cases same : key = first.1
      · simp [same]
      · simp [same, ih]

/-! ## Setting members -/

@[simp] theorem get?_set_self : (members.set key value).get? key = some value := by
  induction members with
  | nil => simp [set, get?_cons]
  | cons first rest ih =>
      rw [set]
      by_cases same : first.1 = key
      · simp [same, get?_cons]
      · simp [same, Ne.symm same, get?_cons, ih]

theorem get?_set_of_ne (differs : other ≠ key) :
    (members.set key value).get? other = members.get? other := by
  induction members with
  | nil => simp [set, differs, get?]
  | cons first rest ih =>
      rw [set]
      by_cases same : first.1 = key
      · simp [same, get?_cons, differs]
      · simp [same, get?_cons, ih]

theorem mem_keys_set :
    other ∈ (members.set key value).map (·.1) ↔ other = key ∨ other ∈ members.map (·.1) := by
  induction members with
  | nil => simp [set]
  | cons first rest ih =>
      rw [set]
      by_cases same : first.1 = key
      · simp [same]
      · simp only [if_neg same, List.map_cons, List.mem_cons, ih]
        exact or_left_comm

theorem nodup_set (distinct : (members.map (·.1)).Nodup) : ((members.set key value).map (·.1)).Nodup := by
  induction members with
  | nil => simp [set]
  | cons first rest ih =>
      obtain ⟨apart, distinct⟩ := List.nodup_cons.mp distinct
      rw [set]
      by_cases same : first.1 = key
      · rw [if_pos same]
        exact List.nodup_cons.mpr ⟨same ▸ apart, distinct⟩
      · have later : first.1 ∉ (set rest key value).map (·.1) := fun member =>
          (mem_keys_set.mp member).elim same apart
        rw [if_neg same]
        exact List.nodup_cons.mpr ⟨later, ih distinct⟩

theorem eq_or_mem_of_mem_set {member : String × Json} (listed : member ∈ members.set key value) :
    member = (key, value) ∨ member ∈ members := by
  induction members with
  | nil => exact .inl (List.mem_singleton.mp listed)
  | cons first rest ih =>
      rw [set] at listed
      by_cases same : first.1 = key
      · rw [if_pos same] at listed
        exact (List.mem_cons.mp listed).imp_right (List.mem_cons_of_mem _)
      · rw [if_neg same] at listed
        rcases List.mem_cons.mp listed with rfl | later
        · exact .inr List.mem_cons_self
        · exact (ih later).imp_right (List.mem_cons_of_mem _)

theorem mem_or_mem_of_mem_merge {member : String × Json} (listed : member ∈ members.merge changes) :
    member ∈ members ∨ member ∈ changes := by
  induction changes generalizing members with
  | nil => exact .inl listed
  | cons first rest ih =>
      rcases ih listed with earlier | later
      · rcases eq_or_mem_of_mem_set earlier with rfl | before
        · exact .inr List.mem_cons_self
        · exact .inl before
      · exact .inr (List.mem_cons_of_mem _ later)

theorem nodup_merge (distinct : (members.map (·.1)).Nodup) : ((members.merge changes).map (·.1)).Nodup := by
  induction changes generalizing members with
  | nil => exact distinct
  | cons first rest ih => exact ih (nodup_set distinct)

theorem set_of_not_mem (absent : key ∉ members.map (·.1)) : members.set key value = members ++ [(key, value)] := by
  induction members with
  | nil => rfl
  | cons first rest ih =>
      rw [List.map_cons, List.mem_cons, not_or] at absent
      rw [set, if_neg (Ne.symm absent.1), ih absent.2]
      rfl

theorem merge_of_nodup (distinct : ((members ++ changes).map (·.1)).Nodup) :
    members.merge changes = members ++ changes := by
  induction changes generalizing members with
  | nil => exact (List.append_nil members).symm
  | cons first rest ih =>
      have fresh : first.1 ∉ members.map (·.1) := by
        rw [List.map_append, List.nodup_append] at distinct
        exact fun earlier => distinct.2.2 _ earlier _ List.mem_cons_self rfl
      rw [List.append_cons] at distinct ⊢
      rw [← ih distinct, ← set_of_not_mem fresh]
      rfl

theorem ofList_of_nodup (distinct : (members.map (·.1)).Nodup) : ofList members = members :=
  merge_of_nodup distinct

theorem get?_merge_of_not_mem (absent : key ∉ changes.map (·.1)) :
    (members.merge changes).get? key = members.get? key := by
  induction changes generalizing members with
  | nil => rfl
  | cons first rest ih =>
      rw [List.map_cons, List.mem_cons, not_or] at absent
      exact (ih absent.2).trans (get?_set_of_ne absent.1)

theorem get?_merge (distinct : (changes.map (·.1)).Nodup) :
    (members.merge changes).get? key = (changes.get? key).or (members.get? key) := by
  induction changes generalizing members with
  | nil => rfl
  | cons first rest ih =>
      obtain ⟨apart, distinct⟩ := List.nodup_cons.mp distinct
      have onward : (members.merge (first :: rest)).get? key =
          (get? rest key).or ((members.set first.1 first.2).get? key) := ih distinct
      rw [onward, get?_cons]
      by_cases same : key = first.1
      · subst same
        have later : get? rest first.1 = none :=
          Option.not_isSome_iff_eq_none.mp fun found => apart (isSome_get?_iff.mp found)
        rw [later, if_pos rfl, get?_set_self]
        rfl
      · rw [if_neg same, get?_set_of_ne same]

end Members
end BranchingStory
