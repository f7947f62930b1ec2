import BranchingStory.Catalog
import Mathlib.Data.List.Induction

/-!
What is found in a catalog. A catalog holds what is found under its keys and nothing else, and an entry that
is put in or taken out changes only what is found under its own key.
-/

namespace BranchingStory
namespace Catalog

variable {κ α : Type} [Ord κ]

/-! ## Entries and what is found -/

@[simp] theorem get?_empty {key : κ} : (empty : Catalog κ α).get? key = none := rfl

section

variable [Std.LawfulEqOrd κ] {catalog : Catalog κ α} {key other : κ} {value : α}

theorem compare_beq_eq (key other : κ) : (compare key other == .eq) = true ↔ key = other := by
  rw [beq_iff_eq]
  exact Std.LawfulEqCmp.compare_eq_iff_eq

theorem find?_eq_some_iff {entries : List (κ × α)}
    (ascending : entries.Pairwise fun first second => compare first.1 second.1 = .lt) :
    (entries.find? fun entry => compare key entry.1 == .eq) = some (key, value) ↔
      (key, value) ∈ entries := by
  induction entries with
  | nil => simp
  | cons first rest ih =>
      obtain ⟨before, ordered⟩ := List.pairwise_cons.mp ascending
      rw [List.find?_cons]
      by_cases here : key = first.1
      · have apart : (key, value) ∉ rest := by
          intro member
          have less := before _ member
          rw [here, Std.compare_self] at less
          exact absurd less (by decide)
        rw [(compare_beq_eq key first.1).mpr here]
        simp only [Option.some.injEq, List.mem_cons, apart, or_false]
        exact eq_comm
      · have passed : (compare key first.1 == .eq) = false :=
          Bool.eq_false_iff.mpr fun same => here ((compare_beq_eq key first.1).mp same)
        have unlike : (key, value) ≠ first := fun same => here (congrArg Prod.fst same)
        rw [passed]
        simp [unlike, ih ordered]

theorem get?_eq_some_iff : catalog.get? key = some value ↔ (key, value) ∈ catalog.entries := by
  rw [← find?_eq_some_iff catalog.ascending]
  constructor
  · intro found
    obtain ⟨entry, located, rfl⟩ := Option.map_eq_some_iff.mp found
    have holds := List.find?_some located
    have same : key = entry.1 := (compare_beq_eq key entry.1).mp holds
    rw [located, same]
  · intro located
    rw [get?, located]
    rfl

theorem get?_eq_none_iff : catalog.get? key = none ↔ key ∉ catalog.keys := by
  rw [← contains_iff_mem_keys, contains, Bool.not_eq_true, Option.isSome_eq_false_iff,
    Option.isNone_iff_eq_none]

theorem nodup_keys : catalog.keys.Nodup := by
  refine catalog.ascending_keys.imp fun less same => ?_
  rw [same, Std.compare_self] at less
  exact absurd less (by decide)

theorem mem_place_of_ne {entries : List (κ × α)} {entry : κ × α} (differs : entry.1 ≠ key) :
    entry ∈ place key value entries ↔ entry ∈ entries := by
  have unlike : entry ≠ (key, value) := fun same => differs (congrArg Prod.fst same)
  induction entries with
  | nil => simp [place, unlike]
  | cons first rest ih =>
      simp only [place]
      split
      · simp [unlike]
      · rename_i same
        have other : entry ≠ first := fun equal =>
          differs ((congrArg Prod.fst equal).trans (Std.LawfulEqCmp.eq_of_compare same).symm)
        simp [unlike, other]
      · simp only [List.mem_cons, ih]

end

theorem mem_place_self {key : κ} {value : α} {entries : List (κ × α)} :
    (key, value) ∈ place key value entries := by
  induction entries with
  | nil => simp [place]
  | cons first rest ih =>
      simp only [place]
      split
      · exact List.mem_cons_self
      · exact List.mem_cons_self
      · exact List.mem_cons_of_mem _ ih

/-! ## Taking entries out -/

section

variable [Std.LawfulEqOrd κ] {catalog : Catalog κ α} {key other : κ} {value : α}

theorem get?_erase : (catalog.erase key).get? other = some value ↔ other ≠ key ∧ catalog.get? other = some value := by
  rw [get?_eq_some_iff, get?_eq_some_iff, erase, List.mem_filter, bne_iff_ne, ne_eq,
    Std.LawfulEqCmp.compare_eq_iff_eq, and_comm, eq_comm]

theorem get?_erase_self : (catalog.erase key).get? key = none :=
  Option.eq_none_iff_forall_ne_some.mpr fun _ found => (get?_erase.mp found).1 rfl

theorem erase_of_get? (absent : catalog.get? key = none) : catalog.erase key = catalog := by
  apply Catalog.ext
  refine List.filter_eq_self.mpr fun entry listed => ?_
  rw [bne_iff_ne, ne_eq, Std.LawfulEqCmp.compare_eq_iff_eq]
  rintro rfl
  exact get?_eq_none_iff.mp absent (List.mem_map_of_mem listed)

end

/-! ## Putting entries at the end -/

theorem place_of_above [Std.OrientedOrd κ] {key : κ} {value : α} {entries : List (κ × α)}
    (above : ∀ entry ∈ entries, compare entry.1 key = .lt) :
    place key value entries = entries ++ [(key, value)] := by
  induction entries with
  | nil => rfl
  | cons first rest ih =>
      have after : compare key first.1 = .gt := Std.OrientedCmp.gt_of_lt (above first List.mem_cons_self)
      rw [place, after]
      exact congrArg (first :: ·) (ih fun entry member => above entry (List.mem_cons_of_mem _ member))

/-- A key beyond all others becomes the last one. -/
theorem keys_insert_of_above [Std.TransOrd κ] [Std.LawfulEqOrd κ] {catalog : Catalog κ α} {key : κ}
    {value : α} (above : ∀ other ∈ catalog.keys, compare other key = .lt) :
    (catalog.insert key value).keys = catalog.keys ++ [key] := by
  have beyond : ∀ entry ∈ catalog.entries, compare entry.1 key = .lt :=
    fun entry member => above entry.1 (List.mem_map_of_mem member)
  simp [keys, insert, place_of_above beyond]

theorem lastKey?_eq_getLast? (catalog : Catalog κ α) : catalog.lastKey? = catalog.keys.getLast? := by
  rw [lastKey?, keys, List.getLast?_map]

/-! ## Putting entries in -/

variable [Std.TransOrd κ] [Std.LawfulEqOrd κ] {catalog : Catalog κ α} {key other : κ} {value : α}

@[simp] theorem get?_insert_self : (catalog.insert key value).get? key = some value :=
  get?_eq_some_iff.mpr mem_place_self

theorem get?_insert_of_ne (differs : other ≠ key) :
    (catalog.insert key value).get? other = catalog.get? other := by
  apply Option.ext
  intro found
  rw [get?_eq_some_iff, get?_eq_some_iff]
  exact mem_place_of_ne differs

theorem insert_of_get? (found : catalog.get? key = some value) : catalog.insert key value = catalog := by
  have member := get?_eq_some_iff.mp found
  have ordered := catalog.ascending
  apply Catalog.ext
  change place key value catalog.entries = catalog.entries
  generalize catalog.entries = entries at member ordered
  induction entries with
  | nil => simp at member
  | cons first rest ih =>
      obtain ⟨before, ascending⟩ := List.pairwise_cons.mp ordered
      rcases List.mem_cons.mp member with rfl | later
      · simp [place]
      · have after : compare key first.1 = .gt := Std.OrientedCmp.gt_of_lt (before _ later)
        rw [place, after]
        exact congrArg (first :: ·) (ih later ascending)

/-! ## Catalogs of lists -/

theorem get?_foldl_insert {pairs : List (κ × α)} (distinct : (pairs.map (·.1)).Nodup) :
    (pairs.foldl (fun catalog pair => catalog.insert pair.1 pair.2) catalog).get? key = some value ↔
      (key, value) ∈ pairs ∨ key ∉ pairs.map (·.1) ∧ catalog.get? key = some value := by
  induction pairs generalizing catalog with
  | nil => simp
  | cons first rest ih =>
      obtain ⟨name, held⟩ := first
      obtain ⟨apart, distinct⟩ := List.nodup_cons.mp distinct
      rw [List.foldl_cons, ih distinct]
      by_cases here : key = name
      · subst here
        have later : (key, value) ∉ rest := fun member => apart (List.mem_map.mpr ⟨_, member, rfl⟩)
        simp [apart, later, eq_comm]
      · rw [get?_insert_of_ne here]
        simp [here]

theorem get?_ofList_eq_some_iff {pairs : List (κ × α)} (distinct : (pairs.map (·.1)).Nodup) :
    (ofList pairs).get? key = some value ↔ (key, value) ∈ pairs := by
  rw [ofList, get?_foldl_insert distinct]
  simp

theorem get?_ofList [DecidableEq κ] (pairs : List (κ × α)) (key : κ) :
    (ofList pairs).get? key = ((pairs.filter (·.1 = key)).map (·.2)).getLast? := by
  induction pairs using List.reverseRecOn with
  | nil => rfl
  | append_singleton earlier last ih =>
      have joined : ofList (earlier ++ [last]) = (ofList earlier).insert last.1 last.2 := List.foldl_append
      rw [joined, List.filter_append]
      by_cases same : last.1 = key
      · subst same
        simp
      · rw [get?_insert_of_ne (Ne.symm same), ih]
        simp [same]

theorem ofList_entries (catalog : Catalog κ α) : ofList catalog.entries = catalog := by
  have kept : ∀ (pairs : List (κ × α)) (catalog : Catalog κ α),
      (catalog.entries ++ pairs).Pairwise (fun first second => compare first.1 second.1 = .lt) →
        (pairs.foldl (fun catalog pair => catalog.insert pair.1 pair.2) catalog).entries = catalog.entries ++ pairs := by
    intro pairs
    induction pairs with
    | nil => exact fun catalog _ => (List.append_nil _).symm
    | cons first rest ih =>
        intro catalog ascending
        have above : ∀ entry ∈ catalog.entries, compare entry.1 first.1 = .lt := fun entry listed =>
          (List.pairwise_append.mp ascending).2.2 entry listed first List.mem_cons_self
        have placed : (catalog.insert first.1 first.2).entries = catalog.entries ++ [first] := place_of_above above
        rw [List.append_cons, ← placed] at ascending
        rw [List.foldl_cons, ih _ ascending, placed, List.append_assoc]
        rfl
  apply Catalog.ext
  exact kept catalog.entries empty catalog.ascending

theorem mem_of_mem_ofList {pairs : List (κ × α)} {entry : κ × α} (listed : entry ∈ (ofList pairs).entries) :
    entry ∈ pairs := by
  have kept : ∀ (pairs : List (κ × α)) (catalog : Catalog κ α),
      entry ∈ (pairs.foldl (fun catalog pair => catalog.insert pair.1 pair.2) catalog).entries →
        entry ∈ catalog.entries ∨ entry ∈ pairs := by
    intro pairs
    induction pairs with
    | nil => exact fun catalog listed => .inl listed
    | cons first rest ih =>
        intro catalog listed
        rcases ih _ listed with earlier | later
        · rcases key_of_mem_place earlier with rfl | before
          · exact .inr List.mem_cons_self
          · exact .inl before
        · exact .inr (List.mem_cons_of_mem _ later)
  exact (kept pairs empty listed).resolve_left List.not_mem_nil

end Catalog
end BranchingStory
