/-!
Tables in ascending order of their keys. Every operation keeps the order, so two catalogs with the same
entries are equal.
-/

namespace BranchingStory

/-- A table in ascending order of its keys, each of which it holds once. -/
@[ext] structure Catalog (κ α : Type) [Ord κ] where
  entries : List (κ × α)
  ascending : entries.Pairwise fun first second => compare first.1 second.1 = .lt

namespace Catalog

variable {κ α : Type} [Ord κ]

/-- Puts an entry in its place; an entry of the same key gives way to it. -/
def place (key : κ) (value : α) : List (κ × α) → List (κ × α)
  | [] => [(key, value)]
  | entry :: rest =>
      match compare key entry.1 with
      | .lt => (key, value) :: entry :: rest
      | .eq => (key, value) :: rest
      | .gt => entry :: place key value rest

theorem key_of_mem_place [Std.LawfulEqOrd κ] {key : κ} {value : α} {entries : List (κ × α)}
    {entry : κ × α} (member : entry ∈ place key value entries) :
    entry = (key, value) ∨ entry ∈ entries := by
  induction entries with
  | nil => simpa [place] using member
  | cons first rest ih =>
      simp only [place] at member
      split at member
      · simpa using member
      · rcases List.mem_cons.mp member with same | later
        · exact .inl same
        · exact .inr (List.mem_cons_of_mem _ later)
      · rcases List.mem_cons.mp member with same | later
        · exact .inr (same ▸ List.mem_cons_self)
        · exact (ih later).imp_right (List.mem_cons_of_mem _)

theorem ascending_place [Std.TransOrd κ] [Std.LawfulEqOrd κ] (key : κ) (value : α)
    (entries : List (κ × α))
    (ascending : entries.Pairwise fun first second => compare first.1 second.1 = .lt) :
    (place key value entries).Pairwise fun first second => compare first.1 second.1 = .lt := by
  induction entries with
  | nil => simp [place]
  | cons first rest ih =>
      obtain ⟨before, ordered⟩ := List.pairwise_cons.mp ascending
      simp only [place]
      split
      · rename_i less
        refine List.pairwise_cons.mpr ⟨fun entry member => ?_, ascending⟩
        rcases List.mem_cons.mp member with same | later
        · exact same ▸ less
        · exact Std.TransCmp.lt_trans less (before entry later)
      · rename_i same
        have equal := Std.LawfulEqCmp.eq_of_compare same
        subst equal
        exact List.pairwise_cons.mpr ⟨before, ordered⟩
      · rename_i greater
        refine List.pairwise_cons.mpr ⟨fun entry member => ?_, ih ordered⟩
        rcases key_of_mem_place member with same | later
        · exact same ▸ Std.OrientedCmp.lt_of_gt greater
        · exact before entry later

def empty : Catalog κ α := ⟨[], .nil⟩

instance : Inhabited (Catalog κ α) := ⟨empty⟩

def insert [Std.TransOrd κ] [Std.LawfulEqOrd κ] (catalog : Catalog κ α) (key : κ) (value : α) :
    Catalog κ α :=
  ⟨place key value catalog.entries, ascending_place key value _ catalog.ascending⟩

def ofList [Std.TransOrd κ] [Std.LawfulEqOrd κ] (pairs : List (κ × α)) : Catalog κ α :=
  pairs.foldl (fun catalog pair => catalog.insert pair.1 pair.2) empty

def get? (catalog : Catalog κ α) (key : κ) : Option α :=
  (catalog.entries.find? fun entry => compare key entry.1 == .eq).map (·.2)

def erase (catalog : Catalog κ α) (key : κ) : Catalog κ α :=
  ⟨catalog.entries.filter fun entry => compare key entry.1 != .eq,
    catalog.ascending.sublist List.filter_sublist⟩

def contains (catalog : Catalog κ α) (key : κ) : Bool := (catalog.get? key).isSome

def keys (catalog : Catalog κ α) : List κ := catalog.entries.map (·.1)

def values (catalog : Catalog κ α) : List α := catalog.entries.map (·.2)

def isEmpty (catalog : Catalog κ α) : Bool := catalog.entries.isEmpty

theorem contains_iff_mem_keys [Std.LawfulEqOrd κ] {catalog : Catalog κ α} {key : κ} :
    catalog.contains key = true ↔ key ∈ catalog.keys := by
  simp only [contains, get?, keys, Option.isSome_map, List.find?_isSome, List.mem_map]
  constructor
  · rintro ⟨entry, member, same⟩
    exact ⟨entry, member, (Std.LawfulEqCmp.eq_of_compare (beq_iff_eq.mp same)).symm⟩
  · rintro ⟨entry, member, rfl⟩
    exact ⟨entry, member, by simp [Std.ReflCmp.compare_self]⟩

theorem mem_keys_place [Std.LawfulEqOrd κ] {key other : κ} {value : α} {entries : List (κ × α)} :
    other ∈ (place key value entries).map (·.1) ↔ other = key ∨ other ∈ entries.map (·.1) := by
  induction entries with
  | nil => simp [place]
  | cons first rest ih =>
      simp only [place]
      split
      · simp
      · rename_i same
        simp [Std.LawfulEqCmp.eq_of_compare same]
      · simp only [List.map_cons, List.mem_cons, ih]
        exact or_left_comm

theorem mem_keys_insert [Std.TransOrd κ] [Std.LawfulEqOrd κ] {catalog : Catalog κ α} {key other : κ}
    {value : α} : other ∈ (catalog.insert key value).keys ↔ other = key ∨ other ∈ catalog.keys :=
  mem_keys_place

theorem ascending_keys (catalog : Catalog κ α) :
    catalog.keys.Pairwise fun first second => compare first second = .lt :=
  List.pairwise_map.mpr catalog.ascending

def lastKey? (catalog : Catalog κ α) : Option κ := catalog.entries.getLast?.map (·.1)

end Catalog
end BranchingStory
