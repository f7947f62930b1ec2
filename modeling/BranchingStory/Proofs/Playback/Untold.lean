import BranchingStory.Playback.Context

/-!
The entries of a context that have not been told, in the order in which they will be. The next entry is the
first of them, and telling it leaves the others.
-/

namespace BranchingStory
namespace Playback
namespace Context

theorem mem_of_lt_firstMissing {start number : Nat} {numbers : List Nat} (low : start ≤ number)
    (high : number < firstMissing start numbers) : number ∈ numbers := by
  induction numbers generalizing start with
  | nil =>
      simp only [firstMissing] at high
      omega
  | cons first rest ih =>
      simp only [firstMissing] at high
      split at high
      · by_cases same : number = first
        · exact same ▸ List.mem_cons_self
        · exact List.mem_cons_of_mem _ (ih (by omega : start + 1 ≤ number) high)
      · omega

def untoldFrom (processed : Catalog Nat Unit) : Nat → List Entry → List Entry
  | _, [] => []
  | index, entry :: rest =>
      if index ∈ processed.keys then untoldFrom processed (index + 1) rest
      else entry :: untoldFrom processed (index + 1) rest

def untold (context : Context) : List Entry := untoldFrom context.processed 0 context.entries

theorem untold_start (story : Story) : (start story).untold = story := by
  have all : ∀ index entries, untoldFrom .empty index entries = entries := by
    intro index entries
    induction entries generalizing index with
    | nil => rfl
    | cons entry rest ih =>
        have fresh : index ∉ (Catalog.empty : Catalog Nat Unit).keys := by
          simp [Catalog.empty, Catalog.keys]
        simp [untoldFrom, fresh, ih]
  exact all 0 story

theorem untoldFrom_eq_nil {processed : Catalog Nat Unit} {start : Nat} {entries : List Entry}
    (told : ∀ index, start ≤ index → index < start + entries.length → index ∈ processed.keys) :
    untoldFrom processed start entries = [] := by
  induction entries generalizing start with
  | nil => rfl
  | cons entry rest ih =>
      have first : start ∈ processed.keys := told start (Nat.le_refl _) (by simp)
      rw [untoldFrom, if_pos first]
      apply ih
      intro index low high
      apply told index (by omega)
      simp only [List.length_cons]
      omega

theorem untoldFrom_insert_of_lt {processed : Catalog Nat Unit} {index start : Nat}
    (before : index < start) (entries : List Entry) :
    untoldFrom (processed.insert index ()) start entries = untoldFrom processed start entries := by
  induction entries generalizing start with
  | nil => rfl
  | cons entry rest ih =>
      have other : start ≠ index := by omega
      simp [untoldFrom, Catalog.mem_keys_insert, other, ih (Nat.lt_succ_of_lt before)]

theorem untoldFrom_eq_cons {processed : Catalog Nat Unit} {start index : Nat} {entries : List Entry}
    {entry : Entry} (low : start ≤ index) (present : entries[index - start]? = some entry)
    (fresh : index ∉ processed.keys)
    (told : ∀ earlier, start ≤ earlier → earlier < index → earlier ∈ processed.keys) :
    untoldFrom processed start entries =
      entry :: untoldFrom (processed.insert index ()) start entries := by
  induction entries generalizing start with
  | nil => simp at present
  | cons first rest ih =>
      by_cases here : start = index
      · subst here
        simp only [Nat.sub_self, List.getElem?_cons_zero, Option.some.injEq] at present
        subst present
        simp [untoldFrom, Catalog.mem_keys_insert, fresh, untoldFrom_insert_of_lt (Nat.lt_add_one start)]
      · have later : start + 1 ≤ index := by omega
        have shifted : index - start = (index - (start + 1)) + 1 := by omega
        rw [shifted, List.getElem?_cons_succ] at present
        have passed : start ∈ processed.keys := told start (Nat.le_refl _) (by omega)
        have tail := ih later present fun earlier low high => told earlier (by omega) high
        simpa [untoldFrom, Catalog.mem_keys_insert, here, passed] using tail

theorem untold_eq_nil {context : Context} (exhausted : context.next? = none) : context.untold = [] := by
  simp only [next?, Option.map_eq_none_iff, List.getElem?_eq_none_iff] at exhausted
  apply untoldFrom_eq_nil
  intro index low high
  exact mem_of_lt_firstMissing low (by omega)

theorem untold_eq_cons {context : Context} {index : Nat} {entry : Entry}
    (found : context.next? = some (index, entry)) :
    context.untold = entry :: (context.mark index).untold := by
  obtain ⟨present, fresh⟩ := next?_eq_some found
  simp only [next?, Option.map_eq_some_iff, Prod.mk.injEq] at found
  obtain ⟨_, _, first, _⟩ := found
  apply untoldFrom_eq_cons (Nat.zero_le index) present fresh
  intro earlier low high
  exact mem_of_lt_firstMissing low (first ▸ high)

end Context
end Playback
end BranchingStory
