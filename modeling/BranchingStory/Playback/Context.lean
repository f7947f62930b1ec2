import BranchingStory.Story.Entry

/-!
Where playback stands. A context is a story with the entries that have been told; contexts are stacked, and
the one on top is the one being told.
-/

namespace BranchingStory
namespace Playback

structure Context where
  entries : Story
  processed : Catalog Nat Unit

namespace Context

def start (story : Story) : Context := ⟨story, .empty⟩

/-- The first number from `from` on that is missing from an ascending list of numbers. -/
def firstMissing (start : Nat) : List Nat → Nat
  | [] => start
  | number :: rest => if number = start then firstMissing (start + 1) rest else start

theorem start_le_firstMissing (start : Nat) (numbers : List Nat) :
    start ≤ firstMissing start numbers := by
  induction numbers generalizing start with
  | nil => simp [firstMissing]
  | cons number rest ih =>
      simp only [firstMissing]
      split
      · exact Nat.le_trans (Nat.le_succ start) (ih (start + 1))
      · exact Nat.le_refl start

theorem firstMissing_not_mem {start : Nat} {numbers : List Nat}
    (ascending : numbers.Pairwise (· < ·)) (bound : ∀ number ∈ numbers, start ≤ number) :
    firstMissing start numbers ∉ numbers := by
  induction numbers generalizing start with
  | nil => simp
  | cons number rest ih =>
      obtain ⟨above, ordered⟩ := List.pairwise_cons.mp ascending
      simp only [firstMissing]
      split
      · rename_i same
        subst same
        have later := ih ordered fun other member => above other member
        have beyond := start_le_firstMissing (number + 1) rest
        simp only [List.mem_cons, not_or]
        exact ⟨by omega, later⟩
      · rename_i differs
        intro member
        rcases List.mem_cons.mp member with same | inside
        · exact differs same.symm
        · have low := bound number List.mem_cons_self
          have high := above _ inside
          omega

def next? (context : Context) : Option (Nat × Entry) :=
  let index := firstMissing 0 context.processed.keys
  context.entries[index]?.map fun entry => (index, entry)

def mark (context : Context) (index : Nat) : Context :=
  { context with processed := context.processed.insert index () }

def isExhausted (context : Context) : Bool := context.next?.isNone

theorem next?_eq_some {context : Context} {index : Nat} {entry : Entry}
    (found : context.next? = some (index, entry)) :
    context.entries[index]? = some entry ∧ index ∉ context.processed.keys := by
  simp only [next?, Option.map_eq_some_iff, Prod.mk.injEq] at found
  obtain ⟨_, present, rfl, rfl⟩ := found
  refine ⟨present, firstMissing_not_mem ?_ fun _ _ => Nat.zero_le _⟩
  exact context.processed.ascending_keys.imp fun less => Nat.compare_eq_lt.mp less

def remainingFrom (processed : Catalog Nat Unit) : Nat → List Entry → Nat
  | _, [] => 0
  | index, entry :: rest =>
      (if index ∈ processed.keys then 0 else entry.weight) + remainingFrom processed (index + 1) rest

theorem remainingFrom_insert_of_lt {processed : Catalog Nat Unit} {index start : Nat}
    (before : index < start) (entries : List Entry) :
    remainingFrom (processed.insert index ()) start entries = remainingFrom processed start entries := by
  induction entries generalizing start with
  | nil => rfl
  | cons entry rest ih =>
      have other : start ≠ index := by omega
      simp [remainingFrom, Catalog.mem_keys_insert, other, ih (Nat.lt_succ_of_lt before)]

theorem remainingFrom_insert {processed : Catalog Nat Unit} {index start : Nat} {entries : List Entry}
    {entry : Entry} (after : start ≤ index) (present : entries[index - start]? = some entry)
    (fresh : index ∉ processed.keys) :
    remainingFrom (processed.insert index ()) start entries + entry.weight =
      remainingFrom processed start entries := by
  induction entries generalizing start with
  | nil => simp at present
  | cons first rest ih =>
      by_cases here : start = index
      · subst here
        simp only [Nat.sub_self, List.getElem?_cons_zero, Option.some.injEq] at present
        subst present
        simp only [remainingFrom, Catalog.mem_keys_insert, true_or, if_true, fresh, if_false,
          remainingFrom_insert_of_lt (Nat.lt_add_one start)]
        omega
      · have later : start + 1 ≤ index := by omega
        have shifted : index - start = (index - (start + 1)) + 1 := by omega
        rw [shifted, List.getElem?_cons_succ] at present
        have tail := ih later present
        simp only [remainingFrom, Catalog.mem_keys_insert, here, false_or]
        omega

def remaining (context : Context) : Nat := remainingFrom context.processed 0 context.entries

/-- Telling an entry takes its weight off. -/
theorem remaining_mark {context : Context} {index : Nat} {entry : Entry}
    (found : context.next? = some (index, entry)) :
    (context.mark index).remaining + entry.weight = context.remaining := by
  obtain ⟨present, fresh⟩ := next?_eq_some found
  exact remainingFrom_insert (Nat.zero_le index) present fresh

theorem remaining_start (story : Story) : (start story).remaining = storyWeight story := by
  have counted : ∀ index entries, remainingFrom .empty index entries = storyWeight entries := by
    intro index entries
    induction entries generalizing index with
    | nil => simp [remainingFrom, storyWeight]
    | cons entry rest ih =>
        have fresh : index ∉ (Catalog.empty : Catalog Nat Unit).keys := by
          simp [Catalog.empty, Catalog.keys]
        simp [remainingFrom, storyWeight, ih, fresh]
  exact counted 0 story

end Context

abbrev Stack := List Context

def Stack.remaining (stack : Stack) : Nat := stack.foldr (fun context count => context.remaining + count) 0

structure Peek where
  depth : Nat
  speaker : Option String
  line : Option String
  deriving DecidableEq, Repr

def Stack.peek? : Stack → Option Peek
  | [] => none
  | context :: below =>
      match context.next? with
      | some (_, entry) => some ⟨below.length + 1, entry.speaker?, entry.line?⟩
      | none => Stack.peek? below

end Playback
end BranchingStory
