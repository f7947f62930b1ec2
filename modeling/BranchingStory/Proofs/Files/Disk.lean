import BranchingStory.Files.Disk
import BranchingStory.Proofs.Results

/-!
A file that is written and read again. To write a file adds an entry to one folder and takes none away, so the path to
the file leads where it led before.
-/

namespace BranchingStory
namespace Files

namespace Node

variable {node : Node} {entries : List (String × Node)} {name : String} {names here parts : List String}

theorem lookup_entry_cons (head other : String) (old : Node) :
    ((head, old) :: entries).lookup other = if other = head then some old else entries.lookup other := by
  by_cases asked : other = head
  · simp [asked]
  · rw [List.lookup_cons, beq_eq_false_iff_ne.mpr asked, if_neg asked]

theorem lookup_setEntry (new : Node) (other : String) :
    (setEntry entries name new).lookup other = if other = name then some new else entries.lookup other := by
  induction entries with
  | nil => exact lookup_entry_cons name other new
  | cons first rest ih =>
      obtain ⟨head, old⟩ := first
      rw [setEntry]
      by_cases same : head = name
      · subst same
        rw [if_pos rfl, lookup_entry_cons, lookup_entry_cons]
        split <;> rfl
      · rw [if_neg same, lookup_entry_cons, lookup_entry_cons, ih]
        by_cases asked : other = head
        · subst asked
          rw [if_pos rfl, if_neg same, if_pos rfl]
        · rw [if_neg asked, if_neg asked]

theorem get?_put (node new : Node) (names : List String) : (node.put names new).get? names = some new := by
  induction names generalizing node with
  | nil => simp [put, get?]
  | cons name rest ih =>
      simp only [put, get?, lookup_setEntry, if_true, Option.bind_some]
      exact ih _

theorem entriesAt_eq_ok : node.entriesAt names = .ok entries ↔ node.get? names = some (.folder entries) := by
  rw [entriesAt]
  split
  · rename_i found
    rw [found]
    simp
  · rename_i found
    rw [found]
    simp
  · rename_i found
    rw [found]
    simp

theorem get?_append_singleton (opened : node.get? names = some (.folder entries)) :
    node.get? (names ++ [name]) = entries.lookup name := by
  induction names generalizing node with
  | nil =>
      obtain rfl := Option.some.inj opened
      cases found : entries.lookup name with
      | none => simp [get?, found]
      | some child => simp [get?, found]
  | cons first rest ih =>
      cases node with
      | file content => simp [get?] at opened
      | folder inside =>
          rw [get?] at opened
          obtain ⟨child, listed, deeper⟩ := Option.bind_eq_some_iff.mp opened
          rw [List.cons_append, get?, listed]
          exact ih deeper

/-- To put something where there is no folder leaves every folder a folder, with all the entries that it had. -/
theorem entriesAt_put (new : Node) (vacant : ∀ entries, node.get? names ≠ some (.folder entries)) {others : List String}
    (found : node.entriesAt others = .ok entries) :
    ∃ kept, (node.put names new).entriesAt others = .ok kept ∧
      ∀ name, (entries.lookup name).isSome = true → (kept.lookup name).isSome = true := by
  rw [entriesAt_eq_ok] at found
  simp only [entriesAt_eq_ok]
  induction names generalizing node others with
  | nil =>
      cases node with
      | folder inside => exact absurd rfl (vacant inside)
      | file content => cases others <;> simp [get?] at found
  | cons first rest ih =>
      cases node with
      | file content => cases others <;> simp [get?] at found
      | folder inside =>
          cases others with
          | nil =>
              obtain rfl : inside = entries := by simpa [get?] using found
              refine ⟨_, rfl, fun name present => ?_⟩
              rw [lookup_setEntry]
              split
              · rfl
              · exact present
          | cons other more =>
              simp only [put, get?, lookup_setEntry] at found vacant ⊢
              by_cases same : other = first
              · subst same
                obtain ⟨child, listed, deeper⟩ := Option.bind_eq_some_iff.mp found
                simp only [listed, Option.bind_some, if_true, Option.getD_some] at vacant ⊢
                exact ih vacant deeper
              · rw [if_neg same]
                exact ⟨entries, found, fun name present => present⟩

def next (entries : List (String × Node)) (here : List String) (part : String) : Except Trouble (List String) :=
  if part = "" ∨ part = "." then .ok here
  else if part = ".." then .ok here.tail
  else if !isName part then .error .badName
  else if (entries.lookup part).isSome then .ok (part :: here)
  else .error .missing

theorem follow_cons (node : Node) (here : List String) (part : String) (rest : List String) :
    node.follow here (part :: rest) =
      (node.entriesAt here.reverse).bind fun entries => (next entries here part).bind (node.follow · rest) := by
  rw [follow]
  refine congrArg _ (funext fun entries => ?_)
  rw [next]
  split
  · rfl
  · split
    · rfl
    · split
      · rfl
      · split <;> rfl

theorem next_mono {kept : List (String × Node)} {part : String} {there : List String}
    (all : ∀ name, (entries.lookup name).isSome = true → (kept.lookup name).isSome = true)
    (led : next entries here part = .ok there) : next kept here part = .ok there := by
  rw [next] at led ⊢
  split at led
  · rename_i stays
    rwa [if_pos stays]
  · rename_i leaves
    rw [if_neg leaves]
    split at led
    · rename_i back
      rwa [if_pos back]
    · rename_i onward
      rw [if_neg onward]
      split at led
      · simp at led
      · rename_i named
        rw [if_neg named]
        split at led
        · rename_i present
          rwa [if_pos (all part present)]
        · simp at led

theorem follow_put (new : Node) (vacant : ∀ entries, node.get? names ≠ some (.folder entries)) {there : List String}
    (led : node.follow here parts = .ok there) : (node.put names new).follow here parts = .ok there := by
  induction parts generalizing here with
  | nil => exact led
  | cons part rest ih =>
      rw [follow_cons] at led ⊢
      obtain ⟨entries, opened, led⟩ := bind_eq_ok.mp led
      obtain ⟨between, first, led⟩ := bind_eq_ok.mp led
      obtain ⟨kept, still, all⟩ := entriesAt_put new vacant opened
      exact bind_eq_ok.mpr ⟨kept, still, bind_eq_ok.mpr ⟨between, next_mono all first, ih led⟩⟩

theorem follow_append (more : List String) {there : List String} (led : node.follow here parts = .ok there) :
    node.follow here (parts ++ more) = node.follow there more := by
  induction parts generalizing here with
  | nil =>
      obtain rfl := Except.ok.inj led
      rfl
  | cons part rest ih =>
      rw [follow_cons] at led
      obtain ⟨entries, opened, led⟩ := bind_eq_ok.mp led
      obtain ⟨between, first, led⟩ := bind_eq_ok.mp led
      rw [List.cons_append, follow_cons, opened]
      change (next entries here part).bind _ = _
      rw [first]
      exact ih led

end Node

namespace Disk

variable {disk after : Disk} {path : String} {content : List UInt8}

theorem write_eq_ok (written : disk.write path content = .ok after) :
    isPath path = true ∧ ∃ above entries, disk.root.follow (disk.start path) (pathParts path).dropLast = .ok above ∧
      disk.root.entriesAt above.reverse = .ok entries ∧
      ¬ ((pathParts path).getLast?.getD "" = "" ∨ (pathParts path).getLast?.getD "" = "." ∨
        (pathParts path).getLast?.getD "" = "..") ∧
      Node.isName ((pathParts path).getLast?.getD "") = true ∧
      (∀ inside, entries.lookup ((pathParts path).getLast?.getD "") ≠ some (.folder inside)) ∧
      after = { disk with
        root := disk.root.put ((pathParts path).getLast?.getD "" :: above).reverse (.file content) } := by
  simp only [write] at written
  split at written
  · simp [throw, throwThe, MonadExceptOf.throw, bind, Except.bind] at written
  · rename_i proper
    simp only [Bool.not_eq_true', Bool.not_eq_false] at proper
    obtain ⟨above, led, written⟩ := bind_eq_ok.mp written
    obtain ⟨entries, opened, written⟩ := bind_eq_ok.mp written
    obtain ⟨usual, written⟩ := ite_throw_eq_ok.mp written
    obtain ⟨named, written⟩ := ite_throw_eq_ok.mp written
    simp only [Bool.not_eq_true', Bool.not_eq_false] at named
    refine ⟨proper, above, entries, led, opened, usual, named, ?_⟩
    split at written
    · simp [throw, throwThe, MonadExceptOf.throw] at written
    · rename_i vacant
      exact ⟨vacant, (Except.ok.inj written).symm⟩

theorem read_write (written : disk.write path content = .ok after) : after.read path = .ok content := by
  obtain ⟨proper, above, entries, led, opened, usual, named, vacant, rfl⟩ := write_eq_ok written
  have ended : pathParts path = (pathParts path).dropLast ++ [(pathParts path).getLast?.getD ""] := by
    cases last : (pathParts path).getLast? with
    | none => simp [last] at usual
    | some name => rw [Option.getD_some, List.dropLast_append_getLast? name last]
  have some_path : path ≠ "" := by
    rintro rfl
    exact usual (.inl rfl)
  generalize (pathParts path).getLast?.getD "" = name at *
  generalize (pathParts path).dropLast = folders at *
  have place : (name :: above).reverse = above.reverse ++ [name] := List.reverse_cons
  have here : disk.root.get? (name :: above).reverse = entries.lookup name := by
    rw [place]
    exact Node.get?_append_singleton (Node.entriesAt_eq_ok.mp opened)
  have vacant : ∀ inside, disk.root.get? (name :: above).reverse ≠ some (.folder inside) := by
    rwa [here]
  have put := Node.get?_put disk.root (.file content) (name :: above).reverse
  generalize grown : disk.root.put (name :: above).reverse (.file content) = root at put ⊢
  obtain ⟨kept, still, -⟩ := Node.entriesAt_put (.file content) vacant opened
  have folders := Node.follow_append [name] (Node.follow_put (.file content) vacant led)
  rw [grown] at folders still
  have listed : (kept.lookup name).isSome = true := by
    rw [← Node.get?_append_singleton (Node.entriesAt_eq_ok.mp still), ← place, put]
    rfl
  have stepped : Node.next kept above name = .ok (name :: above) := by
    simp only [not_or] at usual
    simp [Node.next, usual, named, listed]
  have located : Disk.locate { disk with root } path = .ok (name :: above) := by
    have start : Disk.start { disk with root } path = disk.start path := rfl
    simp only [locate, proper, some_path, start, ended, folders, Node.follow_cons, still]
    change (Node.next kept above name).bind _ = _
    rw [stepped]
    rfl
  simp only [read, located, ok_bind, put]
  rfl

end Disk
end Files
end BranchingStory
