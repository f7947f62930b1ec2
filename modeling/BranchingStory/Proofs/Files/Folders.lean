import BranchingStory.Proofs.Files.Path
import Mathlib.Data.List.DropRight
import Mathlib.Data.List.Induction

/-!
Folders that are made on the way to a file. To make them changes nothing about the file, as long as the path to it
goes back nowhere but in folders that are there already.
-/

namespace BranchingStory
namespace Files

structure Onward (name : String) : Prop where
  filled : name ≠ ""
  moves : name ≠ "."
  ahead : name ≠ ".."
  short : Node.isName name = true

instance (name : String) : Decidable (Onward name) :=
  decidable_of_iff (name ≠ "" ∧ name ≠ "." ∧ name ≠ ".." ∧ Node.isName name = true)
    ⟨fun ⟨filled, moves, ahead, short⟩ => ⟨filled, moves, ahead, short⟩,
      fun onward => ⟨onward.filled, onward.moves, onward.ahead, onward.short⟩⟩

def moving (parts : List String) : List String := parts.filter fun part => part ≠ "" ∧ part ≠ "."

theorem moving_append (parts more : List String) : moving (parts ++ more) = moving parts ++ moving more :=
  List.filter_append ..

theorem moving_cons_of_stays {part : String} (stays : part = "" ∨ part = ".") (rest : List String) :
    moving (part :: rest) = moving rest := by
  rcases stays with rfl | rfl <;> rfl

theorem moving_cons_of_moves {part : String} (moves : ¬ (part = "" ∨ part = ".")) (rest : List String) :
    moving (part :: rest) = part :: moving rest :=
  List.filter_cons_of_pos (by simpa using moves)

theorem moving_eq_self {parts : List String} (moves : ∀ part ∈ parts, part ≠ "" ∧ part ≠ ".") : moving parts = parts :=
  List.filter_eq_self.mpr fun part listed => decide_eq_true (moves part listed)

namespace Node

variable {node made : Node} {here there above : List String} {parts before names : List String}
  {entries : List (String × Node)} {name file : String}

/-! ## What a path leads to -/

def fileAt (node : Node) (here parts : List String) : Except Trouble (List UInt8) := do
  match node.get? (← node.follow here parts).reverse with
  | some (.file content) => return content
  | some (.folder _) => throw .isFolder
  | none => throw .missing

theorem follow_cons_of_stays (stays : name = "" ∨ name = ".") (rest : List String) :
    node.follow here (name :: rest) = (node.entriesAt here.reverse).bind fun _ => node.follow here rest := by
  rw [follow_cons]
  refine congrArg _ (funext fun entries => ?_)
  rw [next, if_pos stays]
  rfl

theorem follow_moving (led : node.follow here parts = .ok there) : node.follow here (moving parts) = .ok there := by
  induction parts generalizing here with
  | nil => exact led
  | cons part rest ih =>
      by_cases stays : part = "" ∨ part = "."
      · rw [follow_cons_of_stays stays] at led
        obtain ⟨entries, -, led⟩ := bind_eq_ok.mp led
        rw [moving_cons_of_stays stays]
        exact ih led
      · rw [follow_cons] at led
        obtain ⟨entries, opened, led⟩ := bind_eq_ok.mp led
        obtain ⟨between, first, led⟩ := bind_eq_ok.mp led
        rw [moving_cons_of_moves stays, follow_cons]
        exact bind_eq_ok.mpr ⟨entries, opened, bind_eq_ok.mpr ⟨between, first, ih led⟩⟩

theorem follow_append_cons (parts : List String) (name : String) (rest : List String) :
    node.follow here (parts ++ name :: rest) = node.follow here (moving parts ++ name :: rest) := by
  induction parts generalizing here with
  | nil => rfl
  | cons part later ih =>
      by_cases stays : part = "" ∨ part = "."
      · rw [List.cons_append, follow_cons_of_stays stays, ih, moving_cons_of_stays stays]
        cases opened : node.entriesAt here.reverse with
        | ok entries => rfl
        | error trouble =>
            obtain ⟨first, others, whole⟩ := List.exists_cons_of_ne_nil
              (List.append_ne_nil_of_right_ne_nil (moving later) (List.cons_ne_nil name rest))
            rw [whole, follow_cons, opened]
            rfl
      · rw [moving_cons_of_moves stays, List.cons_append, List.cons_append, follow_cons, follow_cons]
        exact congrArg _ (funext fun entries => congrArg _ (funext fun between => ih))

theorem fileAt_append_cons (parts : List String) (name : String) (rest : List String) :
    node.fileAt here (parts ++ name :: rest) = node.fileAt here (moving parts ++ name :: rest) := by
  rw [fileAt, follow_append_cons, fileAt]

theorem follow_of_moving (led : node.follow here (moving parts) = .ok there)
    (opened : node.entriesAt there.reverse = .ok entries) : node.follow here parts = .ok there := by
  have stays : node.follow there ["."] = .ok there := by
    rw [follow_cons_of_stays (.inr rfl), opened]
    rfl
  have joined := follow_append ["."] led
  rw [← follow_append_cons, stays] at joined
  obtain ⟨between, before, after⟩ := follow_of_append joined
  rw [follow_cons_of_stays (.inr rfl)] at after
  obtain ⟨_, -, same⟩ := bind_eq_ok.mp after
  exact before.trans same

theorem next_of_onward (onward : Onward name) (here : List String) :
    next entries here name = if (entries.lookup name).isSome then .ok (name :: here) else .error .missing := by
  simp [next, onward.filled, onward.moves, onward.ahead, onward.short]

theorem get?_ne_folder (opened : node.entriesAt above.reverse = .ok entries) (vacant : entries.lookup name = none)
    (inside : List (String × Node)) : node.get? (above.reverse ++ [name]) ≠ some (.folder inside) := by
  rw [get?_append_singleton (entriesAt_eq_ok.mp opened), vacant]
  simp

section

variable (led : node.follow here before = .ok above) (opened : node.entriesAt above.reverse = .ok entries)

include led opened

theorem follow_concat (onward : Onward name) (rest : List String) :
    node.follow here (before ++ name :: rest) =
      if (entries.lookup name).isSome then node.follow (name :: above) rest else .error .missing := by
  rw [follow_append _ led, follow_cons, opened]
  change (next entries above name).bind _ = _
  rw [next_of_onward onward]
  split <;> rfl

theorem fileAt_concat (onward : Onward file) :
    node.fileAt here (before ++ [file]) =
      match entries.lookup file with
      | some (.file content) => .ok content
      | some (.folder _) => .error .isFolder
      | none => .error .missing := by
  have found : node.get? (file :: above).reverse = entries.lookup file := by
    rw [List.reverse_cons]
    exact get?_append_singleton (entriesAt_eq_ok.mp opened)
  rw [fileAt, follow_concat led opened onward]
  cases listed : entries.lookup file with
  | none => rfl
  | some inside =>
      change (match node.get? (file :: above).reverse with
        | some (.file content) => _
        | some (.folder _) => _
        | none => _) = _
      rw [found, listed]
      cases inside <;> rfl

theorem fileAt_put_empty (vacant : entries.lookup name = none) (onward : Onward name) {rest : List String}
    (some_rest : rest ≠ []) (further : ∀ name ∈ rest, Onward name) :
    (node.put (above.reverse ++ [name]) empty).fileAt here (before ++ name :: rest) =
      node.fileAt here (before ++ name :: rest) := by
  obtain ⟨next, others, rfl⟩ := List.exists_cons_of_ne_nil some_rest
  have absent : node.fileAt here (before ++ name :: next :: others) = .error .missing := by
    rw [fileAt, follow_concat led opened onward, vacant]
    rfl
  have put := get?_put node empty (above.reverse ++ [name])
  have still := follow_put empty (get?_ne_folder opened vacant) led
  obtain ⟨kept, reopened, -⟩ := entriesAt_put empty (get?_ne_folder opened vacant) opened
  generalize node.put (above.reverse ++ [name]) empty = grown at put still reopened ⊢
  have listed : kept.lookup name = some empty := by
    rw [← get?_append_singleton (entriesAt_eq_ok.mp reopened), put]
  have inside : grown.entriesAt (name :: above).reverse = .ok [] := by
    rw [List.reverse_cons]
    exact entriesAt_eq_ok.mpr put
  have stepped := follow_concat still reopened onward []
  rw [listed] at stepped
  have deeper := follow_concat stepped inside (further next List.mem_cons_self) others
  rw [List.append_assoc] at deeper
  rw [absent, fileAt]
  change (grown.follow here (before ++ ([name] ++ next :: others))).bind _ = _
  rw [deeper]
  rfl

end

/-! ## Folders that are made -/

theorem moving_rdropWhile (parts : List String) : moving (parts.rdropWhile (· = "")) = moving parts := by
  induction parts using List.reverseRecOn with
  | nil => rfl
  | append_singleton earlier last ih =>
      rw [List.rdropWhile_concat]
      split
      · rename_i blank
        rw [ih, moving_append, moving_cons_of_stays (.inl (of_decide_eq_true blank))]
        exact (List.append_nil _).symm
      · rfl

theorem makeFolder_eq_ok (done : node.makeFolder here parts = .ok made) :
    ∃ before name above entries, moving parts = before ++ [name] ∧ Onward name ∧
      node.follow here before = .ok above ∧ node.entriesAt above.reverse = .ok entries ∧
      entries.lookup name = none ∧ made = node.put (above.reverse ++ [name]) empty := by
  have kept : (parts.reverse.dropWhile (· = "")).reverse = parts.rdropWhile (· = "") := rfl
  rw [makeFolder, kept] at done
  obtain ⟨above, led, done⟩ := bind_eq_ok.mp done
  obtain ⟨entries, opened, done⟩ := bind_eq_ok.mp done
  rcases List.eq_nil_or_concat' (parts.rdropWhile (· = "")) with none | ⟨earlier, name, whole⟩
  · simp [none, throw, throwThe, MonadExceptOf.throw] at done
  · have some_name : name ≠ "" := by
      have last := List.rdropWhile_last_not (fun part : String => decide (part = "")) parts (by simp [whole])
      simpa [whole] using last
    rw [whole, List.dropLast_concat] at led
    simp only [whole, List.getLast?_concat, Option.getD_some, ite_throw_eq_ok, not_or] at done
    obtain ⟨⟨moves, ahead⟩, short, vacant, done⟩ := done
    refine ⟨moving earlier, name, above, entries, ?_, ⟨some_name, moves, ahead, by simpa using short⟩,
      follow_moving led, opened, Option.not_isSome_iff_eq_none.mp vacant, ?_⟩
    · rw [← moving_rdropWhile, whole, moving_append, moving_cons_of_moves (not_or.mpr ⟨some_name, moves⟩)]
      rfl
    · rw [← List.reverse_cons]
      exact (Except.ok.inj done).symm

/-- The names of a path lead to a folder that is there, and from there on only further down. -/
def StaysPut (node : Node) (here names : List String) : Prop :=
  ∃ known rest, names = known ++ rest ∧
    (∃ there entries, node.follow here known = .ok there ∧ node.entriesAt there.reverse = .ok entries) ∧
    ∀ name ∈ rest, Onward name

/-- What is done to a tree makes no difference to a path, nor to the files in the folder that it leads to. -/
structure Unmoved (here names : List String) (before after : Node) : Prop where
  stays : after.StaysPut here names
  fileAt : ∀ file, Onward file → after.fileAt here (names ++ [file]) = before.fileAt here (names ++ [file])

theorem Unmoved.refl (stays : node.StaysPut here names) : Unmoved here names node node := ⟨stays, fun _ _ => rfl⟩

theorem Unmoved.trans {last : Node} (first : Unmoved here names node made) (second : Unmoved here names made last) :
    Unmoved here names node last :=
  ⟨second.stays, fun file onward => (second.fileAt file onward).trans (first.fileAt file onward)⟩

theorem StaysPut.put (stays : node.StaysPut here names) {place : List String} (new : Node)
    (vacant : ∀ entries, node.get? place ≠ some (.folder entries)) : (node.put place new).StaysPut here names := by
  obtain ⟨known, rest, whole, ⟨there, entries, led, opened⟩, onward⟩ := stays
  obtain ⟨kept, still, -⟩ := entriesAt_put new vacant opened
  exact ⟨known, rest, whole, ⟨there, kept, follow_put new vacant led, still⟩, onward⟩

theorem StaysPut.exists_further (stays : node.StaysPut here names) (led : node.follow here before = .ok above)
    (opened : node.entriesAt above.reverse = .ok entries) (vacant : entries.lookup name = none) (onward : Onward name)
    (within : before ++ [name] <+: names) :
    ∃ more, names = before ++ name :: more ∧ ∀ next ∈ more, Onward next := by
  obtain ⟨known, rest, whole, ⟨there, inside, reached, -⟩, further⟩ := stays
  obtain ⟨more, split⟩ := within
  rw [List.append_assoc, List.singleton_append] at split
  refine ⟨more, split.symm, fun next listed => further next ?_⟩
  rcases List.append_eq_append_iff.mp (split.trans whole) with ⟨between, rfl, tail⟩ | ⟨between, -, rfl⟩
  · cases between with
    | nil =>
        rw [← List.nil_append rest, ← tail]
        exact List.mem_cons_of_mem name listed
    | cons first later =>
        -- What is missing would stand where the known part of the path leads through.
        obtain ⟨rfl, -⟩ := List.cons.inj tail
        rw [follow_concat led opened onward, vacant] at reached
        cases reached
  · exact List.mem_append_right _ (List.mem_cons_of_mem name listed)

theorem unmoved_makeFolder (stays : node.StaysPut here names) (within : moving parts <+: names)
    (done : node.makeFolder here parts = .ok made) : Unmoved here names node made := by
  obtain ⟨before, name, above, entries, parted, onward, led, opened, vacant, rfl⟩ := makeFolder_eq_ok done
  refine ⟨stays.put empty (get?_ne_folder opened vacant), fun file filed => ?_⟩
  obtain ⟨more, rfl, further⟩ := stays.exists_further led opened vacant onward (parted ▸ within)
  have last : ∀ next ∈ more ++ [file], Onward next :=
    List.forall_mem_append.mpr ⟨further, List.forall_mem_singleton.mpr filed⟩
  rw [List.append_assoc, List.cons_append]
  exact fileAt_put_empty led opened vacant onward (List.append_ne_nil_of_right_ne_nil more (List.cons_ne_nil file [])) last

theorem unmoved_ensureFolder (stays : node.StaysPut here names) (within : moving parts <+: names) :
    Unmoved here names node (node.ensureFolder here parts).2 := by
  rw [ensureFolder]
  split
  · rename_i done
    exact unmoved_makeFolder stays within done
  · exact .refl stays

theorem unmoved_makeFolders {further : List String} (stays : node.StaysPut here names)
    (within : moving parts <+: names) (above : moving further.reverse <+: names) :
    Unmoved here names node (node.makeFolders here parts further).2 := by
  induction further generalizing node parts with
  | nil => exact unmoved_ensureFolder stays within
  | cons name rest ih =>
      have shorter : moving rest.reverse <+: names := by
        rw [List.reverse_cons, moving_append] at above
        exact (List.prefix_append _ _).trans above
      rw [makeFolders]
      split
      · have upper := ih stays above shorter
        split
        · rename_i made done
          rw [done] at upper
          exact upper.trans (unmoved_ensureFolder upper.stays within)
        · exact upper
      · exact unmoved_ensureFolder stays within

theorem makeFolders_of_entries {further : List String} (led : node.follow here (moving parts) = .ok there)
    (opened : node.entriesAt there.reverse = .ok entries) :
    node.makeFolders here parts further = (.ok (), node) := by
  have ensured : node.ensureFolder here parts = (.ok (), node) := by
    rw [ensureFolder]
    split
    · rename_i done
      obtain ⟨before, name, above, inside, parted, onward, reached, reopened, vacant, -⟩ := makeFolder_eq_ok done
      rw [parted, follow_concat reached reopened onward, vacant] at led
      cases led
    · have present : node.isFolder here parts = true := by
        simp only [isFolder, follow_of_moving led opened, opened]
        rfl
      rw [present]
      rfl
  cases further with
  | nil => exact ensured
  | cons name rest => rw [makeFolders, ensured]

theorem get?_put_concat (name : String) (new : Node) (opened : node.get? names = some (.folder entries)) :
    (node.put (names ++ [name]) new).get? names = some (.folder (setEntry entries name new)) := by
  induction names generalizing node with
  | nil =>
      obtain rfl := Option.some.inj opened
      rfl
  | cons first rest ih =>
      cases node with
      | file content => simp [get?] at opened
      | folder inside =>
          rw [get?] at opened
          obtain ⟨child, listed, deeper⟩ := Option.bind_eq_some_iff.mp opened
          simp only [List.cons_append, put, get?, lookup_setEntry, if_true, Option.bind_some, listed, Option.getD_some]
          exact ih deeper

end Node

/-! ## On a disk -/

structure IsFileName (file : String) : Prop where
  relative : file.startsWith "/" = false
  single : pathParts file = [file]
  onward : Onward file

instance (file : String) : Decidable (IsFileName file) :=
  decidable_of_iff (file.startsWith "/" = false ∧ pathParts file = [file] ∧ Onward file)
    ⟨fun ⟨relative, single, onward⟩ => ⟨relative, single, onward⟩,
    fun named => ⟨named.relative, named.single, named.onward⟩⟩

theorem IsFileName.parts_joinPath {file : String} (named : IsFileName file) (folder : String) :
    ∃ above, pathParts (joinPath folder file) = above ++ [file] ∧ moving above = pathNames folder := by
  obtain ⟨above, ended, blank, whole, joined⟩ := BranchingStory.parts_joinPath folder named.relative
  rw [named.single] at joined
  refine ⟨above, joined, ?_⟩
  have names : pathNames folder = moving (pathParts folder) := rfl
  rw [names, whole, moving_append]
  rcases blank with rfl | rfl
  · exact (List.append_nil _).symm
  · exact (List.append_nil _).symm

namespace Disk

variable {disk after : Disk} {folder file other : String} {content : List UInt8}

def StaysPut (disk : Disk) (path : String) : Prop := disk.root.StaysPut (disk.start path) (pathNames path)

theorem staysPut_of_onward {path : String} (there : (disk.root.entriesAt (disk.start path).reverse).isOk = true)
    (onward : ∀ name ∈ pathNames path, Onward name) : disk.StaysPut path := by
  refine ⟨[], pathNames path, rfl, ?_, onward⟩
  cases opened : disk.root.entriesAt (disk.start path).reverse with
  | ok entries => exact ⟨disk.start path, entries, rfl, opened⟩
  | error trouble =>
      rw [opened] at there
      cases there

theorem read_joinPath (named : IsFileName file) (disk : Disk) (folder : String) :
    disk.read (joinPath folder file) =
      if isPath (joinPath folder file) then disk.root.fileAt (disk.start folder) (pathNames folder ++ [file])
      else .error .badName := by
  obtain ⟨above, joined, names⟩ := named.parts_joinPath folder
  have filled : joinPath folder file ≠ "" := by
    intro none
    rw [none] at joined
    have last := congrArg List.getLast? joined
    rw [List.getLast?_concat] at last
    exact named.onward.filled (Option.some.inj last).symm
  cases usable : isPath (joinPath folder file) with
  | false =>
      simp only [read, locate, usable]
      rfl
  | true =>
      simp only [read, locate, usable, filled, start_joinPath named.relative, joined]
      rw [← names, ← Node.fileAt_append_cons]
      rfl

theorem makeFolders_of_read (named : IsFileName file) (found : disk.read (joinPath folder file) = .ok content) :
    (disk.makeFolders folder).2 = disk := by
  rw [read_joinPath named] at found
  split at found
  · rw [Node.fileAt] at found
    obtain ⟨place, led, -⟩ := bind_eq_ok.mp found
    obtain ⟨above, reached, opened⟩ := Node.follow_of_append led
    rw [Node.follow_cons] at opened
    obtain ⟨entries, opened, -⟩ := bind_eq_ok.mp opened
    simp only [makeFolders]
    split
    · rfl
    · split
      · rfl
      · rw [Node.makeFolders_of_entries reached opened]
  · cases found

theorem folder_makeFolders (disk : Disk) (path : String) : (disk.makeFolders path).2.folder = disk.folder := by
  simp only [makeFolders]
  split
  · rfl
  · split <;> rfl

theorem start_makeFolders (disk : Disk) (path other : String) :
    (disk.makeFolders path).2.start other = disk.start other := by
  rw [start, folder_makeFolders, start]

theorem unmoved_makeFolders (stays : disk.StaysPut folder) :
    Node.Unmoved (disk.start folder) (pathNames folder) disk.root (disk.makeFolders folder).2.root := by
  have moves : ∀ name ∈ pathNames folder, name ≠ "" ∧ name ≠ "." := fun name listed =>
    of_decide_eq_true (List.mem_filter.mp listed).2
  have above : moving (pathNames folder).dropLast.reverse.reverse <+: pathNames folder := by
    rw [List.reverse_reverse, moving_eq_self fun name listed => moves name ((List.dropLast_sublist _).subset listed)]
    exact List.dropLast_prefix _
  simp only [makeFolders]
  split
  · exact .refl stays
  · split
    · exact .refl stays
    · exact Node.unmoved_makeFolders stays List.prefix_rfl above

theorem StaysPut.makeFolders (stays : disk.StaysPut folder) : (disk.makeFolders folder).2.StaysPut folder := by
  rw [StaysPut, start_makeFolders]
  exact (unmoved_makeFolders stays).stays

theorem read_makeFolders (named : IsFileName file) (stays : disk.StaysPut folder) :
    (disk.makeFolders folder).2.read (joinPath folder file) = disk.read (joinPath folder file) := by
  rw [read_joinPath named, read_joinPath named, start_makeFolders, (unmoved_makeFolders stays).fileAt file named.onward]

theorem write_joinPath_eq_ok (named : IsFileName file) (written : disk.write (joinPath folder file) content = .ok after) :
    ∃ above entries, disk.root.follow (disk.start folder) (pathNames folder) = .ok above ∧
      disk.root.entriesAt above.reverse = .ok entries ∧ (∀ inside, entries.lookup file ≠ some (.folder inside)) ∧
      after = { disk with root := disk.root.put (above.reverse ++ [file]) (.file content) } := by
  obtain ⟨-, above, entries, led, opened, -, -, vacant, rfl⟩ := write_eq_ok written
  obtain ⟨parts, joined, names⟩ := named.parts_joinPath folder
  rw [start_joinPath named.relative, joined, List.dropLast_concat] at led
  simp only [joined, List.getLast?_concat, Option.getD_some] at vacant ⊢
  exact ⟨above, entries, names ▸ Node.follow_moving led, opened, vacant, by rw [List.reverse_cons]⟩

theorem StaysPut.write (stays : disk.StaysPut folder) (named : IsFileName file)
    (written : disk.write (joinPath folder file) content = .ok after) : after.StaysPut folder := by
  obtain ⟨above, entries, -, opened, vacant, rfl⟩ := write_joinPath_eq_ok named written
  refine Node.StaysPut.put stays _ fun inside => ?_
  rw [Node.get?_append_singleton (Node.entriesAt_eq_ok.mp opened)]
  exact vacant inside

theorem read_write_of_ne (named : IsFileName file) (other_named : IsFileName other) (differs : other ≠ file)
    (written : disk.write (joinPath folder file) content = .ok after) :
    after.read (joinPath folder other) = disk.read (joinPath folder other) := by
  obtain ⟨above, entries, led, opened, vacant, rfl⟩ := write_joinPath_eq_ok named written
  have found := Node.entriesAt_eq_ok.mp opened
  have unfiled : ∀ inside, disk.root.get? (above.reverse ++ [file]) ≠ some (.folder inside) := by
    rwa [Node.get?_append_singleton found]
  have still := Node.follow_put (.file content) unfiled led
  have reopened := Node.entriesAt_eq_ok.mpr (Node.get?_put_concat file (.file content) found)
  have same : Disk.start { disk with root := disk.root.put (above.reverse ++ [file]) (.file content) } folder =
      disk.start folder := rfl
  rw [read_joinPath other_named, read_joinPath other_named, same, Node.fileAt_concat led opened other_named.onward,
    Node.fileAt_concat still reopened other_named.onward, Node.lookup_setEntry, if_neg differs]

end Disk
end Files
end BranchingStory
