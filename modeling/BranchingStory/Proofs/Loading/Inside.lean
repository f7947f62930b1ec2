import BranchingStory.Loading.Folder
import BranchingStory.Proofs.Files.Path

/-!
Where documents are looked for. A path that does not start at the root and has no part that goes back leads below the
folder that it is looked up in. Such are all paths that a story is loaded from, if the directory that it is looked for
in is such a path itself and is not blank: with a blank directory the path of a story starts at the root.
-/

namespace BranchingStory

/-! ## Pieces of pieces -/

section

variable {coarse fine : Char → Bool}

theorem pieces_of_finer (finer : ∀ c, coarse c = true → fine c = true) (text : List Char) :
    ∃ first rest small others, pieces coarse text = first :: rest ∧ pieces fine text = small :: others ∧
      ((∀ c ∈ first, fine c = false) → small = first) ∧
        ∀ piece ∈ rest, (∀ c ∈ piece, fine c = false) → piece ∈ others := by
  induction text with
  | nil => exact ⟨[], [], [], [], rfl, rfl, fun _ => rfl, fun _ listed => absurd listed List.not_mem_nil⟩
  | cons c text ih =>
      obtain ⟨first, rest, small, others, large_eq, small_eq, here, there⟩ := ih
      simp only [pieces, large_eq, small_eq]
      cases separated : fine c with
      | false =>
          have joined : coarse c = false := by
            by_contra parted
            rw [Bool.not_eq_false] at parted
            rw [finer c parted] at separated
            cases separated
          rw [joined]
          refine ⟨c :: first, rest, c :: small, others, rfl, rfl, fun plain => ?_, there⟩
          rw [here fun other listed => plain other (List.mem_cons_of_mem _ listed)]
      | true =>
          cases coarse c with
          | true =>
              refine ⟨[], first :: rest, [], small :: others, rfl, rfl, fun _ => rfl, ?_⟩
              refine List.forall_mem_cons.mpr ⟨fun plain => ?_, fun piece listed plain => ?_⟩
              · rw [here plain]
                exact List.mem_cons_self
              · exact List.mem_cons_of_mem _ (there piece listed plain)
          | false =>
              refine ⟨c :: first, rest, [], small :: others, rfl, rfl, fun plain => ?_, fun piece listed plain => ?_⟩
              · rw [plain c List.mem_cons_self] at separated
                cases separated
              · exact List.mem_cons_of_mem _ (there piece listed plain)

theorem mem_pieces_of_finer {text piece : List Char} (finer : ∀ c, coarse c = true → fine c = true)
    (listed : piece ∈ pieces coarse text) (plain : ∀ c ∈ piece, fine c = false) : piece ∈ pieces fine text := by
  obtain ⟨first, rest, small, others, large_eq, small_eq, here, there⟩ := pieces_of_finer finer text
  rw [large_eq] at listed
  rw [small_eq]
  rcases List.mem_cons.mp listed with rfl | later
  · exact here plain ▸ List.mem_cons_self
  · exact List.mem_cons_of_mem _ (there piece later plain)

end

/-! ## Paths that lead downwards -/

theorem mem_pathParts {path : String} {part : String} :
    part ∈ pathParts path ↔ part.toList ∈ pieces (· = '/') path.toList := by
  simp only [pathParts, List.mem_map]
  constructor
  · rintro ⟨piece, listed, rfl⟩
    rwa [String.toList_ofList]
  · intro listed
    exact ⟨_, listed, String.ofList_toList⟩

/-- A path that does not start at the root and never goes back. -/
structure Descends (path : String) : Prop where
  relative : path.startsWith "/" = false
  onward : ".." ∉ pathParts path

instance (path : String) : Decidable (Descends path) :=
  decidable_of_iff (path.startsWith "/" = false ∧ ".." ∉ pathParts path)
    ⟨fun both => ⟨both.1, both.2⟩, fun descends => ⟨descends.1, descends.2⟩⟩

theorem Descends.head_ne {path : String} (descends : Descends path) : path.toList.head? ≠ some '/' := by
  intro rooted
  rw [← startsWith_slash_iff, descends.relative] at rooted
  cases rooted

theorem Descends.of_list {path : String} (relative : path.toList.head? ≠ some '/')
    (onward : ['.', '.'] ∉ pieces (· = '/') path.toList) : Descends path where
  relative := by
    rw [← Bool.not_eq_true, startsWith_slash_iff]
    exact relative
  onward := fun back => onward (mem_pathParts.mp back)

namespace Loading

theorem descends_of_fine {name : String} (fine : nameFault? name = none) : Descends name := by
  rw [nameFault?] at fine
  split at fine
  · cases fine
  · split at fine
    · cases fine
    · rename_i relative
      split at fine
      · cases fine
      · rename_i onward
        refine .of_list (fun rooted => relative ?_) fun back => onward ?_
        · rw [rooted]
          rfl
        · rw [List.contains_iff_mem]
          have finer : ∀ c : Char, decide (c = '/') = true → isSlash c = true := by
            intro c slash
            rw [isSlash, slash, Bool.true_or]
          exact mem_pieces_of_finer finer back (by simp [isSlash])

end Loading

theorem exists_dropEnd (c : Char) (text : List Char) :
    ∃ dropped, text = dropEnd c text ++ dropped ∧ ∀ other ∈ dropped, other = c := by
  refine ⟨(text.reverse.takeWhile (· = c)).reverse, ?_, fun other listed => ?_⟩
  · rw [dropEnd, ← List.reverse_append, List.takeWhile_append_dropWhile, List.reverse_reverse]
  · have held := List.all_eq_true.mp List.all_takeWhile other (List.mem_reverse.mp listed)
    exact of_decide_eq_true held

theorem Descends.storyPath {directories : Directories} {kind : StoryKind} {name : String}
    (filled : directories.of kind ≠ "") (below : Descends (directories.of kind)) (descends : Descends name) :
    Descends (directories.storyPath kind name) := by
  obtain ⟨dropped, whole, slashes⟩ := exists_dropEnd '/' (directories.of kind).toList
  have relative := below.head_ne
  have onward : ['.', '.'] ∉ pieces (· = '/') (directories.of kind).toList := fun back =>
    below.onward (mem_pathParts.mpr back)
  have spelled : (directories.storyPath kind name).toList =
      dropEnd '/' (directories.of kind).toList ++ '/' :: name.toList := by
    simp [Directories.storyPath]
  generalize dropEnd '/' (directories.of kind).toList = kept at whole spelled
  rw [whole] at relative onward
  have some_kept : kept ≠ [] := by
    rintro rfl
    cases dropped with
    | nil => exact filled (String.toList_eq_nil_iff.mp whole)
    | cons first rest => exact relative (congrArg some (slashes first List.mem_cons_self))
  obtain ⟨first, rest, rfl⟩ := List.exists_cons_of_ne_nil some_kept
  have kept_onward : ['.', '.'] ∉ pieces (· = '/') (first :: rest) := by
    cases dropped with
    | nil => rwa [List.append_nil] at onward
    | cons slash more =>
        rw [slashes slash List.mem_cons_self, pieces_append (by decide)] at onward
        exact fun back => onward (List.mem_append_left _ back)
  refine .of_list ?_ ?_
  · rw [spelled]
    exact relative
  · rw [spelled, pieces_append (by decide), List.mem_append, not_or]
    exact ⟨kept_onward, fun back => descends.onward (mem_pathParts.mpr back)⟩

/-! ## On a disk -/

namespace Files
namespace Node

variable {node : Node} {here there : List String}

theorem follow_suffix {parts : List String} (onward : ".." ∉ parts) (led : node.follow here parts = .ok there) :
    here <:+ there := by
  induction parts generalizing here with
  | nil =>
      obtain rfl := Except.ok.inj led
      exact List.suffix_refl _
  | cons part rest ih =>
      obtain ⟨ahead, later⟩ := not_or.mp (mt List.mem_cons.mpr onward)
      rw [follow_cons] at led
      obtain ⟨entries, _, led⟩ := bind_eq_ok.mp led
      obtain ⟨between, first, led⟩ := bind_eq_ok.mp led
      refine List.IsSuffix.trans ?_ (ih later led)
      rw [next] at first
      split at first
      · obtain rfl := Except.ok.inj first
        exact List.suffix_refl _
      · rw [if_neg (Ne.symm ahead)] at first
        split at first
        · cases first
        · split at first
          · obtain rfl := Except.ok.inj first
            exact List.suffix_cons part here
          · cases first

end Node
end Files

theorem Descends.locate {disk : Files.Disk} {folder path : String} (descends : Descends path) {place : List String}
    (located : disk.locate (joinPath folder path) = .ok place) :
    ∃ base, disk.root.follow (disk.start folder) (pathParts folder) = .ok base ∧ base <:+ place := by
  have led : disk.root.follow (disk.start (joinPath folder path)) (pathParts (joinPath folder path)) = .ok place := by
    rw [Files.Disk.locate] at located
    split at located
    · cases located
    · split at located
      · cases located
      · exact located
  obtain ⟨above, ended, blank, whole, joined⟩ := parts_joinPath folder descends.relative
  rw [Files.Disk.start_joinPath descends.relative, joined] at led
  obtain ⟨base, before, after⟩ := Files.Node.follow_of_append led
  obtain ⟨part, rest, parts⟩ := List.exists_cons_of_ne_nil (pathParts_ne_nil path)
  refine ⟨base, ?_, Files.Node.follow_suffix descends.onward after⟩
  rw [whole, Files.Node.follow_append _ before]
  rcases blank with rfl | rfl
  · rfl
  · exact Files.Node.follow_blank (parts ▸ after)

namespace Loading

/-! ## What a load asks for -/

section

variable {σ α β : Type}

def recorded (fetch : Fetch (StateM σ)) : Fetch (StateM (σ × List String)) := fun path (state, asked) =>
  ((fetch path state).1, (fetch path state).2, asked ++ [path])

def requests (fetch : Fetch (StateM σ)) (state : σ) (directories : Directories) (kind : StoryKind) (name : String) :
    List String :=
  ((load (recorded fetch) directories kind name).run (state, [])).2.2

def loadShared (fetch : Fetch (StateM σ)) (kind : StoryKind) (document : Document) :
    ExceptT Error (StateM σ) LoadedStory :=
  match document.sharedConstantsPath? with
  | none => return { kind, document, shared := none }
  | some path => do
      ExceptT.mk (pure (checkName path))
      let shared ← fetchAs fetch constantsOfBytes path
      return { kind, document, shared := some shared }

variable {Allowed : String → Prop} {fetch : Fetch (StateM σ)} {state : σ} {directories : Directories}
  {kind : StoryKind} {name : String}

theorem load_of_fault {fault : NameFault} (refused : nameFault? name = some fault) :
    load fetch directories kind name = ExceptT.mk (pure (.error (.invalidName name fault))) := by
  rw [load, checkName, refused]
  rfl

theorem load_of_fine (fine : nameFault? name = none) :
    load fetch directories kind name =
      fetchAs fetch (fun path bytes => (Document.ofBytes bytes).mapError (.malformed path))
        (directories.storyPath kind name) >>= loadShared fetch kind := by
  rw [load, checkName, fine]
  rfl

theorem run_bind (work : ExceptT Error (StateM σ) α) (next : α → ExceptT Error (StateM σ) β) (state : σ) :
    (work >>= next).run state =
      match work.run state with
      | (.ok value, after) => (next value).run after
      | (.error cause, after) => (.error cause, after) := by
  change StateT.bind work.run (ExceptT.bindCont next) state = _
  rw [StateT.bind]
  rcases work.run state with ⟨_ | _, _⟩ <;> rfl

theorem run_fetchAs (fetch : Fetch (StateM σ)) (take : String → List UInt8 → Except Error α) (path : String)
    (state : σ) :
    (fetchAs fetch take path).run state =
      ((match (fetch path state).1 with
        | .error cause => .error cause
        | .ok bytes => take path bytes), (fetch path state).2) := by
  rw [fetchAs, run_bind, ExceptT.run_mk]
  rcases fetch path state with ⟨_ | _, _⟩ <;> rfl

/-- Work that asks for nothing but what it may ask for, after what was asked for before. -/
def Asks (Allowed : String → Prop) (work : ExceptT Error (StateM (σ × List String)) α) : Prop :=
  ∀ state asked, ∃ more, (work.run (state, asked)).2.2 = asked ++ more ∧ ∀ path ∈ more, Allowed path

theorem asks_mk_pure (result : Except Error α) :
    Asks Allowed (ExceptT.mk (pure result) : ExceptT Error (StateM (σ × List String)) α) :=
  fun _ asked => ⟨[], (List.append_nil asked).symm, List.forall_mem_nil _⟩

theorem Asks.bind {work : ExceptT Error (StateM (σ × List String)) α}
    {next : α → ExceptT Error (StateM (σ × List String)) β} (first : Asks Allowed work)
    (later : ∀ value, Asks Allowed (next value)) : Asks Allowed (work >>= next) := by
  intro state asked
  obtain ⟨before, here, known⟩ := first state asked
  rw [run_bind]
  cases ran : work.run (state, asked) with
  | mk result after =>
      rw [ran] at here
      cases result with
      | error cause => exact ⟨before, here, known⟩
      | ok value =>
          obtain ⟨more, there, allowed⟩ := later value after.1 after.2
          refine ⟨before ++ more, ?_, List.forall_mem_append.mpr ⟨known, allowed⟩⟩
          rw [← List.append_assoc, ← here]
          exact there

theorem asks_fetchAs {take : String → List UInt8 → Except Error α} {path : String} (allowed : Allowed path) :
    Asks Allowed (fetchAs (recorded fetch) take path) := by
  intro state asked
  refine ⟨[path], ?_, List.forall_mem_singleton.mpr allowed⟩
  rw [run_fetchAs]
  rfl

theorem asks_loadShared (document : Document) :
    Asks (fun path => nameFault? path = none) (loadShared (recorded fetch) kind document) := by
  rw [loadShared]
  cases document.sharedConstantsPath? with
  | none => exact asks_mk_pure (.ok _)
  | some path =>
      dsimp only
      rw [checkName]
      cases fault : nameFault? path with
      | some cause => exact asks_mk_pure (.error _)
      | none => exact (asks_fetchAs fault).bind fun shared => asks_mk_pure (.ok _)

theorem asked_of_fetchAs {take : String → List UInt8 → Except Error α} {path : String}
    {next : α → ExceptT Error (StateM (σ × List String)) β} (later : ∀ value, Asks Allowed (next value)) :
    ∃ more, ((fetchAs (recorded fetch) take path >>= next).run (state, [])).2.2 = path :: more ∧
      ∀ other ∈ more, Allowed other := by
  have first : ((fetchAs (recorded fetch) take path).run (state, [])).2.2 = [path] := by
    rw [run_fetchAs]
    rfl
  rw [run_bind]
  cases ran : (fetchAs (recorded fetch) take path).run (state, []) with
  | mk result reached =>
      obtain ⟨after, asked⟩ := reached
      rw [ran] at first
      obtain rfl : asked = [path] := first
      cases result with
      | error cause => exact ⟨[], rfl, List.forall_mem_nil _⟩
      | ok value => exact later value after [path]

/-- A load asks for its story first, unless its name is refused, and then for nothing but a name that is not refused. -/
theorem requests_of_fine (fine : nameFault? name = none) :
    ∃ shared, requests fetch state directories kind name = directories.storyPath kind name :: shared ∧
      ∀ path ∈ shared, nameFault? path = none := by
  rw [requests, load_of_fine fine]
  exact asked_of_fetchAs asks_loadShared

theorem requests_of_fault {fault : NameFault} (refused : nameFault? name = some fault) :
    requests fetch state directories kind name = [] := by
  rw [requests, load_of_fault refused]
  rfl

theorem requests_descend (filled : directories.of kind ≠ "") (below : Descends (directories.of kind)) :
    ∀ path ∈ requests fetch state directories kind name, Descends path := by
  cases named : nameFault? name with
  | some fault =>
      rw [requests_of_fault named]
      exact List.forall_mem_nil _
  | none =>
      obtain ⟨shared, asked, fine⟩ : ∃ shared, requests fetch state directories kind name = _ :: shared ∧ _ :=
        requests_of_fine named
      rw [asked]
      exact List.forall_mem_cons.mpr
        ⟨.storyPath filled below (descends_of_fine named), fun path listed => descends_of_fine (fine path listed)⟩

end

theorem documents_lie_below {disk : Files.Disk} {folder name : String} {directories : Directories} {kind : StoryKind}
    (filled : directories.of kind ≠ "") (below : Descends (directories.of kind)) {path : String}
    (asked : path ∈ requests (fun path disk => (fetchFrom disk folder path, disk)) disk directories kind name)
    {place : List String} (located : disk.locate (joinPath folder path) = .ok place) :
    ∃ base, disk.root.follow (disk.start folder) (pathParts folder) = .ok base ∧ base <:+ place :=
  (requests_descend filled below path asked).locate located

example : Descends ({} : Directories).events ∧ Descends ({} : Directories).texting := by decide +kernel

theorem storyPath_of_blank {directories : Directories} {kind : StoryKind} (blank : directories.of kind = "")
    (name : String) : directories.storyPath kind name = "/" ++ name := by
  rw [Directories.storyPath, blank]
  rfl

theorem blank_directory_leads_out {σ : Type} (fetch : Fetch (StateM σ)) (state : σ) {directories : Directories}
    {kind : StoryKind} {name : String} (blank : directories.of kind = "") (fine : nameFault? name = none) :
    "/" ++ name ∈ requests fetch state directories kind name ∧
      ∀ folder, joinPath folder ("/" ++ name) = "/" ++ name := by
  obtain ⟨shared, asked, -⟩ : ∃ shared, requests fetch state directories kind name = _ :: shared ∧ _ :=
    requests_of_fine fine
  have absolute : ("/" ++ name).startsWith "/" = true := by
    rw [startsWith_slash_iff]
    simp
  rw [asked, storyPath_of_blank blank]
  refine ⟨List.mem_cons_self, fun folder => ?_⟩
  rw [joinPath, absolute, Bool.or_true]
  rfl

end Loading
end BranchingStory
