import BranchingStory.Player.Arguments
import BranchingStory.Proofs.Results
import Mathlib.Data.List.Perm.Basic

/-!
What arguments mean. They fall into groups of one argument each, but for the directory that goes with the option
before it. Options may stand anywhere: only the order of the plain arguments counts, and which directory is last.
-/

namespace BranchingStory
namespace Player
namespace Arguments

/-- An argument by itself, or the option for the save together with the argument after it. -/
inductive Group
  | single (argument : String)
  | saved (directory : String)
  deriving DecidableEq, Repr

/-- The groups of arguments from left to right. The option for the save is by itself only if nothing follows it. -/
def groups : List String → List Group
  | [] => []
  | argument :: rest =>
      if argument = "--save-dir" then
        match rest with
        | [] => [.single argument]
        | directory :: rest => .saved directory :: groups rest
      else .single argument :: groups rest

def switches : List String := ["--texting", "--autoplay", "--debug"]

def IsOption (argument : String) : Prop := ['-', '-'] <+: argument.toList

instance (argument : String) : Decidable (IsOption argument) :=
  inferInstanceAs (Decidable (['-', '-'] <+: argument.toList))

namespace Group

def spelled : Group → List String
  | .single argument => [argument]
  | .saved directory => ["--save-dir", directory]

def plain? : Group → Option String
  | .single argument => if IsOption argument then none else some argument
  | .saved _ => none

def directory? : Group → Option String
  | .single _ => none
  | .saved directory => some directory

def Known : Group → Prop
  | .single argument => IsOption argument → argument ∈ switches
  | .saved _ => True

end Group

def plainOf (groups : List Group) : List String := groups.filterMap Group.plain?

def directoriesOf (groups : List Group) : List String := groups.filterMap Group.directory?

/-- The meaning of arguments that fall into groups. -/
structure Means (groups : List Group) (arguments : Arguments) : Prop where
  plain : plainOf groups = [arguments.gameDirectory, arguments.story]
  kind : arguments.kind = .texting ↔ .single "--texting" ∈ groups
  autoplay : arguments.autoplay = true ↔ .single "--autoplay" ∈ groups
  debug : arguments.debug = true ↔ .single "--debug" ∈ groups
  saved : arguments.saveDirectory? = (directoriesOf groups).getLast?

/-! ## Groups -/

theorem groups_cons {argument : String} (other : argument ≠ "--save-dir") (rest : List String) :
    groups (argument :: rest) = .single argument :: groups rest := by
  rw [groups.eq_def]
  exact if_neg other

theorem flatMap_groups (arguments : List String) : (groups arguments).flatMap Group.spelled = arguments := by
  fun_induction groups arguments with
  | case1 => rfl
  | case2 => rfl
  | case3 directory rest ih => exact congrArg (["--save-dir", directory] ++ ·) ih
  | case4 argument rest other ih => exact congrArg (argument :: ·) ih

theorem groups_flatMap {order : List Group} (complete : .single "--save-dir" ∉ order) :
    groups (order.flatMap Group.spelled) = order := by
  induction order with
  | nil => rfl
  | cons group rest ih =>
      rw [List.mem_cons, not_or] at complete
      have onward := ih complete.2
      cases group with
      | single argument =>
          have other : argument ≠ "--save-dir" := fun same => complete.1 (congrArg _ same.symm)
          rw [List.flatMap_cons, Group.spelled, List.singleton_append, groups_cons other, onward]
      | saved directory => exact congrArg (.saved directory :: ·) onward

/-! ## What is gathered -/

def gatheredOf (groups : List Group) : Gathered where
  plain := plainOf groups
  kind := if .single "--texting" ∈ groups then .texting else .event
  autoplay := decide (.single "--autoplay" ∈ groups)
  debug := decide (.single "--debug" ∈ groups)
  saveDirectory? := (directoriesOf groups).getLast?

theorem gatheredOf_concat (before : List Group) (group : Group) :
    gatheredOf (before ++ [group]) =
      { plain := plainOf before ++ group.plain?.toList
        kind := if group = .single "--texting" then .texting else (gatheredOf before).kind
        autoplay := decide (group = .single "--autoplay") || (gatheredOf before).autoplay
        debug := decide (group = .single "--debug") || (gatheredOf before).debug
        saveDirectory? := group.directory?.or (gatheredOf before).saveDirectory? } := by
  have plain : plainOf (before ++ [group]) = plainOf before ++ group.plain?.toList := by
    rw [plainOf, List.filterMap_append]
    cases taken : group.plain? <;> simp [plainOf, taken]
  have directories : (directoriesOf (before ++ [group])).getLast? =
      group.directory?.or (directoriesOf before).getLast? := by
    rw [directoriesOf, List.filterMap_append]
    cases taken : group.directory? <;> simp [directoriesOf, taken]
  have named (option : String) : Group.single option ∈ before ++ [group] ↔
      group = .single option ∨ .single option ∈ before := by
    rw [List.mem_append, List.mem_singleton, or_comm, eq_comm]
  simp only [gatheredOf, plain, directories, named, Bool.decide_or, Gathered.mk.injEq, true_and, and_true]
  by_cases texting : group = .single "--texting" <;> simp [texting]

theorem gather_saved (before : List Group) (directory : String) (rest : List String) :
    gather (gatheredOf before) ("--save-dir" :: directory :: rest) =
      gather (gatheredOf (before ++ [.saved directory])) rest := by
  rw [gather.eq_def, gatheredOf_concat]
  simp [Group.plain?, Group.directory?, gatheredOf]

theorem gather_single {argument : String} (before : List Group) (rest : List String)
    (known : (Group.single argument).Known) :
    gather (gatheredOf before) (argument :: rest) = gather (gatheredOf (before ++ [.single argument])) rest := by
  have texting : IsOption "--texting" := by decide
  have autoplay : IsOption "--autoplay" := by decide
  have debug : IsOption "--debug" := by decide
  have save : IsOption "--save-dir" := by decide
  rw [gather.eq_def, gatheredOf_concat]
  by_cases option : IsOption argument
  · have switch := known option
    simp only [switches, List.mem_cons, List.not_mem_nil, or_false] at switch
    rcases switch with rfl | rfl | rfl
    · simp [gatheredOf, Group.plain?, Group.directory?, texting]
    · simp [gatheredOf, Group.plain?, Group.directory?, autoplay]
    · simp [gatheredOf, Group.plain?, Group.directory?, debug]
  · have differs {other : String} (of_option : IsOption other) : argument ≠ other := fun same => option (same ▸ of_option)
    have unprefixed : ['-', '-'].isPrefixOf argument.toList ≠ true := fun found =>
      option (List.isPrefixOf_iff_prefix.mp found)
    simp [gatheredOf, Group.plain?, Group.directory?, differs texting, differs autoplay, differs debug, differs save,
      unprefixed, option]

theorem gather_unknown {argument : String} (gathered : Gathered) (rest : List String)
    (unknown : ¬ (Group.single argument).Known) (other : argument ≠ "--save-dir") :
    gather gathered (argument :: rest) = .error (.unknownOption argument) := by
  obtain ⟨option, unlisted⟩ := Classical.not_imp.mp unknown
  simp only [switches, List.mem_cons, List.not_mem_nil, or_false, not_or] at unlisted
  rw [gather.eq_def]
  simp [unlisted, other, List.isPrefixOf_iff_prefix.mpr option]

theorem gather_eq_ok_iff (before : List Group) {arguments : List String} {gathered : Gathered} :
    gather (gatheredOf before) arguments = .ok gathered ↔
      (∀ group ∈ groups arguments, group.Known) ∧ gatheredOf (before ++ groups arguments) = gathered := by
  fun_induction groups arguments generalizing before with
  | case1 => simp [gather]
  | case2 =>
      have alone : ¬ (Group.single "--save-dir").Known := fun known => absurd (known (by decide)) (by decide)
      simp [gather, alone]
  | case3 directory rest ih =>
      rw [gather_saved, ih, List.append_assoc, List.singleton_append, List.forall_mem_cons]
      exact and_congr_left' ⟨fun later => ⟨trivial, later⟩, And.right⟩
  | case4 argument rest other ih =>
      rw [List.forall_mem_cons]
      by_cases known : (Group.single argument).Known
      · rw [gather_single before rest known, ih, List.append_assoc, List.singleton_append]
        exact and_congr_left' ⟨fun later => ⟨known, later⟩, And.right⟩
      · rw [gather_unknown _ rest known other]
        exact ⟨nofun, fun all => absurd all.1.1 known⟩

/-! ## Meaning -/

theorem Means.unique {groups : List Group} {parsed other : Arguments} (means : Means groups parsed)
    (also : Means groups other) : parsed = other := by
  have plain := means.plain.symm.trans also.plain
  have kind := means.kind.trans also.kind.symm
  have autoplay := Bool.eq_iff_iff.mpr (means.autoplay.trans also.autoplay.symm)
  have debug := Bool.eq_iff_iff.mpr (means.debug.trans also.debug.symm)
  have saved := means.saved.trans also.saved.symm
  obtain ⟨_, _, first, _, _, _⟩ := parsed
  obtain ⟨_, _, second, _, _, _⟩ := other
  obtain ⟨rfl, rfl⟩ : _ ∧ _ := by simpa using plain
  obtain rfl : first = second := by cases first <;> cases second <;> simp_all
  cases autoplay
  cases debug
  cases saved
  rfl

theorem means_of_plain {groups : List Group} {gameDirectory story : String}
    (plain : plainOf groups = [gameDirectory, story]) :
    Means groups { gatheredOf groups with gameDirectory, story } where
  plain := plain
  kind := by simp [gatheredOf]
  autoplay := decide_eq_true_iff
  debug := decide_eq_true_iff
  saved := rfl

theorem ofList_eq_ok_iff {arguments : List String} {parsed : Arguments} :
    ofList arguments = .ok parsed ↔ (∀ group ∈ groups arguments, group.Known) ∧ Means (groups arguments) parsed := by
  have gathered : ∀ result, gather {} arguments = .ok result ↔
      (∀ group ∈ groups arguments, group.Known) ∧ gatheredOf (groups arguments) = result := fun _ =>
    gather_eq_ok_iff []
  rw [ofList, bind_eq_ok]
  constructor
  · rintro ⟨result, taken, finished⟩
    obtain ⟨known, rfl⟩ := (gathered result).mp taken
    refine ⟨known, ?_⟩
    split at finished
    · rename_i plain
      obtain rfl := Except.ok.inj finished
      exact means_of_plain plain
    all_goals cases finished
  · rintro ⟨known, means⟩
    have plain : (gatheredOf (groups arguments)).plain = [parsed.gameDirectory, parsed.story] := means.plain
    refine ⟨_, (gathered _).mpr ⟨known, rfl⟩, ?_⟩
    rw [plain]
    exact congrArg Except.ok ((means_of_plain plain).unique means)

theorem forall_known_iff {groups : List Group} :
    (∀ group ∈ groups, group.Known) ↔ .single "--save-dir" ∉ groups ∧
      ∀ option, .single option ∈ groups → IsOption option → option = "--save-dir" ∨ option ∈ switches := by
  constructor
  · intro known
    refine ⟨fun alone => absurd (known _ alone (by decide)) (by decide), fun option listed isOption => ?_⟩
    exact .inr (known _ listed isOption)
  · rintro ⟨complete, known⟩ group listed
    cases group with
    | saved directory => trivial
    | single argument =>
        intro isOption
        refine (known argument listed isOption).resolve_left fun same => ?_
        exact complete (same ▸ listed)

theorem exists_ofList_iff {arguments : List String} :
    (∃ parsed, ofList arguments = .ok parsed) ↔
      (∀ group ∈ groups arguments, group.Known) ∧ (plainOf (groups arguments)).length = 2 := by
  constructor
  · rintro ⟨parsed, taken⟩
    obtain ⟨known, means⟩ := ofList_eq_ok_iff.mp taken
    exact ⟨known, by rw [means.plain]; rfl⟩
  · rintro ⟨known, two⟩
    obtain ⟨gameDirectory, story, plain⟩ := List.length_eq_two.mp two
    exact ⟨_, ofList_eq_ok_iff.mpr ⟨known, means_of_plain plain⟩⟩

theorem Means.of_perm {groups order : List Group} {parsed : Arguments} (means : Means groups parsed)
    (same : order.Perm groups) (plain : plainOf order = plainOf groups)
    (directories : directoriesOf order = directoriesOf groups) : Means order parsed where
  plain := plain.trans means.plain
  kind := means.kind.trans same.mem_iff.symm
  autoplay := means.autoplay.trans same.mem_iff.symm
  debug := means.debug.trans same.mem_iff.symm
  saved := directories ▸ means.saved

/-- Arguments are taken if every option is known and followed by what it asks for, and two plain arguments are left.
It does not matter where the options stand: other arguments of the same groups mean the same, or nothing as they do,
as long as the plain ones and the directories are in the same order. -/
theorem options_may_stand_anywhere (arguments : List String) :
    (groups arguments).flatMap Group.spelled = arguments ∧
      ((∃ parsed, ofList arguments = .ok parsed) ↔
        .single "--save-dir" ∉ groups arguments ∧
          (∀ option, .single option ∈ groups arguments → IsOption option →
            option = "--save-dir" ∨ option ∈ switches) ∧
            (plainOf (groups arguments)).length = 2) ∧
      (∀ parsed, ofList arguments = .ok parsed → Means (groups arguments) parsed) ∧
      (.single "--save-dir" ∉ groups arguments → ∀ order : List Group, order.Perm (groups arguments) →
        plainOf order = plainOf (groups arguments) → directoriesOf order = directoriesOf (groups arguments) →
          (ofList (order.flatMap Group.spelled)).toOption = (ofList arguments).toOption) := by
  refine ⟨flatMap_groups arguments, ?_, fun parsed taken => (ofList_eq_ok_iff.mp taken).2,
    fun complete order same plain directories => ?_⟩
  · rw [exists_ofList_iff, forall_known_iff, and_assoc]
  · have complete_order : .single "--save-dir" ∉ order := fun alone => complete (same.mem_iff.mp alone)
    apply Option.ext
    intro parsed
    rw [toOption_eq_some, toOption_eq_some, ofList_eq_ok_iff, ofList_eq_ok_iff, groups_flatMap complete_order]
    constructor
    · rintro ⟨known, means⟩
      exact ⟨fun group listed => known group (same.mem_iff.mpr listed),
        means.of_perm same.symm plain.symm directories.symm⟩
    · rintro ⟨known, means⟩
      exact ⟨fun group listed => known group (same.mem_iff.mp listed), means.of_perm same plain directories⟩

theorem play_with_trailing_options :
    let arguments := ["--save-dir", "saves", "--texting", "game", "--save-dir", "--debug", "bea.json"]
    let trailing := ["game", "bea.json", "--save-dir", "saves", "--save-dir", "--debug", "--texting"]
    let parsed : Arguments := ⟨"game", "bea.json", .texting, false, false, some "--debug"⟩
    groups arguments = [.saved "saves", .single "--texting", .single "game", .saved "--debug", .single "bea.json"] ∧
      ofList arguments = .ok parsed ∧ ofList trailing = .ok parsed := by
  intro arguments trailing parsed
  have split : groups arguments =
      [.saved "saves", .single "--texting", .single "game", .saved "--debug", .single "bea.json"] := by decide
  obtain ⟨-, -, -, anywhere⟩ := options_may_stand_anywhere arguments
  have taken : ofList arguments = .ok parsed := by decide
  have same := anywhere (by decide) [.single "game", .single "bea.json", .saved "saves", .saved "--debug", .single "--texting"]
    (by decide) (by decide) (by decide)
  rw [taken] at same
  exact ⟨split, taken, toOption_eq_some.mp same⟩

end Arguments
end Player
end BranchingStory
