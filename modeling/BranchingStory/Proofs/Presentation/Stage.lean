import BranchingStory.Player.Basic
import BranchingStory.Proofs.Catalog.Lookup
import Mathlib.Data.List.Chain
import Mathlib.Data.List.Induction

/-!
What the terminal keeps track of. On stage is who was shown last and has not left since, whatever became of the lines.
A line is printed for what changes on stage, and for nothing else: so each character enters and leaves in turn.
-/

namespace BranchingStory

open Playback (Instruction Mode)

theorem Presentation.dispatch_eq_foldl {π : Type} (presentation : Presentation π) (display : π)
    (told : List Instruction) : (presentation.dispatch display told).1 =
      told.foldl (fun display instruction => (presentation.render display instruction).2) display := by
  induction told generalizing display with
  | nil => rfl
  | cons instruction later ih =>
      rw [dispatch, List.foldl_cons]
      split
      · rename_i between rendered
        rw [rendered]
        exact ih between
      · rename_i cause between rendered
        rw [rendered]
        exact ih between

def LinePrinter.Reliable {ω : Type} (printer : LinePrinter ω) : Prop :=
  ∀ screen line, (printer screen line).1 = .ok ()

namespace Terminal

variable {ω : Type}

/-! ## What is told -/

def character? : Instruction → Option String
  | .showCharacter name _ _ => some name
  | .exitCharacter name => some name
  | _ => none

def SetsScene : Instruction → Prop
  | .showBackground .. => True
  | .showCharacter .. => True
  | .exitCharacter .. => True
  | _ => False

/-- The last that is told of a character, since the stage was last cleared, is how it looks and where it stands. -/
def LastShown (told : List Instruction) (name : String) (sprite : Sprite) : Prop :=
  ∃ before after, told = before ++ .showCharacter name sprite.image sprite.position :: after ∧
    ∀ instruction ∈ after, instruction ≠ .endStory ∧ character? instruction ≠ some name

theorem not_lastShown_nil (name : String) (sprite : Sprite) : ¬ LastShown [] name sprite := by
  rintro ⟨before, after, told, -⟩
  simp at told

theorem lastShown_concat {told : List Instruction} {last : Instruction} {name : String} {sprite : Sprite} :
    LastShown (told ++ [last]) name sprite ↔
      last = .showCharacter name sprite.image sprite.position ∨
        LastShown told name sprite ∧ last ≠ .endStory ∧ character? last ≠ some name := by
  constructor
  · rintro ⟨before, after, split, apart⟩
    rcases after.eq_nil_or_concat with rfl | ⟨between, final, added⟩
    · exact .inl (List.singleton_inj.mp (List.append_inj_right' split rfl))
    · rw [List.concat_eq_append] at added
      subst added
      rw [← List.cons_append, ← List.append_assoc] at split
      obtain ⟨rfl, same⟩ := List.append_inj' split rfl
      obtain rfl := List.singleton_inj.mp same
      exact .inr ⟨⟨before, between, rfl, fun instruction listed => apart instruction (List.mem_append_left _ listed)⟩,
        apart last (List.mem_append_right _ (List.mem_singleton_self last))⟩
  · rintro (rfl | ⟨⟨before, after, rfl, apart⟩, other⟩)
    · exact ⟨told, [], rfl, fun _ listed => absurd listed List.not_mem_nil⟩
    · refine ⟨before, after ++ [last], by simp, fun instruction listed => ?_⟩
      rcases List.mem_append.mp listed with earlier | final
      · exact apart instruction earlier
      · rw [List.mem_singleton.mp final]
        exact other

/-! ## What is tracked -/

theorem get?_track {terminal : Terminal ω} {instruction : Instruction} {name : String} {sprite : Sprite} :
    (terminal.track instruction).stage.get? name = some sprite ↔
      instruction = .showCharacter name sprite.image sprite.position ∨
        terminal.stage.get? name = some sprite ∧ instruction ≠ .endStory ∧ character? instruction ≠ some name := by
  cases instruction with
  | showCharacter other image position =>
      by_cases same : other = name
      · subst same
        simp only [track, Catalog.get?_insert_self, character?]
        obtain ⟨seen, place⟩ := sprite
        simp
      · have kept : (terminal.stage.insert other ⟨image, position⟩).get? name = terminal.stage.get? name :=
          Catalog.get?_insert_of_ne (Ne.symm same)
        simp [track, kept, character?, same]
  | exitCharacter other =>
      simp only [track, Catalog.get?_erase, character?]
      simp [and_comm, eq_comm]
  | endStory => simp [track]
  | _ => simp [track, character?]

theorem get?_track_of_other {terminal : Terminal ω} {instruction : Instruction} {name : String}
    (other : character? instruction ≠ some name) (goesOn : instruction ≠ .endStory) :
    (terminal.track instruction).stage.get? name = terminal.stage.get? name := by
  refine Option.ext fun sprite => get?_track.trans ⟨?_, fun kept => .inr ⟨kept, goesOn, other⟩⟩
  rintro (rfl | ⟨kept, -⟩)
  · exact absurd rfl other
  · exact kept

variable (printer : LinePrinter ω)

def shown (terminal : Terminal ω) (told : List Instruction) : Terminal ω :=
  told.foldl (fun terminal instruction => (terminal.render printer instruction).2) terminal

theorem get?_stage_shown {mode : Mode} {screen : ω} {told : List Instruction} {name : String} {sprite : Sprite} :
    (shown printer { mode, screen } told).stage.get? name = some sprite ↔ LastShown told name sprite := by
  induction told using List.reverseRecOn with
  | nil => exact ⟨fun found => absurd found (by simp [shown]), fun last => absurd last (not_lastShown_nil name sprite)⟩
  | append_singleton told last ih =>
      rw [lastShown_concat, ← ih, ← get?_track, shown, List.foldl_append]
      rfl

theorem mem_onStage {terminal : Terminal ω} {name : String} :
    name ∈ terminal.onStage ↔ ∃ sprite, terminal.stage.get? name = some sprite := by
  rw [onStage, ← Catalog.contains_iff_mem_keys, Catalog.contains, Option.isSome_iff_exists]

/-! ## What is printed -/

inductive Prints : ω → List String → ω → Prop
  | done {screen : ω} : Prints screen [] screen
  | line {screen between after : ω} {line : String} {later : List String}
      (printed : printer screen line = (.ok (), between)) (more : Prints between later after) :
      Prints screen (line :: later) after

variable {printer} in
theorem prints_printLines (reliable : printer.Reliable) (screen : ω) (lines : List String) :
    ∃ after, printLines printer screen lines = (.ok (), after) ∧ Prints printer screen lines after := by
  induction lines generalizing screen with
  | nil => exact ⟨screen, rfl, .done⟩
  | cons line later ih =>
      obtain ⟨after, printed, prints⟩ := ih (printer screen line).2
      have here : printer screen line = (.ok (), (printer screen line).2) := Prod.ext (reliable screen line) rfl
      refine ⟨after, ?_, .line here prints⟩
      rw [printLines, here]
      exact printed

/-- Whether a character is on stage, how it looks or where it stands is not what it was, or the background is not. -/
def Changed (before after : Terminal ω) : Prop :=
  (∃ name, after.stage.get? name ≠ before.stage.get? name) ∨ after.background ≠ before.background

theorem not_changed_self (terminal : Terminal ω) : ¬ Changed terminal terminal := by
  rintro (⟨name, differs⟩ | differs)
  · exact differs rfl
  · exact differs rfl

theorem entranceText_eq_none_iff {name : String} {before : Option Sprite} {now : Sprite} :
    entranceText name before now = none ↔ before = some now := by
  cases before with
  | none => simp [entranceText]
  | some before =>
      obtain ⟨image, position⟩ := before
      obtain ⟨image', position'⟩ := now
      by_cases moved : position = position' <;> by_cases changed : image = image' <;>
        simp [entranceText, moved, changed]

section

variable {terminal : Terminal ω} {instruction : Instruction}

theorem length_linesFor_le (sets : SetsScene instruction) : (terminal.linesFor instruction).length ≤ 1 := by
  cases instruction with
  | showBackground key path =>
      rw [linesFor]
      split <;> simp
  | showCharacter name image position => simp [linesFor, Option.length_toList_le]
  | exitCharacter name =>
      rw [linesFor]
      split <;> simp
  | _ => exact sets.elim

theorem track_eq_self (sets : SetsScene instruction) (quiet : terminal.linesFor instruction = []) :
    terminal.track instruction = terminal := by
  cases instruction with
  | showBackground key path =>
      have same : terminal.background = some key := by simpa [linesFor] using quiet
      rw [track, ← same]
  | showCharacter name image position =>
      have same : terminal.stage.get? name = some ⟨image, position⟩ :=
        entranceText_eq_none_iff.mp (Option.toList_eq_nil_iff.mp quiet)
      rw [track, Catalog.insert_of_get? same]
  | exitCharacter name =>
      have absent : terminal.stage.get? name = none := by
        rw [linesFor, ite_eq_right_iff] at quiet
        exact Option.not_isSome_iff_eq_none.mp fun found => absurd (quiet found) (List.cons_ne_nil _ _)
      rw [track, Catalog.erase_of_get? absent]
  | _ => exact sets.elim

theorem linesFor_eq_nil (sets : SetsScene instruction) (same : ¬ Changed terminal (terminal.track instruction)) :
    terminal.linesFor instruction = [] := by
  rw [Changed, not_or, not_exists] at same
  simp only [ne_eq, not_not] at same
  cases instruction with
  | showBackground key path =>
      have kept : terminal.background = some key := same.2.symm
      rw [linesFor, if_pos kept]
  | showCharacter name image position =>
      have kept : terminal.stage.get? name = some ⟨image, position⟩ :=
        (same.1 name).symm.trans Catalog.get?_insert_self
      rw [linesFor, entranceText_eq_none_iff.mpr kept]
      rfl
  | exitCharacter name =>
      have absent : terminal.stage.get? name = none := (same.1 name).symm.trans Catalog.get?_erase_self
      rw [linesFor, Catalog.contains, absent]
      rfl
  | _ => exact sets.elim

theorem exists_line_of_changed (sets : SetsScene instruction)
    (changed : Changed terminal (terminal.track instruction)) : ∃ line, terminal.linesFor instruction = [line] := by
  have some_line : terminal.linesFor instruction ≠ [] := by
    intro quiet
    rw [track_eq_self sets quiet] at changed
    exact terminal.not_changed_self changed
  exact List.length_eq_one_iff.mp
    (Nat.le_antisymm (length_linesFor_le sets) (List.length_pos_iff.mpr some_line))

theorem linesFor_track (sets : SetsScene instruction) : (terminal.track instruction).linesFor instruction = [] := by
  refine linesFor_eq_nil sets ?_
  rintro (⟨name, differs⟩ | differs)
  · refine differs (Option.ext fun sprite => ?_)
    rw [get?_track, get?_track]
    tauto
  · cases instruction <;> exact differs rfl

theorem render_of_quiet (sets : SetsScene instruction) (quiet : terminal.linesFor instruction = []) :
    terminal.render printer instruction = (.ok (), terminal) := by
  rw [render, quiet, track_eq_self sets quiet]
  rfl

end

/-! ## Courses -/

structure Rendering (ω : Type) where
  before : Terminal ω
  instruction : Instruction
  result : Except Presentation.Error Unit
  after : Terminal ω

def Rendering.lines (rendering : Rendering ω) : List String := rendering.before.linesFor rendering.instruction

def course (terminal : Terminal ω) : List Instruction → List (Rendering ω)
  | [] => []
  | instruction :: later =>
      let rendered := terminal.render printer instruction
      ⟨terminal, instruction, rendered.1, rendered.2⟩ :: rendered.2.course later

section

variable {printer} {terminal : Terminal ω} {told : List Instruction} {rendering : Rendering ω}

theorem render_of_mem_course (listed : rendering ∈ terminal.course printer told) :
    rendering.before.render printer rendering.instruction = (rendering.result, rendering.after) := by
  induction told generalizing terminal with
  | nil => exact absurd listed List.not_mem_nil
  | cons instruction later ih =>
      rcases List.mem_cons.mp listed with rfl | further
      · rfl
      · exact ih further

theorem shown_eq_getLast? (terminal : Terminal ω) (told : List Instruction) : terminal.shown printer told =
    ((terminal.course printer told).getLast?.map (·.after)).getD terminal := by
  induction told generalizing terminal with
  | nil => rfl
  | cons instruction later ih =>
      rw [course, List.getLast?_cons, shown, List.foldl_cons]
      refine (ih (terminal.render printer instruction).2).trans ?_
      cases (course printer (terminal.render printer instruction).2 later).getLast? <;> rfl

theorem instructions_course (terminal : Terminal ω) (told : List Instruction) :
    (terminal.course printer told).map (·.instruction) = told := by
  induction told generalizing terminal with
  | nil => rfl
  | cons instruction later ih => exact congrArg (instruction :: ·) (ih _)

theorem course_append (first later : List Instruction) : terminal.course printer (first ++ later) =
    terminal.course printer first ++ (terminal.shown printer first).course printer later := by
  induction first generalizing terminal with
  | nil => rfl
  | cons instruction rest ih => exact congrArg (_ :: ·) ih

theorem courses_of_append {earlier later : List (Rendering ω)}
    (split : terminal.course printer told = earlier ++ later) :
    earlier = terminal.course printer (earlier.map (·.instruction)) ∧
      later = ((earlier.getLast?.map (·.after)).getD terminal).course printer (later.map (·.instruction)) := by
  have parts : told = earlier.map (·.instruction) ++ later.map (·.instruction) := by
    rw [← List.map_append, ← split, instructions_course]
  have equally_long : (terminal.course printer (earlier.map (·.instruction))).length = earlier.length := by
    simpa using congrArg List.length (instructions_course terminal (earlier.map (·.instruction)))
  rw [parts, course_append] at split
  obtain ⟨first, second⟩ := List.append_inj split equally_long
  rw [shown_eq_getLast?, first] at second
  exact ⟨first.symm, second.symm⟩

theorem exists_after_of_mem_course (listed : rendering ∈ terminal.course printer told) :
    ∃ screen, rendering.after = { rendering.before.track rendering.instruction with screen } :=
  ⟨_, (congrArg Prod.snd (render_of_mem_course listed)).symm⟩

theorem stage_after_end {earlier later : List (Rendering ω)} (vacant : terminal.stage = .empty)
    (split : terminal.course printer told = earlier ++ later)
    (ended : ∀ rendering ∈ earlier.getLast?, rendering.instruction = .endStory) :
    ((earlier.getLast?.map (·.after)).getD terminal).stage = .empty := by
  cases last : earlier.getLast? with
  | none => exact vacant
  | some rendering =>
      have listed : rendering ∈ terminal.course printer told :=
        split ▸ List.mem_append_left later (List.mem_of_getLast? last)
      obtain ⟨_, after⟩ := exists_after_of_mem_course listed
      rw [Option.map_some, Option.getD_some, after, ended rendering last]
      rfl

end

/-! ## Entering and leaving -/

inductive Crossing
  | enters
  | leaves
  deriving DecidableEq, Repr

/-- What a line has to say of a character that comes or goes. -/
def crossing? (name line : String) : Option Crossing :=
  if ("[" ++ name ++ " enters (").toList <+: line.toList then some .enters
  else if line = "[" ++ name ++ " leaves]" then some .leaves
  else none

def crossings (name : String) (course : List (Rendering ω)) : List Crossing :=
  (course.filter fun rendering => character? rendering.instruction = some name).flatMap fun rendering =>
    rendering.lines.filterMap (crossing? name)

/-- Who is on stage leaves next, who is not enters, and so on in turn. -/
structure InTurn (present : Bool) (crossings : List Crossing) : Prop where
  first : ∀ crossing ∈ crossings.head?, crossing = if present then .leaves else .enters
  turns : crossings.IsChain (· ≠ ·)

def passage? : Bool → Bool → Option Crossing
  | false, true => some .enters
  | true, false => some .leaves
  | _, _ => none

theorem InTurn.turn {present : Bool} {later : List Crossing} (inTurn : InTurn (!present) later) :
    InTurn present ((if present then .leaves else .enters) :: later) where
  first crossing here := (Option.mem_some_iff.mp here).symm
  turns := by
    refine List.isChain_cons.mpr ⟨fun next follows => ?_, inTurn.turns⟩
    rw [inTurn.first next follows]
    cases present <;> decide

theorem InTurn.cons {before after : Bool} {later : List Crossing} (inTurn : InTurn after later) :
    InTurn before ((passage? before after).toList ++ later) := by
  cases before <;> cases after
  · exact inTurn
  · exact @InTurn.turn false later inTurn
  · exact @InTurn.turn true later inTurn
  · exact inTurn

theorem crossing?_append (name said : String) :
    crossing? name ("[" ++ name ++ said) =
      if " enters (".toList <+: said.toList then some .enters else if said = " leaves]" then some .leaves else none := by
  have enters : ("[" ++ name ++ " enters (").toList <+: ("[" ++ name ++ said).toList ↔
      " enters (".toList <+: said.toList := by
    rw [String.toList_append, String.toList_append (t := said)]
    exact List.prefix_append_right_inj _
  have leaves : "[" ++ name ++ said = "[" ++ name ++ " leaves]" ↔ said = " leaves]" := String.append_right_inj _
  rw [crossing?]
  simp only [enters, leaves]

theorem crossing?_enters (name place : String) :
    crossing? name ("[" ++ name ++ " enters (" ++ place ++ ")]") = some .enters := by
  rw [String.append_assoc, String.append_assoc, crossing?_append]
  simp

theorem crossing?_moves (name place : String) : crossing? name ("[" ++ name ++ " moves " ++ place ++ "]") = none := by
  rw [String.append_assoc, String.append_assoc, crossing?_append, if_neg (by simp), if_neg]
  exact fun same => absurd (congrArg String.toList same) (by simp)

theorem crossing?_poses (name image : String) : crossing? name ("[" ++ name ++ ": " ++ image ++ "]") = none := by
  rw [String.append_assoc, String.append_assoc, crossing?_append, if_neg (by simp), if_neg]
  exact fun same => absurd (congrArg String.toList same) (by simp)

theorem crossing?_leaves (name : String) : crossing? name ("[" ++ name ++ " leaves]") = some .leaves := by
  rw [crossing?_append]
  decide

theorem crossings_entranceText (name : String) (before : Option Sprite) (now : Sprite) :
    (entranceText name before now).toList.filterMap (crossing? name) = (passage? before.isSome true).toList := by
  cases before with
  | none => simp [entranceText, crossing?_enters, passage?]
  | some before =>
      rw [entranceText]
      split
      · simp [crossing?_moves, passage?]
      · split
        · simp [crossing?_poses, passage?]
        · rfl

theorem crossings_linesFor (terminal : Terminal ω) {instruction : Instruction} {name : String}
    (about : character? instruction = some name) :
    (terminal.linesFor instruction).filterMap (crossing? name) =
      (passage? (terminal.stage.contains name) ((terminal.track instruction).stage.contains name)).toList := by
  cases instruction with
  | showCharacter other image position =>
      obtain rfl := Option.some.inj about
      have present : (terminal.track (.showCharacter other image position)).stage.contains other = true := by
        rw [track, Catalog.contains, Catalog.get?_insert_self]
        rfl
      rw [present, linesFor]
      exact crossings_entranceText other (terminal.stage.get? other) ⟨image, position⟩
  | exitCharacter other =>
      obtain rfl := Option.some.inj about
      have absent : (terminal.track (.exitCharacter other)).stage.contains other = false := by
        rw [track, Catalog.contains, Catalog.get?_erase_self]
        rfl
      rw [absent, linesFor]
      cases terminal.stage.contains other with
      | false => rfl
      | true => simp [crossing?_leaves, passage?]
  | _ => cases about

theorem inTurn_course {told : List Instruction} (terminal : Terminal ω) (name : String) (goesOn : .endStory ∉ told) :
    InTurn (terminal.stage.contains name) (crossings name (terminal.course printer told)) := by
  induction told generalizing terminal with
  | nil => exact ⟨nofun, .nil⟩
  | cons instruction later ih =>
      rw [List.mem_cons, not_or] at goesOn
      have onward := ih (terminal.render printer instruction).2 goesOn.2
      have kept : (terminal.render printer instruction).2.stage = (terminal.track instruction).stage := rfl
      rw [kept] at onward
      by_cases about : character? instruction = some name
      · have said : InTurn (terminal.stage.contains name) _ := onward.cons
        rw [← crossings_linesFor terminal about] at said
        rw [crossings, course, List.filter_cons_of_pos (by simpa using about)]
        exact said
      · rw [Catalog.contains, get?_track_of_other about (Ne.symm goesOn.1)] at onward
        rw [crossings, course, List.filter_cons_of_neg (by simpa using about)]
        exact onward

theorem linesFor_screen (terminal : Terminal ω) (instruction : Instruction) (screen : ω) :
    linesFor { terminal with screen } instruction = terminal.linesFor instruction := by
  cases instruction <;> rfl

variable {printer} in
theorem prints_render (reliable : printer.Reliable) (terminal : Terminal ω) (instruction : Instruction) :
    (terminal.render printer instruction).1 = .ok () ∧
      Prints printer terminal.screen (terminal.linesFor instruction) (terminal.render printer instruction).2.screen := by
  obtain ⟨after, printed, prints⟩ := prints_printLines reliable terminal.screen (terminal.linesFor instruction)
  rw [render, printed]
  exact ⟨rfl, prints⟩

/-- Whatever batches of instructions a terminal carries out, and even if lines cannot be printed: on stage are those
whose last instruction, since the story last ended, was to be shown. If every line gets printed, an instruction that
sets the scene prints one line if it changes anything and none if not; so the same again prints nothing and changes
nothing. As long as no story ends, the lines for each character tell that it enters and that it leaves in turn. -/
theorem only_changes_are_printed (printer : LinePrinter ω) (mode : Mode) (screen : ω)
    (batches : List (List Instruction)) :
    let start : Terminal ω := { mode, screen }
    let final := batches.foldl (fun terminal batch => ((presentation printer).dispatch terminal batch).1) start
    let course := start.course printer batches.flatten
    final = (course.getLast?.map (·.after)).getD start ∧
      (∀ name, name ∈ final.onStage ↔ ∃ sprite, LastShown batches.flatten name sprite) ∧
      (printer.Reliable →
        (∀ rendering ∈ course, rendering.result = .ok () ∧
          Prints printer rendering.before.screen rendering.lines rendering.after.screen) ∧
        (∀ rendering ∈ course, SetsScene rendering.instruction →
          (Changed rendering.before rendering.after → ∃ line, rendering.lines = [line]) ∧
            (¬ Changed rendering.before rendering.after → rendering.lines = []) ∧
            rendering.after.linesFor rendering.instruction = [] ∧
              rendering.after.render printer rendering.instruction = (.ok (), rendering.after)) ∧
        ∀ earlier between later, course = earlier ++ between ++ later →
          (∀ rendering ∈ earlier.getLast?, rendering.instruction = .endStory) →
            (∀ rendering ∈ between, rendering.instruction ≠ .endStory) →
              ∀ name, InTurn false (crossings name between)) := by
  intro start final course
  have reached : final = start.shown printer batches.flatten := by
    simp only [final, shown, Presentation.dispatch_eq_foldl, List.foldl_flatten, presentation]
  refine ⟨reached.trans (shown_eq_getLast? start batches.flatten), fun name => ?_, fun reliable => ⟨?_, ?_, ?_⟩⟩
  · simp only [mem_onStage, reached, start, get?_stage_shown]
  · intro rendering listed
    have printed := prints_render reliable rendering.before rendering.instruction
    rw [render_of_mem_course listed] at printed
    exact printed
  · intro rendering listed sets
    obtain ⟨screen, after⟩ := exists_after_of_mem_course listed
    have changed : Changed rendering.before rendering.after ↔
        Changed rendering.before (rendering.before.track rendering.instruction) := by
      rw [after]
      rfl
    have again : rendering.after.linesFor rendering.instruction = [] := by
      rw [after, linesFor_screen]
      exact linesFor_track sets
    rw [changed]
    exact ⟨exists_line_of_changed sets, linesFor_eq_nil sets, again, render_of_quiet printer sets again⟩
  · intro earlier between later split ended goesOn name
    rw [List.append_assoc] at split
    obtain ⟨-, onward⟩ := courses_of_append split
    obtain ⟨here, -⟩ := courses_of_append onward.symm
    have nobody := stage_after_end rfl split ended
    have unended : .endStory ∉ between.map (·.instruction) := by
      intro listed
      obtain ⟨rendering, among, same⟩ := List.mem_map.mp listed
      exact goesOn rendering among same
    have inTurn := inTurn_course printer ((earlier.getLast?.map (·.after)).getD start) name unended
    rw [← here, nobody] at inTurn
    exact inTurn

theorem alice_comes_and_goes :
    let seen (image : String) (position : Position) := Instruction.showCharacter "Alice" image position
    let batches : List (List Instruction) :=
      [[seen "a.png" .left, seen "a.png" .left, seen "a.png" .right],
        [seen "b.png" .right, .exitCharacter "Alice", .exitCharacter "Alice", .endStory, seen "a.png" .left]]
    let start : Terminal Transcript := { mode := .scene, screen := {} }
    let final :=
      batches.foldl (fun terminal batch => ((presentation Transcript.printer).dispatch terminal batch).1) start
    let course := start.course Transcript.printer batches.flatten
    LinePrinter.Reliable Transcript.printer ∧ "Alice" ∈ final.onStage ∧
      final.screen.output = #["[Alice enters (left)]", "[Alice moves right]", "[Alice: b.png]", "[Alice leaves]", "",
        "[Alice enters (left)]"] ∧
      crossings "Alice" (course.take 6) = [.enters, .leaves] ∧ InTurn false (crossings "Alice" (course.take 6)) ∧
      ∃ rendering ∈ course, SetsScene rendering.instruction ∧
        rendering.after.render Transcript.printer rendering.instruction = (.ok (), rendering.after) := by
  intro seen batches start final course
  have reliable : LinePrinter.Reliable Transcript.printer := fun _ _ => rfl
  obtain ⟨-, stage, printed⟩ := only_changes_are_printed Transcript.printer .scene ({} : Transcript) batches
  obtain ⟨-, once, turns⟩ := printed reliable
  have shown_last : LastShown batches.flatten "Alice" ⟨"a.png", .left⟩ := ⟨batches.flatten.take 7, [], rfl, nofun⟩
  have split : course = [] ++ course.take 6 ++ course.drop 6 := (List.take_append_drop 6 course).symm
  have goesOn : ∀ rendering ∈ course.take 6, rendering.instruction ≠ .endStory := by
    have told : .endStory ∉ (course.take 6).map (·.instruction) := by decide +kernel
    exact fun rendering listed same => told (List.mem_map.mpr ⟨rendering, listed, same⟩)
  have on_stage : "Alice" ∈ final.onStage := (stage "Alice").mpr ⟨_, shown_last⟩
  have output : final.screen.output = #["[Alice enters (left)]", "[Alice moves right]", "[Alice: b.png]",
      "[Alice leaves]", "", "[Alice enters (left)]"] := by decide +kernel
  have crossed : crossings "Alice" (course.take 6) = [.enters, .leaves] := by decide +kernel
  have in_turn : InTurn false (crossings "Alice" (course.take 6)) :=
    turns [] (course.take 6) (course.drop 6) split (fun _ before => absurd before (by simp)) goesOn "Alice"
  have listed : ⟨start, seen "a.png" .left, _, _⟩ ∈ course := List.mem_cons_self
  exact ⟨reliable, on_stage, output, crossed, in_turn, _, listed, trivial, (once _ listed trivial).2.2.2⟩

end Terminal
end BranchingStory
