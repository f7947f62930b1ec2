import BranchingStory.Proofs.Playback.Shape
import BranchingStory.Proofs.Playback.Untold

/-!
Looking ahead and going on agree. Looking ahead searches the stack from the top for a context that has
something left; a run leaves one exhausted context after the other. Both come to the same entry, or both
to the end of the story.
-/

namespace BranchingStory
namespace Playback

/-! ## What a context has left -/

namespace Context

variable {context : Context} {index : Nat} {entry : Entry}

def Exhausted (context : Context) : Prop := ∀ index < context.entries.length, index ∈ context.processed.keys

instance (context : Context) : Decidable context.Exhausted :=
  inferInstanceAs (Decidable (∀ index < context.entries.length, index ∈ context.processed.keys))

structure FirstUntold (context : Context) (index : Nat) (entry : Entry) : Prop where
  present : context.entries[index]? = some entry
  fresh : index ∉ context.processed.keys
  told_before : ∀ earlier < index, earlier ∈ context.processed.keys

theorem firstUntold_of_next? (found : context.next? = some (index, entry)) :
    context.FirstUntold index entry := by
  obtain ⟨present, fresh⟩ := next?_eq_some found
  simp only [next?, Option.map_eq_some_iff, Prod.mk.injEq] at found
  obtain ⟨_, _, first, _⟩ := found
  exact ⟨present, fresh, fun earlier less => mem_of_lt_firstMissing (Nat.zero_le earlier) (first ▸ less)⟩

theorem next?_eq_none_iff : context.next? = none ↔ context.Exhausted := by
  constructor
  · intro none index bound
    simp only [next?, Option.map_eq_none_iff, List.getElem?_eq_none_iff] at none
    exact mem_of_lt_firstMissing (Nat.zero_le index) (by omega)
  · intro exhausted
    rw [Option.eq_none_iff_forall_ne_some]
    rintro ⟨index, entry⟩ found
    obtain ⟨present, fresh⟩ := next?_eq_some found
    obtain ⟨bound, _⟩ := List.getElem?_eq_some_iff.mp present
    exact fresh (exhausted index bound)

theorem FirstUntold.not_exhausted (first : context.FirstUntold index entry) : ¬context.Exhausted := by
  intro exhausted
  obtain ⟨bound, _⟩ := List.getElem?_eq_some_iff.mp first.present
  exact first.fresh (exhausted index bound)

theorem FirstUntold.unique {other : Nat} {another : Entry} (first : context.FirstUntold index entry)
    (also : context.FirstUntold other another) : index = other ∧ entry = another := by
  have same : index = other := by
    rcases Nat.lt_trichotomy index other with less | same | more
    · exact absurd (also.told_before index less) first.fresh
    · exact same
    · exact absurd (first.told_before other more) also.fresh
  subst same
  exact ⟨rfl, Option.some.inj (first.present.symm.trans also.present)⟩

end Context

/-! ## What a stack has ahead -/

structure Telling where
  depth : Nat
  index : Nat
  entry : Entry

def Telling.peek (telling : Telling) : Peek :=
  ⟨telling.depth, telling.entry.speaker?, telling.entry.line?⟩

namespace Stack

variable {stack below : Stack} {context : Context} {index : Nat} {entry : Entry} {telling : Telling}

def popped (stack : Stack) : Stack := stack.dropWhile fun context => context.Exhausted

/-- The telling of the first entry that is left in the context on top, once the exhausted ones are popped. -/
structure Upcoming (stack : Stack) (telling : Telling) : Prop where
  depth : telling.depth = stack.popped.length
  first : ∃ context, stack.popped.head? = some context ∧ context.FirstUntold telling.index telling.entry

theorem popped_of_exhausted (exhausted : context.Exhausted) : popped (context :: below) = popped below :=
  List.dropWhile_cons_of_pos (decide_eq_true exhausted)

theorem popped_of_left (left : ¬context.Exhausted) : popped (context :: below) = context :: below :=
  List.dropWhile_cons_of_neg fun exhausted => left (of_decide_eq_true exhausted)

theorem upcoming_of_exhausted (exhausted : context.Exhausted) :
    Upcoming (context :: below) telling ↔ Upcoming below telling := by
  constructor <;> rintro ⟨depth, first⟩
  · rw [popped_of_exhausted exhausted] at depth first
    exact ⟨depth, first⟩
  · rw [← popped_of_exhausted exhausted] at depth first
    exact ⟨depth, first⟩

theorem upcoming_of_firstUntold (first : context.FirstUntold index entry) :
    Upcoming (context :: below) telling ↔ telling = ⟨below.length + 1, index, entry⟩ := by
  have whole : popped (context :: below) = context :: below := popped_of_left first.not_exhausted
  constructor
  · rintro ⟨depth, other, top, also⟩
    rw [whole] at depth top
    obtain rfl := Option.some.inj top
    obtain ⟨index, entry⟩ := first.unique also
    obtain ⟨_, _, _⟩ := telling
    simp only [List.length_cons] at depth
    simp only [depth, index, entry]
  · rintro rfl
    exact ⟨by rw [whole]; rfl, context, by rw [whole]; rfl, first⟩

theorem not_upcoming_nil : ¬Upcoming [] telling := by
  rintro ⟨_, _, top, _⟩
  cases top

theorem peek?_eq_none_iff : stack.peek? = none ↔ ∀ context ∈ stack, context.Exhausted := by
  induction stack with
  | nil => simp [peek?]
  | cons context below ih =>
      rw [List.forall_mem_cons, peek?]
      cases found : context.next? with
      | none => simp only [ih, Context.next?_eq_none_iff.mp found, true_and]
      | some next =>
          have left := (Context.firstUntold_of_next? found).not_exhausted
          simp only [reduceCtorEq, left, false_and]

theorem peek?_eq_some_iff {peek : Peek} :
    stack.peek? = some peek ↔ ∃ telling, stack.Upcoming telling ∧ telling.peek = peek := by
  induction stack with
  | nil => simp only [peek?, reduceCtorEq, not_upcoming_nil, false_and, exists_false]
  | cons context below ih =>
      rw [peek?]
      cases found : context.next? with
      | none => simp only [ih, upcoming_of_exhausted (Context.next?_eq_none_iff.mp found)]
      | some next =>
          simp only [upcoming_of_firstUntold (Context.firstUntold_of_next? found), exists_eq_left,
            Option.some.injEq]
          rfl

end Stack

/-! ## What a run tells first -/

structure Move.Tells (move : Move) (telling : Telling) : Prop where
  depth : telling.depth = move.before.length
  marks : ∃ context below, move.before = context :: below ∧
    context.entries[telling.index]? = some telling.entry ∧ telling.index ∉ context.processed.keys ∧
    context.mark telling.index :: below <:+ move.after

def Move.Silent (move : Move) : Prop := ∀ telling, ¬move.Tells telling

inductive FirstTold (telling : Telling) : List Move → Prop
  | here {move : Move} {later : List Move} (tells : move.Tells telling) : FirstTold telling (move :: later)
  | later {move : Move} {rest : List Move} (silent : move.Silent) (first : FirstTold telling rest) :
      FirstTold telling (move :: rest)

theorem FirstTold.not_silent {telling : Telling} {moves : List Move} (first : FirstTold telling moves) :
    ¬∀ move ∈ moves, move.Silent := by
  intro silent
  induction first with
  | here tells => exact silent _ List.mem_cons_self telling tells
  | later _ _ ih => exact ih fun move member => silent move (List.mem_cons_of_mem _ member)

theorem silent_of_exhausted {context : Context} {below after : Stack} (exhausted : context.Exhausted) :
    Move.Silent ⟨context :: below, after⟩ := by
  rintro telling ⟨_, _, _, same, present, fresh, _⟩
  obtain ⟨rfl, rfl⟩ := List.cons.inj same
  obtain ⟨bound, _⟩ := List.getElem?_eq_some_iff.mp present
  exact fresh (exhausted _ bound)

theorem tells_of_goesTo {context : Context} {below after : Stack} {index : Nat} {entry : Entry}
    (found : context.next? = some (index, entry)) (goes : Stack.GoesTo (context :: below) after) :
    Move.Tells ⟨context :: below, after⟩ ⟨below.length + 1, index, entry⟩ := by
  obtain ⟨present, fresh⟩ := Context.next?_eq_some found
  refine ⟨rfl, context, below, rfl, present, fresh, ?_⟩
  cases goes with
  | leave exhausted => simp [found] at exhausted
  | tell also =>
      obtain ⟨rfl, _⟩ := Prod.mk.inj (Option.some.inj (found.symm.trans also))
      exact List.suffix_refl _
  | enter also led =>
      obtain ⟨rfl, _⟩ := Prod.mk.inj (Option.some.inj (found.symm.trans also))
      exact List.suffix_cons _ _

theorem turn_of_exhausted {context : Context} {below : Stack} (clock : Nat → Instant) (step : Step)
    (exhausted : context.next? = none) :
    turn clock (context :: below) step = .onward below (step.exhaust (below.length + 1)) := by
  simp only [turn, exhausted]

theorem moves_of_exhausted {context : Context} {below : Stack} (clock : Nat → Instant) (step : Step)
    (exhausted : context.next? = none) :
    moves clock (context :: below) step =
      ⟨context :: below, below⟩ :: moves clock below (step.exhaust (below.length + 1)) := by
  rw [moves, turn_of_exhausted clock step exhausted]

theorem exists_moves_eq_cons (clock : Nat → Instant) (stack : Stack) (step : Step) :
    ∃ later, moves clock stack step = ⟨stack, (turn clock stack step).stack⟩ :: later := by
  cases turned : turn clock stack step with
  | onward next after => exact ⟨moves clock next after, by rw [moves, turned]; rfl⟩
  | rest last paused => exact ⟨[], by rw [moves, turned]; rfl⟩

theorem firstTold_moves (clock : Nat → Instant) {stack : Stack} (step : Step) {telling : Telling}
    (upcoming : stack.Upcoming telling) : FirstTold telling (moves clock stack step) := by
  induction stack generalizing step with
  | nil => exact absurd upcoming Stack.not_upcoming_nil
  | cons context below ih =>
      cases found : context.next? with
      | none =>
          have exhausted := Context.next?_eq_none_iff.mp found
          rw [moves_of_exhausted clock step found]
          exact .later (silent_of_exhausted exhausted) (ih _ ((Stack.upcoming_of_exhausted exhausted).mp upcoming))
      | some next =>
          have first := Context.firstUntold_of_next? found
          obtain rfl := (Stack.upcoming_of_firstUntold first).mp upcoming
          obtain ⟨later, same⟩ := exists_moves_eq_cons clock (context :: below) step
          rw [same]
          exact .here (tells_of_goesTo found (goesTo_of_turnsTo (turnsTo_turn clock _ step)))

theorem silent_moves (clock : Nat → Instant) {stack : Stack} (step : Step)
    (exhausted : ∀ context ∈ stack, context.Exhausted) :
    (∀ move ∈ moves clock stack step, move.Silent) ∧ (run clock stack step).1 = [] := by
  induction stack generalizing step with
  | nil =>
      have last : turn clock [] step = .rest [] step.finish := rfl
      rw [moves, run, last]
      refine ⟨?_, rfl⟩
      intro move member telling tells
      obtain ⟨_, _, same, _⟩ := tells.marks
      rw [List.mem_singleton.mp member] at same
      cases same
  | cons context below ih =>
      obtain ⟨top, rest⟩ := List.forall_mem_cons.mp exhausted
      have none := Context.next?_eq_none_iff.mpr top
      obtain ⟨silent, ended⟩ := ih (step.exhaust (below.length + 1)) rest
      rw [moves_of_exhausted clock step none, run, turn_of_exhausted clock step none]
      exact ⟨List.forall_mem_cons.mpr ⟨silent_of_exhausted top, silent⟩, ended⟩

/-! ## Looking ahead and going on -/

/-- Looking ahead finds nothing just where all contexts are exhausted, and else the first entry that is left
once the exhausted contexts on top are popped. It changes nothing. Whatever is asked next and makes playback
go on tells that entry first, at that depth; or, if there was none, tells nothing and ends the story. -/
theorem lookahead_agrees_with_run :
    (∀ stack : Stack, (stack.peek? = none ↔ ∀ context ∈ stack, context.Exhausted) ∧
      ∀ peek, stack.peek? = some peek ↔ ∃ telling, stack.Upcoming telling ∧ telling.peek = peek) ∧
    ∀ (setup : Setup) (story : Story) (clock : Nat → Instant) (calls : List Call),
      let played := (setup.playback story).after clock calls
      (played.ask clock .peek).1 = played ∧
        ∀ call, played.goesOn call = true →
          let answer := played.ask clock call
          let moves := (Exchange.mk played call answer.1 answer.2).moves clock
          Path played.stack moves answer.1.stack ∧
            (played.peek? = none ↔ (∀ move ∈ moves, move.Silent) ∧ answer.1.teller.status = .ended) ∧
            ∀ peek, played.peek? = some peek → ∃ telling, played.stack.Upcoming telling ∧
              telling.peek = peek ∧ FirstTold telling moves := by
  refine ⟨fun stack => ⟨Stack.peek?_eq_none_iff, fun peek => Stack.peek?_eq_some_iff⟩, ?_⟩
  intro setup story clock calls played
  refine ⟨rfl, ?_⟩
  intro call goes answer moves
  refine ⟨path_ask clock played call, ?_⟩
  obtain ⟨step, prepared, answered⟩ := ask_of_goesOn clock goes
  have made : moves = Playback.moves clock played.stack step.underWay := by
    simp only [moves, Exchange.moves, prepares_iff.mp prepared]
  have consistent : answer.1.Consistent :=
    consistent_ask clock played call ((consistent_playback setup story).after clock calls)
  have tells : ∀ peek, played.peek? = some peek → ∃ telling, played.stack.Upcoming telling ∧
      telling.peek = peek ∧ FirstTold telling moves := by
    intro peek peeked
    obtain ⟨telling, upcoming, same⟩ := Stack.peek?_eq_some_iff.mp peeked
    exact ⟨telling, upcoming, same, made ▸ firstTold_moves clock step.underWay upcoming⟩
  refine ⟨⟨?_, ?_⟩, tells⟩
  · intro nothing
    obtain ⟨silent, ended⟩ := silent_moves clock step.underWay (Stack.peek?_eq_none_iff.mp nothing)
    refine ⟨made ▸ silent, consistent.ended_iff.mpr ?_⟩
    simp only [answer, answered]
    exact ended
  · rintro ⟨silent, _⟩
    rw [Option.eq_none_iff_forall_ne_some]
    intro peek peeked
    obtain ⟨_, _, _, first⟩ := tells peek peeked
    exact first.not_silent silent

theorem farewell_is_foreseen :
    let story : Story :=
      [{ Entry.blank with branch := some ⟨"true", [Entry.line (some "Bea") "Psst"]⟩ }, Entry.line none "Bye!"]
    let played := (Setup.playback {} story).after default [.start]
    let answer := played.ask default (.event .advance)
    let moves := (Exchange.mk played (.event .advance) answer.1 answer.2).moves default
    let farewell : Peek := ⟨1, none, some "Bye!"⟩
    played.goesOn (.event .advance) = true ∧ played.depth = 2 ∧ played.peek? = some farewell ∧
      ∃ telling, played.stack.Upcoming telling ∧ telling.peek = farewell ∧ FirstTold telling moves := by
  intro story played answer moves farewell
  have goes : played.goesOn (.event .advance) = true := by decide +kernel
  have peeked : played.peek? = some farewell := by decide +kernel
  obtain ⟨-, agrees⟩ := lookahead_agrees_with_run.2 {} story default [.start]
  exact ⟨goes, by decide +kernel, peeked, (agrees (.event .advance) goes).2.2 farewell peeked⟩

end Playback
end BranchingStory
