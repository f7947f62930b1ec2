import BranchingStory.Proofs.Playback.Run

/-!
What a run keeps. Telling the entries that lie ahead records their unlocks; everything else that a run does leaves
the variables and the ledger as they are, and leaves nothing to be done but traces.
-/

namespace BranchingStory

inductive Entry.LiesIn (entry : Entry) : Story → Prop
  | here {story : Story} (listed : entry ∈ story) : entry.LiesIn story
  | inside {story : Story} {outer : Entry} {branch : Branch} (listed : outer ∈ story)
      (led : outer.branch = some branch) (inside : entry.LiesIn branch.story) : entry.LiesIn story

theorem Entry.LiesIn.mem {entry : Entry} {story : Story} (lies : entry.LiesIn story)
    (flat : ∀ outer ∈ story, outer.branch.isNone = true) : entry ∈ story := by
  cases lies with
  | here listed => exact listed
  | inside listed led inside =>
      have none := flat _ listed
      rw [led] at none
      cases none

namespace Playback

def Stack.Ahead (Told : Entry → Prop) (stack : Stack) : Prop :=
  ∀ context ∈ stack, ∀ entry : Entry, entry.LiesIn context.entries → Told entry

/-- What a part of a step does that leaves the variables, the ledger and the save alone. -/
structure Step.Traces (before after : Step) : Prop where
  scope : after.teller.scope = before.teller.scope
  ledger : after.teller.ledger = before.teller.ledger
  deeds : ∃ traces : List Trace, after.deeds = before.deeds ++ traces.map .trace

namespace Step

variable {step before middle after : Step}

theorem Traces.refl (step : Step) : step.Traces step := ⟨rfl, rfl, [], (List.append_nil _).symm⟩

theorem Traces.trans (first : before.Traces middle) (second : middle.Traces after) : before.Traces after where
  scope := second.scope.trans first.scope
  ledger := second.ledger.trans first.ledger
  deeds := by
    obtain ⟨earlier, left⟩ := first.deeds
    obtain ⟨later, right⟩ := second.deeds
    exact ⟨earlier ++ later, by rw [right, left, List.map_append, List.append_assoc]⟩

theorem traces_emit (instructions : List Instruction) : step.Traces (step.emit instructions) :=
  ⟨rfl, rfl, [], (List.append_nil _).symm⟩

theorem traces_trace (category : Trace.Category) (message : String) (data : Json) :
    step.Traces (step.trace category message data) :=
  ⟨rfl, rfl, [_], rfl⟩

theorem traces_suspend (wait : Wait) : step.Traces (step.suspend wait) := ⟨rfl, rfl, [], (List.append_nil _).symm⟩

theorem traces_judge {branch : Branch} {depth : Nat} {taken : Bool} {judged : Step}
    (judgement : step.judge branch depth = (taken, judged)) : step.Traces judged := by
  simp only [judge, Prod.mk.injEq] at judgement
  obtain ⟨_, rfl⟩ := judgement
  have asked : step.Traces
      { step with deeds := step.deeds ++ (Condition.judge branch.condition step.teller.scope.bindings).2.map .trace } :=
    ⟨rfl, rfl, _, rfl⟩
  exact asked.trans (traces_trace _ _ _)

theorem traces_hideTyping : step.Traces step.hideTyping := by
  simp only [hideTyping]
  split
  · exact ⟨rfl, rfl, [], (List.append_nil _).symm⟩
  · exact .refl step

theorem traces_finish : step.Traces step.finish := by
  have cancelled : step.Traces { step with teller := { step.teller with timer := step.teller.timer.cancel.2 } } :=
    ⟨rfl, rfl, [], (List.append_nil _).symm⟩
  have hidden := cancelled.trans traces_hideTyping
  exact hidden.trans ((traces_emit _).trans ((traces_trace _ _ _).trans (traces_suspend _)))

theorem traces_showTyping (next : Option Peek) : step.Traces (step.showTyping next) := by
  simp only [showTyping]
  split
  · exact ⟨rfl, rfl, [], (List.append_nil _).symm⟩
  · exact .refl step

theorem traces_rest (line : String) (next : Option Peek) : step.Traces (step.rest line next) := by
  have shown := step.traces_showTyping next
  simp only [rest]
  split
  · have armed : (step.showTyping next).Traces
        { step.showTyping next with
          teller := { (step.showTyping next).teller with timer := (step.showTyping next).teller.timer.arm.2 } } :=
      ⟨rfl, rfl, [], (List.append_nil _).symm⟩
    exact shown.trans (armed.trans ((traces_trace _ _ _).trans (traces_suspend _)))
  · exact shown.trans (traces_suspend _)

theorem traces_offer (choices : List Choice) : step.Traces (step.offer choices) :=
  ⟨rfl, rfl, [], (List.append_nil _).symm⟩

theorem traces_pause? {entry : Entry} {next : Option Peek} {paused : Step}
    (pauses : step.pause? entry next = some paused) : step.Traces paused := by
  rcases pause?_eq_some pauses with ⟨first, others, _, rfl⟩ | ⟨_, line, _, rfl⟩
  · exact traces_offer _
  · exact traces_rest line next

end Step

namespace Stack

variable {Told : Entry → Prop} {context : Context} {below : Stack} {index : Nat} {entry : Entry}

theorem Ahead.leave (ahead : Ahead Told (context :: below)) : Ahead Told below :=
  fun other listed => ahead other (List.mem_cons_of_mem _ listed)

theorem Ahead.told (ahead : Ahead Told (context :: below)) (found : context.next? = some (index, entry)) :
    Told entry :=
  ahead context List.mem_cons_self entry (.here (List.mem_of_getElem? (Context.next?_eq_some found).1))

theorem Ahead.mark (ahead : Ahead Told (context :: below)) : Ahead Told (context.mark index :: below) := by
  intro other listed
  rcases List.mem_cons.mp listed with rfl | deeper
  · exact ahead context List.mem_cons_self
  · exact ahead.leave other deeper

theorem Ahead.enter {branch : Branch} (ahead : Ahead Told (context :: below))
    (found : context.next? = some (index, entry)) (led : entry.branch = some branch) :
    Ahead Told (.start branch.story :: context.mark index :: below) := by
  intro other listed
  rcases List.mem_cons.mp listed with rfl | deeper
  · have present : entry ∈ context.entries := List.mem_of_getElem? (Context.next?_eq_some found).1
    exact fun inner inside => ahead context List.mem_cons_self inner (.inside present led inside)
  · exact ahead.mark other deeper

end Stack

/-- The rule for what is recorded: a run keeps what traces keep and what telling each entry that lies ahead
keeps. -/
theorem run_of_entries {clock : Nat → Instant} {Told : Entry → Prop} (Holds : Step → Prop)
    (traced : ∀ {before after : Step}, before.Traces after → Holds before → Holds after)
    (told : ∀ step entry, Told entry → Holds step → Holds (step.unlock clock entry)) {stack : Stack} {step : Step}
    (ahead : stack.Ahead Told) (holds : Holds step) :
    (run clock stack step).1.Ahead Told ∧ Holds (run clock stack step).2 := by
  have reached : ∀ {context : Context} {below : Stack} {step : Step} {index : Nat} {entry : Entry},
      Stack.Ahead Told (context :: below) → context.next? = some (index, entry) → Holds step →
        Holds (step.reach clock entry) := fun ahead found holds =>
    traced (Step.traces_emit _) (told _ _ (ahead.told found) holds)
  refine run_of_turns (fun stack step => stack.Ahead Told ∧ Holds step)
    (fun stack step => stack.Ahead Told ∧ Holds step) ?_ ?_ stack step ⟨ahead, holds⟩
  · rintro stack along next after ⟨ahead, holds⟩ turned
    have turns := turnsTo_turn clock stack along
    rw [turned] at turns
    cases turns with
    | exhaust exhausted => exact ⟨ahead.leave, traced (Step.traces_trace _ _ _) holds⟩
    | enter found led taken =>
        exact ⟨ahead.enter found led, traced (Step.traces_judge taken) (reached ahead found holds)⟩
    | skip found led skipped => exact ⟨ahead.mark, traced (Step.traces_judge skipped) (reached ahead found holds)⟩
    | pass found plain passes => exact ⟨ahead.mark, traced (Step.traces_emit _) (reached ahead found holds)⟩
  · rintro stack along last paused ⟨ahead, holds⟩ turned
    have turns := turnsTo_turn clock stack along
    rw [turned] at turns
    cases turns with
    | finish => exact ⟨ahead, traced Step.traces_finish holds⟩
    | linger found led skipped root =>
        exact ⟨ahead.mark,
          traced ((Step.traces_judge skipped).trans (Step.traces_suspend _)) (reached ahead found holds)⟩
    | pause found plain pauses =>
        exact ⟨ahead.mark,
          traced ((Step.traces_emit _).trans (Step.traces_pause? pauses)) (reached ahead found holds)⟩

end Playback
end BranchingStory
