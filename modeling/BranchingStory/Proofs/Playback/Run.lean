import BranchingStory.Playback.Turn

/-!
What every turn keeps, every run keeps. A run touches nothing of a teller but its ledger until it rests, and
it comes to rest in one of four ways.
-/

namespace BranchingStory
namespace Playback

namespace Teller

def withoutRecord (teller : Teller) : Teller := { teller with ledger := .empty, readings := 0 }

structure Quiet (teller : Teller) : Prop where
  unarmed : teller.timer.armed = none
  unasked : teller.pending = []
  untyping : teller.typing = false

theorem Quiet.of_withoutRecord {before after : Teller} (quiet : before.Quiet)
    (same : after.withoutRecord = before.withoutRecord) : after.Quiet where
  unarmed := (congrArg (·.timer.armed) same).trans quiet.unarmed
  unasked := (congrArg (·.pending) same).trans quiet.unasked
  untyping := (congrArg (·.typing) same).trans quiet.untyping

end Teller

namespace Step

variable {step : Step}

/-! ## What the parts of a step do to the teller -/

@[simp] theorem emit_teller (instructions : List Instruction) :
    (step.emit instructions).teller = step.teller := rfl

@[simp] theorem trace_teller (category : Trace.Category) (message : String) (data : Json) :
    (step.trace category message data).teller = step.teller := rfl

@[simp] theorem stage_teller (entry : Entry) : (step.stage entry).teller = step.teller := rfl

@[simp] theorem suspend_teller (wait : Wait) :
    (step.suspend wait).teller = { step.teller with status := wait.status, wait } := rfl

@[simp] theorem unlock_withoutRecord (clock : Nat → Instant) (entry : Entry) :
    (step.unlock clock entry).teller.withoutRecord = step.teller.withoutRecord := by
  simp only [unlock]
  split
  · rfl
  · split <;> rfl

@[simp] theorem reach_withoutRecord (clock : Nat → Instant) (entry : Entry) :
    (step.reach clock entry).teller.withoutRecord = step.teller.withoutRecord := by
  simp [reach]

theorem judge_eq {branch : Branch} {depth : Nat} {taken : Bool} {judged : Step}
    (judgement : step.judge branch depth = (taken, judged)) :
    taken = (Condition.judge branch.condition step.teller.scope.bindings).1 ∧
      judged.teller = step.teller ∧ judged.instructions = step.instructions := by
  simp only [judge, Prod.mk.injEq] at judgement
  obtain ⟨rfl, rfl⟩ := judgement
  exact ⟨rfl, rfl, rfl⟩

theorem pause?_eq_some {entry : Entry} {next : Option Peek} {paused : Step}
    (pauses : step.pause? entry next = some paused) :
    (∃ first rest, entry.choices = first :: rest ∧ paused = step.offer (first :: rest)) ∨
      (entry.choices = [] ∧ ∃ line, entry.line? = some line ∧ paused = step.rest line next) := by
  simp only [pause?] at pauses
  split at pauses
  · rename_i none
    obtain ⟨line, shown, same⟩ := Option.map_eq_some_iff.mp pauses
    exact .inr ⟨none, line, shown, same.symm⟩
  · rename_i choices some
    cases given : entry.choices with
    | nil => exact absurd given some
    | cons first rest =>
        rw [given] at pauses
        exact .inl ⟨first, rest, rfl, (Option.some.inj pauses).symm⟩

theorem pause?_eq_none {entry : Entry} {next : Option Peek} (passes : step.pause? entry next = none) :
    entry.choices = [] ∧ entry.line? = none := by
  simp only [pause?] at passes
  split at passes
  · rename_i none
    exact ⟨none, Option.map_eq_none_iff.mp passes⟩
  · simp at passes

end Step

/-! ## Runs -/

/-- The rule for runs: what turns keep up to the last one holds of the last one too. -/
theorem run_of_turns {clock : Nat → Instant} (Along Rested : Stack → Step → Prop)
    (onward : ∀ stack step next after, Along stack step → turn clock stack step = .onward next after →
      Along next after)
    (rest : ∀ stack step last paused, Along stack step → turn clock stack step = .rest last paused →
      Rested last paused)
    (stack : Stack) (step : Step) (along : Along stack step) :
    Rested (run clock stack step).1 (run clock stack step).2 := by
  induction stack, step using run.induct clock with
  | case1 stack step next after turned ih =>
      rw [run, turned]
      exact ih (onward stack step next after along turned)
  | case2 stack step last paused turned =>
      rw [run, turned]
      exact rest stack step last paused along turned

/-- How a run rests that a teller has begun: at the end, at a skipped branch of the root, at choices, or
after a line. -/
inductive Rests (begun : Teller) : Stack → Step → Prop
  | ended {last : Step} (same : last.teller.withoutRecord = begun.withoutRecord) :
      Rests begun [] last.finish
  | lingered {last : Step} (same : last.teller.withoutRecord = begun.withoutRecord) {context : Context}
      {below : Stack} : Rests begun (context :: below) (last.suspend .input)
  | offered {last : Step} (same : last.teller.withoutRecord = begun.withoutRecord) {context : Context}
      {below : Stack} {first : Choice} {others : List Choice} :
      Rests begun (context :: below) (last.offer (first :: others))
  | rested {last : Step} (same : last.teller.withoutRecord = begun.withoutRecord) {context : Context}
      {below : Stack} {line : String} :
      Rests begun (context :: below) (last.rest line (Stack.peek? (context :: below)))

theorem rests_run (clock : Nat → Instant) (stack : Stack) (step : Step) :
    Rests step.teller (run clock stack step).1 (run clock stack step).2 := by
  refine run_of_turns (fun _ along => along.teller.withoutRecord = step.teller.withoutRecord)
    (Rests step.teller) ?_ ?_ stack step rfl
  · intro stack along next after same turned
    have turns := turnsTo_turn clock stack along
    rw [turned] at turns
    cases turns with
    | exhaust exhausted => exact same
    | enter found led taken =>
        obtain ⟨_, teller, _⟩ := Step.judge_eq taken
        rw [teller, Step.reach_withoutRecord, same]
    | skip found led skipped =>
        obtain ⟨_, teller, _⟩ := Step.judge_eq skipped
        rw [teller, Step.reach_withoutRecord, same]
    | pass found plain passes => rw [Step.stage_teller, Step.reach_withoutRecord, same]
  · intro stack along last paused same turned
    have turns := turnsTo_turn clock stack along
    rw [turned] at turns
    cases turns with
    | finish => exact .ended same
    | linger found led skipped root =>
        obtain ⟨_, teller, _⟩ := Step.judge_eq skipped
        apply Rests.lingered
        rw [teller, Step.reach_withoutRecord, same]
    | @pause context below _ _ index entry found plain pauses =>
        have kept : ((along.reach clock entry).stage entry).teller.withoutRecord =
            step.teller.withoutRecord := by
          rw [Step.stage_teller, Step.reach_withoutRecord, same]
        rcases Step.pause?_eq_some pauses with ⟨first, others, _, rfl⟩ | ⟨_, line, _, rfl⟩
        · exact .offered kept
        · exact .rested kept

end Playback
end BranchingStory
