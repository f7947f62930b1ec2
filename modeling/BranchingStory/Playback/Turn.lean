import BranchingStory.Playback.Step

/-!
Turns of playback, and the run that they make up. Each turn tells an entry or leaves a context. A run rests
after a line, at a choice, at a skipped branch of the root if so wished, and at the end.
-/

namespace BranchingStory
namespace Playback

inductive Turn
  | onward (stack : Stack) (step : Step)
  | rest (stack : Stack) (step : Step)

/-- Tells the next entry, or leaves a context that has none. Without a context the story ends. -/
def turn (clock : Nat → Instant) : Stack → Step → Turn
  | [], step => .rest [] step.finish
  | context :: below, step =>
      let depth := below.length + 1
      match context.next? with
      | none => .onward below (step.exhaust depth)
      | some (index, entry) =>
          let told := context.mark index :: below
          let step := step.reach clock entry
          match entry.branch with
          | some branch =>
              let (taken, step) := step.judge branch depth
              if taken then .onward (.start branch.story :: told) step
              else if depth = 1 ∧ step.teller.options.branchPacing = .awaitInputAtRoot then
                .rest told (step.suspend .input)
              else .onward told step
          | none =>
              let step := step.stage entry
              match step.pause? entry (Stack.peek? told) with
              | some step => .rest told step
              | none => .onward told step

inductive TurnsTo (clock : Nat → Instant) : Stack → Step → Turn → Prop
  | finish {step : Step} : TurnsTo clock [] step (.rest [] step.finish)
  | exhaust {context : Context} {below : Stack} {step : Step} (exhausted : context.next? = none) :
      TurnsTo clock (context :: below) step (.onward below (step.exhaust (below.length + 1)))
  | enter {context : Context} {below : Stack} {step judged : Step} {index : Nat} {entry : Entry}
      {branch : Branch} (found : context.next? = some (index, entry)) (led : entry.branch = some branch)
      (taken : (step.reach clock entry).judge branch (below.length + 1) = (true, judged)) :
      TurnsTo clock (context :: below) step
        (.onward (.start branch.story :: context.mark index :: below) judged)
  | linger {context : Context} {below : Stack} {step judged : Step} {index : Nat} {entry : Entry}
      {branch : Branch} (found : context.next? = some (index, entry)) (led : entry.branch = some branch)
      (skipped : (step.reach clock entry).judge branch (below.length + 1) = (false, judged))
      (root : below.length + 1 = 1 ∧ judged.teller.options.branchPacing = .awaitInputAtRoot) :
      TurnsTo clock (context :: below) step (.rest (context.mark index :: below) (judged.suspend .input))
  | skip {context : Context} {below : Stack} {step judged : Step} {index : Nat} {entry : Entry}
      {branch : Branch} (found : context.next? = some (index, entry)) (led : entry.branch = some branch)
      (skipped : (step.reach clock entry).judge branch (below.length + 1) = (false, judged)) :
      TurnsTo clock (context :: below) step (.onward (context.mark index :: below) judged)
  | pause {context : Context} {below : Stack} {step paused : Step} {index : Nat} {entry : Entry}
      (found : context.next? = some (index, entry)) (plain : entry.branch = none)
      (pauses : ((step.reach clock entry).stage entry).pause? entry
        (Stack.peek? (context.mark index :: below)) = some paused) :
      TurnsTo clock (context :: below) step (.rest (context.mark index :: below) paused)
  | pass {context : Context} {below : Stack} {step : Step} {index : Nat} {entry : Entry}
      (found : context.next? = some (index, entry)) (plain : entry.branch = none)
      (passes : ((step.reach clock entry).stage entry).pause? entry
        (Stack.peek? (context.mark index :: below)) = none) :
      TurnsTo clock (context :: below) step
        (.onward (context.mark index :: below) ((step.reach clock entry).stage entry))

theorem turnsTo_turn (clock : Nat → Instant) (stack : Stack) (step : Step) :
    TurnsTo clock stack step (turn clock stack step) := by
  cases stack with
  | nil => exact .finish
  | cons context below =>
      simp only [turn]
      split
      · rename_i exhausted
        exact .exhaust exhausted
      · rename_i index entry found
        split
        · rename_i branch led
          cases judgement : (step.reach clock entry).judge branch (below.length + 1) with
          | mk taken judged =>
              cases taken with
              | true => exact .enter found led judgement
              | false =>
                  simp only [Bool.false_eq_true, if_false]
                  split
                  · rename_i root
                    exact .linger found led judgement root
                  · exact .skip found led judgement
        · rename_i plain
          split
          · rename_i paused pauses
            exact .pause found plain pauses
          · rename_i passes
            exact .pass found plain passes

namespace Stack

theorem remaining_cons (context : Context) (below : Stack) :
    remaining (context :: below) = context.remaining + remaining below := rfl

/-- A turn that is followed by another leaves a context, or uses up an entry and enters one context at most. -/
theorem shrinks_of_turn {clock : Nat → Instant} {stack next : Stack} {step after : Step}
    (turned : turn clock stack step = .onward next after) :
    (next.remaining ≤ stack.remaining ∧ next.length < stack.length) ∨
      (next.remaining < stack.remaining ∧ next.length ≤ stack.length + 1) := by
  have turns := turnsTo_turn clock stack step
  rw [turned] at turns
  cases turns with
  | exhaust exhausted =>
      simp only [remaining_cons, List.length_cons]
      omega
  | @enter context below _ _ index entry branch found led taken =>
      have told := Context.remaining_mark found
      have weight := Entry.weight_of_branch led
      have fresh := Context.remaining_start branch.story
      simp only [remaining_cons, List.length_cons]
      omega
  | @skip context below _ _ index entry branch found led skipped =>
      have told := Context.remaining_mark found
      have weight := entry.weight_pos
      simp only [remaining_cons, List.length_cons]
      omega
  | @pass context below _ index entry found plain passes =>
      have told := Context.remaining_mark found
      have weight := entry.weight_pos
      simp only [remaining_cons, List.length_cons]
      omega

/-- Bounds the turns up to the next rest. An entry that leads into a branch costs one turn to enter it and
one to leave it. -/
def turnsLeft (stack : Stack) : Nat := 2 * stack.remaining + stack.length

theorem turnsLeft_lt_of_turn {clock : Nat → Instant} {stack next : Stack} {step after : Step}
    (turned : turn clock stack step = .onward next after) : next.turnsLeft < stack.turnsLeft := by
  have shrinks := shrinks_of_turn turned
  simp only [turnsLeft]
  omega

end Stack

def run (clock : Nat → Instant) (stack : Stack) (step : Step) : Stack × Step :=
  match _turned : turn clock stack step with
  | .onward next after => run clock next after
  | .rest stack step => (stack, step)
termination_by stack.turnsLeft
decreasing_by exact Stack.turnsLeft_lt_of_turn _turned

end Playback
end BranchingStory
