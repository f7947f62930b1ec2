import BranchingStory.Proofs.Playback.Consistency

/-!
Playback comes to an end. Every run takes a bounded number of turns, and every call that makes playback go on
uses up an entry, or ends the story.
-/

namespace BranchingStory
namespace Playback

/-! ## Turns of a run -/

def turns (clock : Nat → Instant) : Nat → Stack → Step → Turn
  | 0, stack, step => .onward stack step
  | count + 1, stack, step =>
      match turn clock stack step with
      | .onward next after => turns clock count next after
      | .rest last paused => .rest last paused

theorem turns_eq_rest {clock : Nat → Instant} {count : Nat} {stack : Stack} {step : Step}
    (enough : stack.turnsLeft < count) :
    turns clock count stack step = .rest (run clock stack step).1 (run clock stack step).2 := by
  induction count generalizing stack step with
  | zero => omega
  | succ count ih =>
      rw [turns, run]
      cases turned : turn clock stack step with
      | onward next after =>
          have fewer := Stack.turnsLeft_lt_of_turn turned
          exact ih (by omega)
      | rest last paused => rfl

/-! ## Entries that are left -/

namespace Stack

theorem remaining_lt_of_rest {clock : Nat → Instant} {stack last : Stack} {step paused : Step}
    (turned : turn clock stack step = .rest last paused) :
    last.length = stack.length ∧ (last = [] ∨ last.remaining < stack.remaining) := by
  have turns := turnsTo_turn clock stack step
  rw [turned] at turns
  cases turns with
  | finish => simp
  | @linger context below _ judged index entry branch found led skipped root =>
      have told := Context.remaining_mark found
      have weight := entry.weight_pos
      refine ⟨rfl, .inr ?_⟩
      simp only [remaining_cons]
      omega
  | @pause context below _ _ index entry found plain pauses =>
      have told := Context.remaining_mark found
      have weight := entry.weight_pos
      refine ⟨rfl, .inr ?_⟩
      simp only [remaining_cons]
      omega

theorem remaining_run_lt (clock : Nat → Instant) (stack : Stack) (step : Step) :
    (run clock stack step).1 = [] ∨ (run clock stack step).1.remaining < stack.remaining := by
  refine run_of_turns (fun along _ => along.remaining ≤ stack.remaining)
    (fun last _ => last = [] ∨ last.remaining < stack.remaining) ?_ ?_ stack step (Nat.le_refl _)
  · intro along step next after bound turned
    have shrinks := shrinks_of_turn turned
    omega
  · intro along step last paused bound turned
    exact (remaining_lt_of_rest turned).2.imp_right fun fewer => Nat.lt_of_lt_of_le fewer bound

theorem turnsLeft_run_le (clock : Nat → Instant) (stack : Stack) (step : Step) :
    (run clock stack step).1.turnsLeft ≤ stack.turnsLeft := by
  refine run_of_turns (fun along _ => along.turnsLeft ≤ stack.turnsLeft)
    (fun last _ => last.turnsLeft ≤ stack.turnsLeft) ?_ ?_ stack step (Nat.le_refl _)
  · intro along step next after bound turned
    exact Nat.le_trans (Nat.le_of_lt (turnsLeft_lt_of_turn turned)) bound
  · intro along step last paused bound turned
    obtain ⟨length, empty | fewer⟩ := remaining_lt_of_rest turned
    · simp [empty, turnsLeft, remaining]
    · simp only [turnsLeft] at bound ⊢
      omega

end Stack

theorem run_ne_self {clock : Nat → Instant} {stack : Stack} {step : Step} (unended : stack ≠ []) :
    (run clock stack step).1 ≠ stack := by
  intro same
  rcases Stack.remaining_run_lt clock stack step with empty | fewer
  · exact unended (same.symm.trans empty)
  · rw [same] at fewer
    exact Nat.lt_irrefl _ fewer

/-! ## Calls -/

theorem Consistent.goesOn_eq_false {playback : Playback} (consistent : playback.Consistent)
    (ended : playback.stack = []) (call : Call) : playback.goesOn call = false := by
  have status := consistent.ended_iff.mpr ended
  cases call with
  | event event => cases event <;> simp [goesOn, status]
  | start | setAutoplay | peek => simp [goesOn, status]

theorem ask_of_not_goesOn (clock : Nat → Instant) {playback : Playback} {call : Call}
    (stays : playback.goesOn call = false) :
    let answer := playback.ask clock call
    (∃ autoplay, answer.1 = playback.setAutoplay autoplay) ∧
      (Exchange.mk playback call answer.1 answer.2).instructions = [] := by
  have answers := answers_ask clock playback call
  generalize playback.ask clock call = answer at answers ⊢
  cases answers with
  | resume prepared => simp [prepared.goesOn] at stays
  | setAutoplay => exact ⟨⟨_, rfl⟩, rfl⟩
  | reject | ignore | peek => exact ⟨⟨playback.teller.autoplay, rfl⟩, rfl⟩

theorem stack_ask_of_not_goesOn (clock : Nat → Instant) {playback : Playback} {call : Call}
    (stays : playback.goesOn call = false) : (playback.ask clock call).1.stack = playback.stack := by
  obtain ⟨⟨autoplay, same⟩, _⟩ := ask_of_not_goesOn clock stays
  rw [same]
  rfl

theorem ask_of_goesOn (clock : Nat → Instant) {playback : Playback} {call : Call}
    (goes : playback.goesOn call = true) :
    ∃ step, Prepares playback call step ∧
      playback.ask clock call = (playback.resume clock step).map id some := by
  have answers := answers_ask clock playback call
  generalize playback.ask clock call = answer at answers ⊢
  cases answers with
  | resume prepared => exact ⟨_, prepared, rfl⟩
  | reject stays | ignore stays => simp [stays] at goes
  | setAutoplay | peek => simp [goesOn] at goes

theorem remaining_ask_lt (clock : Nat → Instant) {playback : Playback} {call : Call}
    (goes : playback.goesOn call = true) :
    (playback.ask clock call).1.stack = [] ∨
      (playback.ask clock call).1.stack.remaining < playback.stack.remaining := by
  obtain ⟨step, _, answer⟩ := ask_of_goesOn clock goes
  rw [answer]
  exact Stack.remaining_run_lt clock playback.stack step.underWay

theorem stack_ask_ne_iff (clock : Nat → Instant) {playback : Playback} {call : Call}
    (consistent : playback.Consistent) :
    (playback.ask clock call).1.stack ≠ playback.stack ↔ playback.goesOn call = true := by
  constructor
  · intro moves
    cases goes : playback.goesOn call with
    | true => rfl
    | false => exact absurd (stack_ask_of_not_goesOn clock goes) moves
  · intro goes
    have unended : playback.stack ≠ [] := fun ended => by
      simp [consistent.goesOn_eq_false ended] at goes
    obtain ⟨step, _, answer⟩ := ask_of_goesOn clock goes
    rw [answer]
    exact run_ne_self unended

theorem Consistent.exists_goesOn {playback : Playback} (consistent : playback.Consistent)
    (unended : playback.stack ≠ []) : ∃ call, playback.goesOn call = true := by
  cases status : playback.teller.status with
  | idle => exact ⟨.start, by simp [goesOn, status]⟩
  | running => exact absurd status consistent.at_rest
  | awaitingInput | awaitingTimer => exact ⟨.event .advance, by simp [goesOn, status]⟩
  | awaitingChoice =>
      have asked := consistent.choice_iff.mp status
      exact ⟨.event (.choose 0), by simp [goesOn, status, List.length_pos_iff.mpr asked]⟩
  | ended => exact absurd (consistent.ended_iff.mp status) unended

theorem stack_after_of_ended (clock : Nat → Instant) {playback : Playback}
    (consistent : playback.Consistent) (ended : playback.stack = []) (calls : List Call) :
    (playback.after clock calls).stack = [] := by
  refine (after_of_ask (fun playback => playback.Consistent ∧ playback.stack = []) ?_
    ⟨consistent, ended⟩ calls).2
  rintro playback call ⟨consistent, ended⟩
  have stays := consistent.goesOn_eq_false ended call
  exact ⟨consistent_ask clock playback call consistent, (stack_ask_of_not_goesOn clock stays).trans ended⟩

theorem status_after_of_ended (clock : Nat → Instant) {playback : Playback}
    (consistent : playback.Consistent) (ended : playback.teller.status = .ended) (calls : List Call) :
    (playback.after clock calls).teller.status = .ended := by
  have exhausted := consistent.ended_iff.mp ended
  exact (consistent.after clock calls).ended_iff.mpr (stack_after_of_ended clock consistent exhausted calls)

/-! ## Courses -/

def Exchange.goesOn (exchange : Exchange) : Bool := exchange.before.goesOn exchange.call

def Exchange.ends (exchange : Exchange) : Bool :=
  exchange.before.teller.status ≠ .ended && exchange.after.teller.status = .ended

theorem remaining_after_le (clock : Nat → Instant) {playback : Playback}
    (consistent : playback.Consistent) (calls : List Call) :
    (playback.after clock calls).stack = [] ∨
      (playback.after clock calls).stack.remaining +
        (playback.transcript clock calls).countP Exchange.goesOn ≤ playback.stack.remaining := by
  induction calls generalizing playback with
  | nil => exact .inr (Nat.le_refl _)
  | cons call later ih =>
      have next := consistent_ask clock playback call consistent
      have rest := ih next
      simp only [after, transcript, List.countP_cons]
      cases goes : playback.goesOn call with
      | false =>
          rw [stack_ask_of_not_goesOn clock goes] at rest
          simpa [Exchange.goesOn, goes] using rest
      | true =>
          rcases remaining_ask_lt clock goes with ended | fewer
          · exact .inl (stack_after_of_ended clock next ended later)
          · refine rest.imp_right fun bound => ?_
            simp only [Exchange.goesOn, goes, if_true]
            omega

theorem turnsLeft_after_le (clock : Nat → Instant) (playback : Playback) (calls : List Call) :
    (playback.after clock calls).stack.turnsLeft ≤ playback.stack.turnsLeft := by
  refine after_of_ask (fun later => later.stack.turnsLeft ≤ playback.stack.turnsLeft) ?_ (Nat.le_refl _) calls
  intro later call bound
  cases goes : later.goesOn call with
  | false => rwa [stack_ask_of_not_goesOn clock goes]
  | true =>
      obtain ⟨step, _, answer⟩ := ask_of_goesOn clock goes
      rw [answer]
      exact Nat.le_trans (Stack.turnsLeft_run_le clock later.stack step.underWay) bound

theorem exists_after_ended (clock : Nat → Instant) {playback : Playback}
    (consistent : playback.Consistent) : ∃ calls, (playback.after clock calls).stack = [] := by
  by_cases ended : playback.stack = []
  · exact ⟨[], ended⟩
  · obtain ⟨call, goes⟩ := consistent.exists_goesOn ended
    have next := consistent_ask clock playback call consistent
    rcases remaining_ask_lt clock goes with exhausted | fewer
    · exact ⟨[call], exhausted⟩
    · obtain ⟨later, exhausted⟩ := exists_after_ended clock next
      exact ⟨call :: later, exhausted⟩
termination_by playback.stack.remaining

theorem countP_ends (clock : Nat → Instant) {playback : Playback} (consistent : playback.Consistent)
    (calls : List Call) :
    (playback.transcript clock calls).countP Exchange.ends =
      if playback.teller.status ≠ .ended ∧ (playback.after clock calls).teller.status = .ended then 1
      else 0 := by
  induction calls generalizing playback with
  | nil =>
      simp [transcript, after]
  | cons call later ih =>
      have next := consistent_ask clock playback call consistent
      simp only [transcript, after, List.countP_cons, ih next, Exchange.ends]
      by_cases before : playback.teller.status = .ended
      · have kept : (playback.ask clock call).1.teller.status = .ended :=
          status_after_of_ended clock consistent before [call]
        simp [before, kept]
      · by_cases between : (playback.ask clock call).1.teller.status = .ended
        · have kept := status_after_of_ended clock next between later
          simp [before, between, kept]
        · simp [before, between]

theorem remaining_playback (setup : Setup) (story : Story) :
    (setup.playback story).stack.remaining = storyWeight story := by
  simp [Setup.playback, ofStory, Stack.remaining, Context.remaining_start]

theorem turnsLeft_playback (setup : Setup) (story : Story) :
    (setup.playback story).stack.turnsLeft = 2 * storyWeight story + 1 := by
  rw [Stack.turnsLeft, remaining_playback]
  rfl

/-- The turns of every run are bounded by the size of the story. Once started, playback has come to the end
when as many calls have made it go on as the story has entries; it comes there once, and stays there. -/
theorem playback_ends (setup : Setup) (story : Story) (clock : Nat → Instant) (calls : List Call) :
    let unstarted := setup.playback story
    let started := (unstarted.ask clock .start).1
    (∀ step, turns clock (2 * storyWeight story + 2) (unstarted.after clock calls).stack step =
        .rest (run clock (unstarted.after clock calls).stack step).1
          (run clock (unstarted.after clock calls).stack step).2) ∧
      (storyWeight story ≤ (started.transcript clock calls).countP Exchange.goesOn →
        (started.after clock calls).teller.status = .ended) ∧
      ((started.after clock calls).teller.status = .ended →
        (unstarted.transcript clock (.start :: calls)).countP Exchange.ends = 1 ∧
          ∀ later, (started.after clock (calls ++ later)).teller.status = .ended) := by
  intro unstarted started
  have fresh : unstarted.Consistent := consistent_playback setup story
  have next : started.Consistent := consistent_ask clock unstarted .start fresh
  have last : (started.after clock calls).Consistent := next.after clock calls
  refine ⟨?_, ?_, ?_⟩
  · intro step
    apply turns_eq_rest
    have bound := turnsLeft_after_le clock unstarted calls
    rw [turnsLeft_playback] at bound
    omega
  · intro enough
    have goes : unstarted.goesOn .start = true := rfl
    have used : started.stack = [] ∨ started.stack.remaining < unstarted.stack.remaining :=
      remaining_ask_lt clock goes
    rcases used with ended | fewer
    · exact last.ended_iff.mpr (stack_after_of_ended clock next ended calls)
    · rcases remaining_after_le clock next calls with ended | bound
      · exact last.ended_iff.mpr ended
      · rw [remaining_playback] at fewer
        omega
  · intro ended
    constructor
    · rw [countP_ends clock fresh]
      have unended : unstarted.teller.status ≠ .ended := by
        simp [unstarted, Setup.playback, ofStory, Setup.teller]
      exact if_pos ⟨unended, ended⟩
    · intro later
      rw [after_append]
      exact status_after_of_ended clock last ended later

end Playback
end BranchingStory
