import BranchingStory.Proofs.Playback.Course

/-!
The books of playback agree. Status, wait, timer, pending choices and the sign that somebody is typing are
kept apart from each other and from the stack, and yet each of them tells what the others tell.
-/

namespace BranchingStory
namespace Playback

structure Consistent (playback : Playback) : Prop where
  at_rest : playback.teller.status ≠ .running
  ended_iff : playback.teller.status = .ended ↔ playback.stack = []
  choice_iff : playback.teller.status = .awaitingChoice ↔ playback.teller.pending ≠ []
  timer_iff : playback.teller.status = .awaitingTimer ↔ playback.teller.timer.armed ≠ none
  armed_wait : ∀ token, playback.teller.timer.armed = some token →
    ∃ delay, playback.teller.wait = .timer token delay
  typing_rest : playback.teller.typing = true → playback.teller.options.mode = .texting ∧
    (playback.teller.status = .awaitingInput ∨ playback.teller.status = .awaitingTimer)
  waiting : playback.teller.status ≠ .idle → playback.teller.status = playback.teller.wait.status

namespace Consistent

variable {playback : Playback}

theorem unasked (consistent : playback.Consistent) (elsewhere : playback.teller.status ≠ .awaitingChoice) :
    playback.teller.pending = [] :=
  Classical.not_not.mp fun asked => elsewhere (consistent.choice_iff.mpr asked)

theorem unarmed (consistent : playback.Consistent) (elsewhere : playback.teller.status ≠ .awaitingTimer) :
    playback.teller.timer.armed = none :=
  Classical.not_not.mp fun armed => elsewhere (consistent.timer_iff.mpr armed)

theorem untyping (consistent : playback.Consistent) (notInput : playback.teller.status ≠ .awaitingInput)
    (notTimer : playback.teller.status ≠ .awaitingTimer) : playback.teller.typing = false := by
  cases typing : playback.teller.typing with
  | false => rfl
  | true =>
      rcases (consistent.typing_rest typing).2 with input | timer
      · exact absurd input notInput
      · exact absurd timer notTimer

end Consistent

theorem consistent_playback (setup : Setup) (story : Story) : (setup.playback story).Consistent := by
  constructor <;> simp [Setup.playback, Setup.teller, ofStory]

theorem Prepares.quiet {playback : Playback} {call : Call} {step : Step}
    (prepared : Prepares playback call step) (consistent : playback.Consistent) :
    step.underWay.teller.Quiet := by
  have quiet : step.teller.Quiet := by
    cases prepared with
    | start idle =>
        exact ⟨consistent.unarmed (by simp [idle]), consistent.unasked (by simp [idle]),
          consistent.untyping (by simp [idle]) (by simp [idle])⟩
    | advance waits =>
        have unasked : playback.teller.pending = [] := by
          apply consistent.unasked
          intro choice
          simp [choice] at waits
        rw [prompted_teller]
        exact ⟨rfl, unasked, rfl⟩
    | timerElapsed waits fires =>
        rw [elapsed_teller fires]
        exact ⟨rfl, consistent.unasked (by simp [waits]), rfl⟩
    | choose waits offered =>
        rw [chosen_teller]
        exact ⟨consistent.unarmed (by simp [waits]), rfl,
          consistent.untyping (by simp [waits]) (by simp [waits])⟩
  exact ⟨quiet.unarmed, quiet.unasked, quiet.untyping⟩

theorem Step.showTyping_teller (step : Step) (next : Option Peek) :
    (step.showTyping next).teller =
      { step.teller with
        typing := step.teller.typing || (step.teller.options.mode = .texting && next.isSome) } := by
  cases mode : step.teller.options.mode with
  | scene => simp [showTyping, mode]
  | texting => cases next <;> simp [showTyping, mode]

theorem Step.finish_teller (step : Step) :
    step.finish.teller =
      { step.teller with
        timer := ⟨step.teller.timer.armings, none⟩, typing := false, status := .ended, wait := .ended } := by
  simp [finish, hideTyping_teller, Timer.cancel, Wait.status]

theorem Rests.consistent {begun : Teller} (quiet : begun.Quiet) {stack : Stack} {step : Step}
    (rests : Rests begun stack step) : Consistent ⟨stack, step.teller⟩ := by
  cases rests with
  | @ended last same =>
      have still := quiet.of_withoutRecord same
      simp only [Step.finish_teller]
      constructor <;> simp [Wait.status, still.unasked]
  | @lingered last same context below =>
      have still := quiet.of_withoutRecord same
      simp only [Step.suspend_teller]
      constructor <;> simp [Wait.status, still.unasked, still.unarmed, still.untyping]
  | @offered last same context below first others =>
      have still := quiet.of_withoutRecord same
      simp only [Step.offer, Step.suspend_teller, Step.emit_teller]
      constructor <;> simp [Wait.status, still.unarmed, still.untyping]
  | @rested last same context below line =>
      have still := quiet.of_withoutRecord same
      simp only [Step.rest]
      split
      · simp only [Step.suspend_teller, Step.trace_teller, Step.showTyping_teller, Timer.arm]
        constructor <;> simp +contextual [Wait.status, still.unasked, still.untyping]
      · simp only [Step.suspend_teller, Step.showTyping_teller]
        constructor <;> simp +contextual [Wait.status, still.unasked, still.unarmed, still.untyping]

theorem consistent_ask (clock : Nat → Instant) (playback : Playback) (call : Call)
    (consistent : playback.Consistent) : (playback.ask clock call).1.Consistent := by
  have answers := answers_ask clock playback call
  generalize playback.ask clock call = answer at answers ⊢
  cases answers with
  | reject stays => exact consistent
  | ignore stays started => exact consistent
  | @resume _ step prepared =>
      have rests := rests_run clock playback.stack step.underWay
      exact rests.consistent (prepared.quiet consistent)
  | setAutoplay =>
      exact ⟨consistent.at_rest, consistent.ended_iff, consistent.choice_iff, consistent.timer_iff,
        consistent.armed_wait, consistent.typing_rest, consistent.waiting⟩
  | peek => exact consistent

theorem Consistent.after {playback : Playback} (consistent : playback.Consistent)
    (clock : Nat → Instant) (calls : List Call) : (playback.after clock calls).Consistent :=
  after_of_ask Consistent (consistent_ask clock) consistent calls

theorem Rests.status_eq {begun : Teller} {stack : Stack} {step : Step} (rests : Rests begun stack step) :
    step.teller.status = step.teller.wait.status := by
  cases rests with
  | ended same => rfl
  | lingered same => rfl
  | offered same => rfl
  | rested same =>
      simp only [Step.rest]
      split <;> rfl

theorem Wait.status_ne_idle (wait : Wait) : wait.status ≠ .idle := by
  cases wait <;> simp [Wait.status]

theorem started_ask (clock : Nat → Instant) (playback : Playback) (call : Call)
    (started : playback.teller.status ≠ .idle) : (playback.ask clock call).1.teller.status ≠ .idle := by
  have answers := answers_ask clock playback call
  generalize playback.ask clock call = answer at answers ⊢
  cases answers with
  | @resume _ step prepared =>
      intro idle
      exact Wait.status_ne_idle _ ((rests_run clock playback.stack step.underWay).status_eq.symm.trans idle)
  | reject | ignore | setAutoplay | peek => exact started

theorem wait_of_answers {clock : Nat → Instant} {playback after : Playback} {call : Call}
    {outcome : Outcome} {deeds : List Deed} (consistent : playback.Consistent)
    (answers : Answers clock playback call (after, some ⟨.ok outcome, deeds⟩)) :
    after.teller.wait = outcome.wait ∧ after.teller.status = outcome.wait.status := by
  generalize answer : (after, some (Reply.mk (.ok outcome) deeds)) = answered at answers
  cases answers with
  | reject stays => simp at answer
  | ignore stays started =>
      simp only [Prod.mk.injEq, Option.some.injEq, Reply.mk.injEq, Except.ok.injEq] at answer
      obtain ⟨rfl, rfl, _⟩ := answer
      exact ⟨rfl, consistent.waiting started⟩
  | @resume _ step prepared =>
      have rests := rests_run clock playback.stack step.underWay
      simp only [resume, Prod.map, id, Prod.mk.injEq, Option.some.injEq, Reply.mk.injEq,
        Except.ok.injEq] at answer
      obtain ⟨rfl, rfl, _⟩ := answer
      exact ⟨rfl, rests.status_eq⟩
  | setAutoplay => simp at answer
  | peek => simp at answer

/-- After any calls the books agree, and every wait that was given out was the true one. -/
theorem books_agree (setup : Setup) (story : Story) (clock : Nat → Instant) (calls : List Call) :
    ((setup.playback story).after clock calls).Consistent ∧
      ∀ exchange ∈ (setup.playback story).transcript clock calls, ∀ outcome deeds,
        exchange.reply = some ⟨.ok outcome, deeds⟩ →
          exchange.after.teller.wait = outcome.wait ∧
            exchange.after.teller.status = outcome.wait.status := by
  have fresh := consistent_playback setup story
  refine ⟨fresh.after clock calls, ?_⟩
  intro exchange member outcome deeds replied
  obtain ⟨consistent, asked⟩ := transcript_of_ask Consistent (consistent_ask clock) fresh member
  have answers := answers_ask clock exchange.before exchange.call
  rw [← asked, replied] at answers
  exact wait_of_answers consistent answers

end Playback
end BranchingStory
