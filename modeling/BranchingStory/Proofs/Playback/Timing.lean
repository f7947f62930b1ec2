import BranchingStory.Proofs.Playback.Termination

/-!
The timer and the player race for every line that autoplay shows, and only one of them can win. A token is
given out once, and is void as soon as its wait is over.
-/

namespace BranchingStory
namespace Playback

/-! ## What a run does to the timer -/

theorem Rests.timer {begun : Teller} (quiet : begun.Quiet) {stack : Stack} {step : Step}
    (rests : Rests begun stack step) :
    (∃ delay, step.teller.wait = .timer (begun.timer.armings + 1) delay ∧
        step.teller.timer = begun.timer.arm.2) ∨
      ((∀ token delay, step.teller.wait ≠ .timer token delay) ∧ step.teller.timer = begun.timer) := by
  have unarmed : begun.timer = ⟨begun.timer.armings, none⟩ := by rw [← quiet.unarmed]
  cases rests with
  | @ended last same =>
      have timer : last.teller.timer = begun.timer := congrArg (·.timer) same
      right
      rw [Step.finish_teller]
      exact ⟨by simp, by simpa [timer] using unarmed.symm⟩
  | @lingered last same context below => exact .inr ⟨by simp, congrArg (·.timer) same⟩
  | @offered last same context below first others =>
      exact .inr ⟨by simp [Step.offer], congrArg (·.timer) same⟩
  | @rested last same context below line =>
      have timer : last.teller.timer = begun.timer := congrArg (·.timer) same
      simp only [Step.rest]
      split
      · left
        refine ⟨last.teller.options.pacing.delay line, ?_, ?_⟩ <;>
          simp [Step.showTyping_teller, timer, Timer.arm]
      · exact .inr ⟨by simp, by simpa [Step.showTyping_teller] using timer⟩

theorem Prepares.armings_eq {playback : Playback} {call : Call} {step : Step}
    (prepared : Prepares playback call step) :
    step.teller.timer.armings = playback.teller.timer.armings := by
  cases prepared with
  | start idle => rfl
  | advance waits => rw [prompted_teller]
  | timerElapsed waits fires => rw [elapsed_teller fires]
  | choose waits offered => rw [chosen_teller]

/-! ## Tokens -/

/-- The token that a call gives out: the one that its answer waits for, if the call made playback go on. -/
def Exchange.token? (exchange : Exchange) : Option Nat :=
  match exchange.goesOn, exchange.reply with
  | true, some ⟨.ok ⟨_, .timer token _⟩, _⟩ => some token
  | _, _ => none

structure Void (token : Nat) (timer : Timer) : Prop where
  given : token ≤ timer.armings
  unarmed : timer.armed ≠ some token

theorem timer_ask_of_not_goesOn (clock : Nat → Instant) {playback : Playback} {call : Call}
    (stays : playback.goesOn call = false) :
    (playback.ask clock call).1.teller.timer = playback.teller.timer := by
  obtain ⟨⟨autoplay, same⟩, _⟩ := ask_of_not_goesOn clock stays
  rw [same]
  rfl

theorem timer_ask_of_goesOn (clock : Nat → Instant) {playback : Playback} {call : Call}
    (consistent : playback.Consistent) (goes : playback.goesOn call = true) :
    let answer := playback.ask clock call
    let exchange : Exchange := ⟨playback, call, answer.1, answer.2⟩
    (exchange.token? = some (playback.teller.timer.armings + 1) ∧
        answer.1.teller.timer = playback.teller.timer.arm.2) ∨
      (exchange.token? = none ∧ answer.1.teller.timer = ⟨playback.teller.timer.armings, none⟩) := by
  obtain ⟨step, prepared, answered⟩ := ask_of_goesOn clock goes
  have armings := prepared.armings_eq
  have quiet := prepared.quiet consistent
  have cleared : step.underWay.teller.timer = ⟨playback.teller.timer.armings, none⟩ := by
    rw [← armings, ← quiet.unarmed]
    rfl
  rw [answered]
  intro answer exchange
  rcases (rests_run clock playback.stack step.underWay).timer quiet with
    ⟨delay, waits, timer⟩ | ⟨elsewhere, timer⟩
  · left
    rw [cleared] at waits timer
    refine ⟨?_, timer⟩
    simp [exchange, answer, Exchange.token?, Exchange.goesOn, goes, resume, waits]
  · right
    refine ⟨?_, timer.trans cleared⟩
    simp only [exchange, answer, Exchange.token?]
    split
    · rename_i _ _ _ token delay _ _ replied
      simp only [resume, Prod.map, Option.some.injEq, Reply.mk.injEq, Except.ok.injEq,
        Outcome.mk.injEq] at replied
      exact absurd replied.1.2 (elsewhere token delay)
    · rfl

theorem Void.ask (clock : Nat → Instant) {playback : Playback} (call : Call) {token : Nat}
    (consistent : playback.Consistent) (void : Void token playback.teller.timer) :
    Void token (playback.ask clock call).1.teller.timer := by
  cases goes : playback.goesOn call with
  | false => rwa [timer_ask_of_not_goesOn clock goes]
  | true =>
      have given := void.given
      rcases timer_ask_of_goesOn clock consistent goes with ⟨_, timer⟩ | ⟨_, timer⟩
      · rw [timer]
        simp only [Timer.arm]
        constructor
        · exact Nat.le_succ_of_le given
        · intro armed
          have latest : playback.teller.timer.armings + 1 = token := Option.some.inj armed
          omega
      · rw [timer]
        exact ⟨given, by simp⟩

theorem armed_after (setup : Setup) (story : Story) (clock : Nat → Instant) (calls : List Call) :
    let timer := ((setup.playback story).after clock calls).teller.timer
    ∀ token, timer.armed = some token → token = timer.armings := by
  refine (after_of_ask (fun playback => playback.Consistent ∧
    ∀ token, playback.teller.timer.armed = some token → token = playback.teller.timer.armings) ?_
    ⟨consistent_playback setup story, by simp [Setup.playback, ofStory, Setup.teller]⟩ calls).2
  rintro playback call ⟨consistent, latest⟩
  refine ⟨consistent_ask clock playback call consistent, ?_⟩
  cases goes : playback.goesOn call with
  | false => rwa [timer_ask_of_not_goesOn clock goes]
  | true =>
      rcases timer_ask_of_goesOn clock consistent goes with ⟨_, timer⟩ | ⟨_, timer⟩
      · simp [timer, Timer.arm]
      · simp [timer]

theorem tokens_ascend (clock : Nat → Instant) {playback : Playback} (consistent : playback.Consistent)
    (calls : List Call) :
    let tokens := (playback.transcript clock calls).filterMap Exchange.token?
    (∀ token ∈ tokens, playback.teller.timer.armings < token) ∧ tokens.Pairwise (· < ·) := by
  induction calls generalizing playback with
  | nil => simp [transcript]
  | cons call later ih =>
      obtain ⟨above, ascending⟩ := ih (consistent_ask clock playback call consistent)
      simp only [transcript, List.filterMap_cons]
      cases goes : playback.goesOn call with
      | false =>
          rw [timer_ask_of_not_goesOn clock goes] at above
          simpa [Exchange.token?, Exchange.goesOn, goes] using And.intro above ascending
      | true =>
          rcases timer_ask_of_goesOn clock consistent goes with ⟨given, timer⟩ | ⟨none, timer⟩
          · rw [timer] at above
            simp only [given]
            refine ⟨?_, List.pairwise_cons.mpr ⟨above, ascending⟩⟩
            intro token member
            rcases List.mem_cons.mp member with same | further
            · omega
            · have higher := above token further
              simp only [Timer.arm] at higher
              omega
          · rw [timer] at above
            simp only [none]
            exact ⟨above, ascending⟩

/-! ## The end of a wait -/

def Awaits (playback : Playback) (token : TimerToken) : Prop :=
  playback.teller.status = .awaitingTimer ∧ ∃ delay, playback.teller.wait = .timer token delay

theorem Consistent.awaits_iff {playback : Playback} (consistent : playback.Consistent)
    (token : TimerToken) : playback.Awaits token ↔ playback.teller.timer.armed = some token := by
  constructor
  · rintro ⟨waits, delay, wait⟩
    obtain ⟨armed, some⟩ := Option.ne_none_iff_exists'.mp (consistent.timer_iff.mp waits)
    obtain ⟨other, same⟩ := consistent.armed_wait armed some
    rw [wait] at same
    rw [some, (Wait.timer.inj same).1]
  · intro armed
    exact ⟨consistent.timer_iff.mpr (by simp [armed]), consistent.armed_wait token armed⟩

theorem goesOn_timerElapsed_iff {playback : Playback} (consistent : playback.Consistent)
    (token : TimerToken) :
    playback.goesOn (.event (.timerElapsed token)) = true ↔ playback.Awaits token := by
  simp only [goesOn, Bool.and_eq_true, decide_eq_true_eq, consistent.awaits_iff]
  constructor
  · exact fun both => both.2
  · exact fun armed => ⟨consistent.timer_iff.mpr (by simp [armed]), armed⟩

theorem ask_stale (clock : Nat → Instant) {playback : Playback} {token : TimerToken}
    (started : playback.teller.status ≠ .idle)
    (stale : playback.goesOn (.event (.timerElapsed token)) = false) :
    ∃ trace, playback.ask clock (.event (.timerElapsed token)) =
      (playback, some ⟨.ok ⟨[], playback.teller.wait⟩, [.trace trace]⟩) := by
  simp only [ask, handle, timerElapsed]
  cases status : playback.teller.status with
  | idle => exact absurd status started
  | awaitingTimer =>
      have other : playback.teller.timer.armed ≠ some token := by
        simpa [goesOn, status] using stale
      simp only [Timer.fire?, if_neg other]
      exact ⟨_, rfl⟩
  | running | awaitingInput | awaitingChoice | ended => exact ⟨_, rfl⟩

theorem Void.not_goesOn (clock : Nat → Instant) {playback : Playback} {token : Nat}
    (consistent : playback.Consistent) (void : Void token playback.teller.timer) (later : List Call) :
    (playback.after clock later).goesOn (.event (.timerElapsed token)) = false := by
  have kept := after_of_ask (fun playback => playback.Consistent ∧ Void token playback.teller.timer)
    (fun playback call both =>
      ⟨consistent_ask clock playback call both.1, both.2.ask clock call both.1⟩)
    ⟨consistent, void⟩ later
  rw [Bool.eq_false_iff]
  intro goes
  exact kept.2.unarmed ((kept.1.awaits_iff token).mp ((goesOn_timerElapsed_iff kept.1 token).mp goes))

/-- No token is given out twice; a token makes playback go on just while playback waits for it, and else
changes nothing; and once the player or the timer has ended its wait, it never does anything again. -/
theorem timer_races_end (setup : Setup) (story : Story) (clock : Nat → Instant) (calls : List Call) :
    let unstarted := setup.playback story
    let played := unstarted.after clock calls
    let elapse (token : TimerToken) : Call := .event (.timerElapsed token)
    ((unstarted.transcript clock calls).filterMap Exchange.token?).Pairwise (· < ·) ∧
      (∀ token, (played.ask clock (elapse token)).1.stack ≠ played.stack ↔ played.Awaits token) ∧
      (∀ token, played.teller.status ≠ .idle → ¬played.Awaits token →
        ∃ trace, played.ask clock (elapse token) =
          (played, some ⟨.ok ⟨[], played.teller.wait⟩, [.trace trace]⟩)) ∧
      ∀ token, played.Awaits token → ∀ resolving ∈ [.event .advance, elapse token],
        (played.ask clock resolving).1.stack ≠ played.stack ∧
          ∀ later, ∃ trace,
            let resolved := (played.ask clock resolving).1.after clock later
            resolved.ask clock (elapse token) =
              (resolved, some ⟨.ok ⟨[], resolved.teller.wait⟩, [.trace trace]⟩) := by
  intro unstarted played elapse
  have fresh : unstarted.Consistent := consistent_playback setup story
  have consistent : played.Consistent := fresh.after clock calls
  refine ⟨(tokens_ascend clock fresh calls).2, ?_, ?_, ?_⟩
  · intro token
    rw [stack_ask_ne_iff clock consistent]
    exact goesOn_timerElapsed_iff consistent token
  · intro token started elsewhere
    apply ask_stale clock started
    rw [Bool.eq_false_iff]
    exact fun goes => elsewhere ((goesOn_timerElapsed_iff consistent token).mp goes)
  · intro token waits resolving member
    have started : played.teller.status ≠ .idle := by simp [waits.1]
    have goes : played.goesOn resolving = true := by
      simp only [List.mem_cons, List.not_mem_nil, or_false] at member
      rcases member with rfl | rfl
      · simp [goesOn, waits.1]
      · exact (goesOn_timerElapsed_iff consistent token).mpr waits
    have next := consistent_ask clock played resolving consistent
    have void : Void token (played.ask clock resolving).1.teller.timer := by
      have armed := (consistent.awaits_iff token).mp waits
      have latest : token = played.teller.timer.armings := armed_after setup story clock calls token armed
      rcases timer_ask_of_goesOn clock consistent goes with ⟨_, timer⟩ | ⟨_, timer⟩
      · rw [timer, latest]
        exact ⟨Nat.le_succ _, by simp [Timer.arm]⟩
      · rw [timer, latest]
        exact ⟨Nat.le_refl _, by simp⟩
    refine ⟨(stack_ask_ne_iff clock consistent).mpr goes, fun later => ?_⟩
    apply ask_stale clock
    · exact after_of_ask (fun playback => playback.teller.status ≠ .idle) (started_ask clock)
        (started_ask clock played resolving started) later
    · exact void.not_goesOn clock next later

end Playback
end BranchingStory
