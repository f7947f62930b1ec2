import BranchingStory.Playback.Machine
import BranchingStory.Proofs.Playback.Run

/-!
Courses of playback: what a host asks, call after call. Every call is turned away, passed over, or answered
by a run that goes on from a prepared step.
-/

namespace BranchingStory
namespace Playback

structure Setup where
  options : Options := .scene
  assets : AssetBase := {}
  storyName : Option String := none
  scope : Variables := .start
  ledger : Ledger := .empty
  autoplay : Bool := false

def Setup.teller (setup : Setup) : Teller :=
  { options := setup.options
    assets := setup.assets
    storyName := setup.storyName
    scope := setup.scope
    ledger := setup.ledger
    autoplay := setup.autoplay }

def Setup.playback (setup : Setup) (story : Story) : Playback := ofStory story setup.teller

inductive Call
  | start
  | event (event : Event)
  | setAutoplay (autoplay : Bool)
  | peek

def Call.pick? : Call → Option Nat
  | .event (.choose index) => some index
  | _ => none

def ask (playback : Playback) (clock : Nat → Instant) : Call → Playback × Option Reply
  | .start => (playback.start clock).map id some
  | .event event => (playback.handle clock event).map id some
  | .setAutoplay autoplay => (playback.setAutoplay autoplay, none)
  | .peek => (playback, none)

def after (playback : Playback) (clock : Nat → Instant) : List Call → Playback
  | [] => playback
  | call :: later => (playback.ask clock call).1.after clock later

structure Exchange where
  before : Playback
  call : Call
  after : Playback
  reply : Option Reply

def transcript (playback : Playback) (clock : Nat → Instant) : List Call → List Exchange
  | [] => []
  | call :: later =>
      let (after, reply) := playback.ask clock call
      ⟨playback, call, after, reply⟩ :: after.transcript clock later

def Exchange.instructions (exchange : Exchange) : List Instruction :=
  match exchange.reply with
  | some ⟨.ok outcome, _⟩ => outcome.instructions
  | _ => []

def Exchange.pick? (exchange : Exchange) : Option Nat :=
  match exchange.reply with
  | some ⟨.ok _, _⟩ => exchange.call.pick?
  | _ => none

/-- Whether a call makes playback go on: the start, the player where no choice is pending, the token that is
armed, or one of the choices. -/
def goesOn (playback : Playback) : Call → Bool
  | .start => playback.teller.status = .idle
  | .event .advance =>
      playback.teller.status = .running || playback.teller.status = .awaitingInput ||
        playback.teller.status = .awaitingTimer
  | .event (.timerElapsed token) =>
      playback.teller.status = .awaitingTimer && playback.teller.timer.armed = some token
  | .event (.choose index) =>
      playback.teller.status = .awaitingChoice && index < playback.teller.pending.length
  | .setAutoplay _ => false
  | .peek => false

inductive Prepares (playback : Playback) : Call → Step → Prop
  | start (idle : playback.teller.status = .idle) : Prepares playback .start playback.opening
  | advance (waits : playback.teller.status = .running ∨ playback.teller.status = .awaitingInput ∨
      playback.teller.status = .awaitingTimer) : Prepares playback (.event .advance) playback.prompted
  | timerElapsed {token : TimerToken} {timer : Timer} (waits : playback.teller.status = .awaitingTimer)
      (fires : playback.teller.timer.fire? token = some timer) :
      Prepares playback (.event (.timerElapsed token)) (playback.elapsed timer)
  | choose {index : Nat} {choice : Choice} (waits : playback.teller.status = .awaitingChoice)
      (offered : playback.teller.pending[index]? = some choice) :
      Prepares playback (.event (.choose index)) (playback.chosen index choice)

theorem Prepares.goesOn {playback : Playback} {call : Call} {step : Step}
    (prepared : Prepares playback call step) : playback.goesOn call = true := by
  cases prepared with
  | start idle => simp [Playback.goesOn, idle]
  | advance waits => simpa [Playback.goesOn, or_assoc] using waits
  | @timerElapsed token timer waits fires =>
      have armed : playback.teller.timer.armed = some token := by
        simp only [Timer.fire?] at fires
        split at fires
        · assumption
        · simp at fires
      simp [Playback.goesOn, waits, armed]
  | @choose index choice waits offered =>
      obtain ⟨bound, _⟩ := List.getElem?_eq_some_iff.mp offered
      simp [Playback.goesOn, waits, bound]

inductive Answers (clock : Nat → Instant) (playback : Playback) : Call → Playback × Option Reply → Prop
  | reject {call : Call} {cause : Rejection} (stays : playback.goesOn call = false) :
      Answers clock playback call (playback, some ⟨.error cause, []⟩)
  | ignore {call : Call} {trace : Trace} (stays : playback.goesOn call = false)
      (started : playback.teller.status ≠ .idle) (unpicked : call.pick? = none) :
      Answers clock playback call (playback, some ⟨.ok ⟨[], playback.teller.wait⟩, [.trace trace]⟩)
  | resume {call : Call} {step : Step} (prepared : Prepares playback call step) :
      Answers clock playback call ((playback.resume clock step).map id some)
  | setAutoplay {autoplay : Bool} :
      Answers clock playback (.setAutoplay autoplay) (playback.setAutoplay autoplay, none)
  | peek : Answers clock playback .peek (playback, none)

theorem answers_ask (clock : Nat → Instant) (playback : Playback) (call : Call) :
    Answers clock playback call (playback.ask clock call) := by
  cases call with
  | start =>
      simp only [ask, start]
      split
      · rename_i begun
        exact .reject (by simpa [goesOn] using begun)
      · rename_i idle
        exact .resume (.start (by simpa using idle))
  | event event =>
      cases event with
      | advance =>
          simp only [ask, handle, advance]
          cases status : playback.teller.status with
          | idle => exact .reject (by simp [goesOn, status])
          | ended => exact .reject (by simp [goesOn, status])
          | awaitingChoice => exact .ignore (by simp [goesOn, status]) (by simp [status]) rfl
          | running | awaitingInput | awaitingTimer => exact .resume (.advance (by simp [status]))
      | timerElapsed token =>
          simp only [ask, handle, timerElapsed]
          cases status : playback.teller.status with
          | idle => exact .reject (by simp [goesOn, status])
          | awaitingTimer =>
              cases fires : playback.teller.timer.fire? token with
              | some timer => exact .resume (.timerElapsed status fires)
              | none =>
                  have stale : playback.teller.timer.armed ≠ some token := by
                    intro armed
                    simp [Timer.fire?, armed] at fires
                  exact .ignore (by simp [goesOn, stale]) (by simp [status]) rfl
          | running | awaitingInput | awaitingChoice | ended =>
              exact .ignore (by simp [goesOn, status]) (by simp [status]) rfl
      | choose index =>
          simp only [ask, handle, choose]
          cases status : playback.teller.status with
          | awaitingChoice =>
              cases offered : playback.teller.pending[index]? with
              | some choice => exact .resume (.choose status offered)
              | none =>
                  have beyond := List.getElem?_eq_none_iff.mp offered
                  exact .reject (by simp [goesOn, beyond])
          | idle | ended | running | awaitingInput | awaitingTimer =>
              exact .reject (by simp [goesOn, status])
  | setAutoplay autoplay => exact .setAutoplay
  | peek => exact .peek

/-! ## Prepared steps -/

theorem Step.hideTyping_teller (step : Step) :
    step.hideTyping.teller = { step.teller with typing := false } := by
  simp only [hideTyping]
  split
  · rfl
  · rename_i still
    have untyping : step.teller.typing = false := by simpa using still
    rw [← untyping]

theorem prompted_teller (playback : Playback) :
    playback.prompted.teller =
      { playback.teller with timer := ⟨playback.teller.timer.armings, none⟩, typing := false } := by
  simp only [prompted, Timer.cancel, Step.hideTyping_teller]
  split <;> rfl

theorem elapsed_teller {playback : Playback} {token : TimerToken} {timer : Timer}
    (fires : playback.teller.timer.fire? token = some timer) :
    (playback.elapsed timer).teller =
      { playback.teller with timer := ⟨playback.teller.timer.armings, none⟩, typing := false } := by
  simp only [Timer.fire?] at fires
  split at fires
  · simp only [elapsed, Step.hideTyping_teller, ← Option.some.inj fires]
  · simp at fires

theorem chosen_teller (playback : Playback) (index : Nat) (choice : Choice) :
    (playback.chosen index choice).teller =
      { playback.teller with
        pending := []
        scope := (playback.teller.scope.apply (choice.effects.getD .empty)).1 } := by
  simp only [chosen, Step.emit_teller, Step.applyEffects]
  cases choice.effects with
  | none => rfl
  | some effects =>
      obtain ⟨members⟩ := effects
      cases members <;> rfl

/-! ## Courses -/

theorem after_append (playback : Playback) (clock : Nat → Instant) (calls later : List Call) :
    playback.after clock (calls ++ later) = (playback.after clock calls).after clock later := by
  induction calls generalizing playback with
  | nil => rfl
  | cons call rest ih => exact ih _

theorem transcript_append (playback : Playback) (clock : Nat → Instant) (calls later : List Call) :
    playback.transcript clock (calls ++ later) =
      playback.transcript clock calls ++ (playback.after clock calls).transcript clock later := by
  induction calls generalizing playback with
  | nil => rfl
  | cons call rest ih => exact congrArg _ (ih _)

/-- The rule for courses: what every call keeps holds after any calls. -/
theorem after_of_ask {clock : Nat → Instant} (Holds : Playback → Prop)
    (keeps : ∀ playback call, Holds playback → Holds (playback.ask clock call).1) {playback : Playback}
    (holds : Holds playback) (calls : List Call) : Holds (playback.after clock calls) := by
  induction calls generalizing playback with
  | nil => exact holds
  | cons call later ih => exact ih (keeps playback call holds)

theorem transcript_of_ask {clock : Nat → Instant} (Holds : Playback → Prop)
    (keeps : ∀ playback call, Holds playback → Holds (playback.ask clock call).1) {playback : Playback}
    (holds : Holds playback) {calls : List Call} {exchange : Exchange}
    (member : exchange ∈ playback.transcript clock calls) :
    Holds exchange.before ∧ (exchange.after, exchange.reply) = exchange.before.ask clock exchange.call := by
  induction calls generalizing playback with
  | nil => simp [transcript] at member
  | cons call later ih =>
      rcases List.mem_cons.mp member with same | further
      · subst same
        exact ⟨holds, rfl⟩
      · exact ih (keeps playback call holds) further

end Playback
end BranchingStory
