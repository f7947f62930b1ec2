import BranchingStory.Playback.Turn

/-!
Playback of a story: a machine that answers each event by running from one point of rest to the next.
-/

namespace BranchingStory

structure Playback where
  stack : Playback.Stack
  teller : Playback.Teller

namespace Playback

structure Reply where
  result : Except Rejection Outcome
  deeds : List Deed := []

def ofStory (story : Story) (teller : Teller) : Playback := ⟨[.start story], teller⟩

def depth (playback : Playback) : Nat := playback.stack.length

def peek? (playback : Playback) : Option Peek := Stack.peek? playback.stack

def setAutoplay (playback : Playback) (autoplay : Bool) : Playback :=
  { playback with teller := { playback.teller with autoplay } }

/-- Goes on from a step that has been prepared. -/
def resume (playback : Playback) (clock : Nat → Instant) (step : Step) : Playback × Reply :=
  let (stack, step) := run clock playback.stack step.underWay
  (⟨stack, step.teller⟩, ⟨.ok ⟨step.instructions, step.teller.wait⟩, step.deeds⟩)

def reject (playback : Playback) (cause : Rejection) : Playback × Reply := (playback, ⟨.error cause, []⟩)

def ignore (playback : Playback) (trace : Trace) : Playback × Reply :=
  (playback, ⟨.ok ⟨[], playback.teller.wait⟩, [.trace trace]⟩)

def opening (playback : Playback) : Step :=
  let step : Step := { teller := playback.teller }
  let step := step.trace .engine "Story started"
    (.object [("autoplay", .bool playback.teller.autoplay), ("depth", .ofNat playback.depth)])
  let title := playback.teller.storyName.map fun name =>
    Instruction.setTitle (name ++ " - " ++ applicationTitle)
  step.emit title.toList

def start (playback : Playback) (clock : Nat → Instant) : Playback × Reply :=
  if playback.teller.status ≠ .idle then playback.reject .alreadyStarted
  else playback.resume clock playback.opening

def prompted (playback : Playback) : Step :=
  let (cancelled, timer) := playback.teller.timer.cancel
  let step : Step := { teller := { playback.teller with timer } }
  let step := match cancelled with
    | some token =>
        step.trace .engine "Cancelled autoplay timer" (.object [("token", .ofNat token)])
    | none => step
  step.hideTyping

def advance (playback : Playback) (clock : Nat → Instant) : Playback × Reply :=
  match playback.teller.status with
  | .idle => playback.reject .notStarted
  | .ended => playback.reject .finished
  | .awaitingChoice =>
      playback.ignore
        { category := .flow, message := "Ignoring advance while a choice is pending", data := .null }
  | .running | .awaitingInput | .awaitingTimer => playback.resume clock playback.prompted

def elapsed (playback : Playback) (timer : Timer) : Step :=
  let step : Step := { teller := { playback.teller with timer } }
  step.hideTyping

/-- The delay of a token has passed. Only the token that is armed counts. -/
def timerElapsed (playback : Playback) (clock : Nat → Instant) (token : TimerToken) : Playback × Reply :=
  let stale := playback.ignore
    { category := .engine
      message := "Ignoring stale autoplay timer"
      data := .object [("token", .ofNat token)] }
  match playback.teller.status with
  | .idle => playback.reject .notStarted
  | .awaitingTimer =>
      match playback.teller.timer.fire? token with
      | some timer => playback.resume clock (playback.elapsed timer)
      | none => stale
  | _ => stale

def Step.applyEffects (step : Step) (choice : Choice) : Step :=
  match choice.effects with
  | some effects =>
      if effects.isEmpty then step
      else
        let (scope, consequences) := step.teller.scope.apply effects
        let after := { step with teller := { step.teller with scope } }
        (after.leave (.keepEffects consequences)).trace .values "Applied choice effects"
          (.object
            [("choice", .string choice.text),
             ("affection", (scope.get? affectionName).getD .null)])
  | none => step

def chosen (playback : Playback) (index : Nat) (choice : Choice) : Step :=
  let step : Step := { teller := { playback.teller with pending := [] } }
  let step := (step.emit [.choiceSelected index choice.text]).applyEffects choice
  step.emit (choice.toastText?.map .showToast).toList

def choose (playback : Playback) (clock : Nat → Instant) (index : Nat) : Playback × Reply :=
  match playback.teller.status with
  | .idle => playback.reject .notStarted
  | .ended => playback.reject .finished
  | .awaitingChoice =>
      match playback.teller.pending[index]? with
      | none => playback.reject (.invalidChoice index playback.teller.pending.length)
      | some choice => playback.resume clock (playback.chosen index choice)
  | _ => playback.reject .notAwaitingChoice

def handle (playback : Playback) (clock : Nat → Instant) : Event → Playback × Reply
  | .advance => playback.advance clock
  | .timerElapsed token => playback.timerElapsed clock token
  | .choose index => playback.choose clock index

end Playback
end BranchingStory
