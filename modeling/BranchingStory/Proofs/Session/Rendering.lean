import BranchingStory.Proofs.Session.Course
import Mathlib.Data.List.Forall2

/-!
A failing presentation never disturbs playback. Whatever becomes of an instruction, those after it are carried
out, and the session goes where its playback goes by itself. What failed is told to the host, with the wait that
playback goes on from.
-/

namespace BranchingStory

namespace Presentation

variable {π : Type} (presentation : Presentation π)

inductive Renders : π → List Playback.Instruction → List (Except Error Unit) → π → Prop
  | done {display : π} : Renders display [] [] display
  | render {display between after : π} {instruction : Playback.Instruction} {later : List Playback.Instruction}
      {result : Except Error Unit} {results : List (Except Error Unit)}
      (rendered : presentation.render display instruction = (result, between))
      (goesOn : Renders between later results after) :
      Renders display (instruction :: later) (result :: results) after

def failure? : Except Error Unit → Option Error
  | .ok () => none
  | .error cause => some cause

def failures (results : List (Except Error Unit)) : List Error := results.filterMap failure?

theorem renders_dispatch (display : π) (instructions : List Playback.Instruction) :
    ∃ results, presentation.Renders display instructions results (presentation.dispatch display instructions).1 ∧
      failures results = (presentation.dispatch display instructions).2 := by
  induction instructions generalizing display with
  | nil => exact ⟨[], .done, rfl⟩
  | cons instruction later ih =>
      rw [dispatch]
      split
      · rename_i between rendered
        obtain ⟨results, renders, failed⟩ := ih between
        exact ⟨.ok () :: results, .render rendered renders, failed⟩
      · rename_i cause between rendered
        obtain ⟨results, renders, failed⟩ := ih between
        exact ⟨.error cause :: results, .render rendered renders, congrArg (cause :: ·) failed⟩

end Presentation

open Playback (Call Wait)

namespace Session

variable {σ π : Type} (setting : Setting σ π)

/-! ## What a host does -/

/-- A host asks, or lays hands on the presentation. -/
inductive Act (π : Type)
  | ask (call : Call)
  | change (change : π → π)

def Act.call? : Act π → Option Call
  | .ask call => some call
  | .change _ => none

def reply? (session : Session σ π) : Call → Option Reply
  | .start => some (session.start setting).2
  | .event event => some (session.handle setting event).2
  | .setAutoplay _ => none
  | .peek => none

structure Exchange (σ π : Type) where
  before : Session σ π
  call : Call
  after : Session σ π
  reply : Option Reply

def transcript (session : Session σ π) : List (Act π) → List (Exchange σ π)
  | [] => []
  | .ask call :: later =>
      let after := session.ask setting call
      ⟨session, call, after, session.reply? setting call⟩ :: after.transcript later
  | .change change :: later => transcript { session with display := change session.display } later

/-! ## Answers of a session -/

inductive Answers (presentation : Presentation π) :
    Option Playback.Reply → π → Option (Except Error Wait) → π → Prop
  | silent {display : π} : Answers presentation none display none display
  | refused {cause : Playback.Rejection} {deeds : List Playback.Deed} {display : π} :
      Answers presentation (some ⟨.error cause, deeds⟩) display (some (.error (.playback cause))) display
  | shown {outcome : Playback.Outcome} {deeds : List Playback.Deed} {display after : π}
      {results : List (Except Presentation.Error Unit)}
      (renders : presentation.Renders display outcome.instructions results after)
      (whole : Presentation.failures results = []) :
      Answers presentation (some ⟨.ok outcome, deeds⟩) display (some (.ok outcome.wait)) after
  | failed {outcome : Playback.Outcome} {deeds : List Playback.Deed} {display after : π}
      {results : List (Except Presentation.Error Unit)}
      (renders : presentation.Renders display outcome.instructions results after)
      (broken : Presentation.failures results ≠ []) :
      Answers presentation (some ⟨.ok outcome, deeds⟩) display
        (some (.error (.presentation outcome.wait (Presentation.failures results)))) after

/-- A session does what its playback does by itself, and shows it. -/
structure Presents (bare : Playback.Exchange) (exchange : Exchange σ π) : Prop where
  call : exchange.call = bare.call
  before : exchange.before.playback = bare.before
  after : exchange.after.playback = bare.after
  saved : exchange.after.saved = (setting.backend.performAll exchange.before.saved bare.deeds).1
  answers : Answers setting.presentation bare.reply exchange.before.display (exchange.reply.map (·.result))
    exchange.after.display

theorem answers_present (session : Session σ π) (playback : Playback) (reply : Playback.Reply) :
    let presented := session.present setting playback reply
    Answers setting.presentation (some reply) session.display (some presented.2.result) presented.1.display := by
  obtain ⟨result, deeds⟩ := reply
  cases result with
  | error cause => exact .refused
  | ok outcome =>
      obtain ⟨results, renders, failed⟩ := setting.presentation.renders_dispatch session.display outcome.instructions
      simp only [present]
      rw [← failed]
      split
      · rename_i whole
        exact .shown renders whole
      · rename_i broken
        exact .failed renders broken

theorem presents_ask (session : Session σ π) (call : Call) :
    let answer := session.playback.ask setting.clock call
    Presents setting ⟨session.playback, call, answer.1, answer.2⟩
      ⟨session, call, session.ask setting call, session.reply? setting call⟩ := by
  obtain ⟨playback, saved⟩ := session.ask_eq setting call
  refine ⟨rfl, rfl, playback, saved, ?_⟩
  cases call with
  | start => exact session.answers_present setting _ _
  | event event => exact session.answers_present setting _ _
  | setAutoplay autoplay => exact .silent
  | peek => exact .silent

/-- Whatever fails and whenever, and whatever a host does to the presentation meanwhile, a session goes from call
to call through the same states of playback as playback by itself, to the same answers. All that is told is carried
out once and in order. The wait is given out as it is if nothing failed, and else with just what failed. What is
refused is not shown. -/
theorem failing_presentation_disturbs_nothing (session : Session σ π) (acts : List (Act π)) :
    List.Forall₂ (Presents setting) (session.playback.transcript setting.clock (acts.filterMap Act.call?))
      (session.transcript setting acts) := by
  induction acts generalizing session with
  | nil => exact .nil
  | cons act later ih =>
      cases act with
      | ask call =>
          have rest := ih (session.ask setting call)
          rw [(session.ask_eq setting call).1] at rest
          exact .cons (session.presents_ask setting call) rest
      | change change => exact ih { session with display := change session.display }

end Session
end BranchingStory
