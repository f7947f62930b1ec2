import BranchingStory.Proofs.Loading.Affection
import BranchingStory.Proofs.Playback.Termination
import BranchingStory.Proofs.Session.Rendering

/-!
The end of a story is announced once: by the call that reaches it, even if nothing of what that call tells can be
shown, and by no call before or after it.
-/

namespace BranchingStory

namespace Playback

def Reply.atEnd (reply : Reply) : Bool :=
  match reply.result with
  | .ok outcome => outcome.isFinished
  | .error _ => false

theorem ended_ask_iff {clock : Nat → Instant} {playback after : Playback} {call : Call} {reply : Reply}
    (consistent : playback.Consistent) (answered : playback.ask clock call = (after, some reply)) :
    after.teller.status = .ended ↔ playback.teller.status = .ended ∨ reply.atEnd = true := by
  have answers := answers_ask clock playback call
  have kept : playback.teller.status = .ended → after.teller.status = .ended := by
    intro ended
    have stays := status_after_of_ended clock consistent ended [call]
    rwa [Playback.after, Playback.after, answered] at stays
  rw [answered] at answers
  obtain ⟨result, deeds⟩ := reply
  cases result with
  | error cause =>
      cases answers
      simp [Reply.atEnd]
  | ok outcome =>
      obtain ⟨-, status⟩ := wait_of_answers consistent answers
      have told : outcome.wait.status = .ended ↔ outcome.wait = .ended := by
        cases outcome.wait <;> simp [Wait.status]
      simp only [Reply.atEnd, Outcome.isFinished, decide_eq_true_eq]
      constructor
      · intro ended
        exact .inr (told.mp (status.symm.trans ended))
      · rintro (before | reached)
        · exact kept before
        · exact status.trans (told.mpr reached)

end Playback

open Playback (Call)

namespace Session

variable {σ π : Type} (setting : Setting σ π)

def HasEnded (session : Session σ π) : Prop := session.playback.teller.status = .ended

instance (session : Session σ π) : Decidable session.HasEnded :=
  inferInstanceAs (Decidable (session.playback.teller.status = .ended))

def Exchange.announces (exchange : Exchange σ π) : Bool := exchange.reply.any (·.announces)

def act (session : Session σ π) : Act π → Session σ π
  | .ask call => session.ask setting call
  | .change change => { session with display := change session.display }

def afterActs (session : Session σ π) (acts : List (Act π)) : Session σ π := acts.foldl (act setting) session

/-- What has been announced is the end that the story has come to. -/
structure Heralded (session : Session σ π) : Prop where
  consistent : session.playback.Consistent
  announced_iff : session.announced = true ↔ session.HasEnded

theorem present_announces (session : Session σ π) (playback : Playback) (reply : Playback.Reply) :
    let presented := session.present setting playback reply
    presented.1.announced = (session.announced || reply.atEnd) ∧
      presented.2.announces = (reply.atEnd && !session.announced) := by
  obtain ⟨result, deeds⟩ := reply
  cases result with
  | error cause => simp [present, Playback.Reply.atEnd]
  | ok outcome => exact ⟨rfl, rfl⟩

theorem announces_result {session : Session σ π} {playback : Playback} {reply : Playback.Reply}
    (announces : (session.present setting playback reply).2.announces = true) :
    let result := (session.present setting playback reply).2.result
    result = .ok .ended ∨ ∃ failures, result = .error (.presentation .ended failures) := by
  obtain ⟨result, deeds⟩ := reply
  cases result with
  | error cause => simp [present] at announces
  | ok outcome =>
      simp only [present, Playback.Outcome.isFinished, Bool.and_eq_true, decide_eq_true_eq] at announces ⊢
      rw [announces.1]
      split
      · exact .inl rfl
      · exact .inr ⟨_, rfl⟩

theorem heralded_present {session : Session σ π} (call : Call) {playback : Playback} {reply : Playback.Reply}
    (heralded : session.Heralded) (answered : session.playback.ask setting.clock call = (playback, some reply)) :
    let presented := session.present setting playback reply
    presented.1.Heralded ∧ (presented.2.announces = true ↔ ¬ session.HasEnded ∧ presented.1.HasEnded) := by
  intro presented
  obtain ⟨announced, announces⟩ := session.present_announces setting playback reply
  have goes : presented.1.playback = playback := (session.present_eq setting playback reply).1
  have ended : presented.1.HasEnded ↔ session.HasEnded ∨ reply.atEnd = true := by
    rw [HasEnded, goes]
    exact Playback.ended_ask_iff heralded.consistent answered
  constructor
  · constructor
    · have next := Playback.consistent_ask setting.clock session.playback call heralded.consistent
      rwa [answered, ← goes] at next
    · rw [ended, announced, Bool.or_eq_true, heralded.announced_iff]
  · rw [ended, announces, Bool.and_eq_true, Bool.not_eq_true', Bool.eq_false_iff, ne_eq, heralded.announced_iff]
    tauto

theorem heralded_ask {session : Session σ π} (heralded : session.Heralded) (call : Call) :
    let exchange : Exchange σ π := ⟨session, call, session.ask setting call, session.reply? setting call⟩
    exchange.after.Heralded ∧ (exchange.announces = true ↔ ¬ session.HasEnded ∧ exchange.after.HasEnded) := by
  have silent (later : Session σ π) (same : later.HasEnded ↔ session.HasEnded) :
      false = true ↔ ¬ session.HasEnded ∧ later.HasEnded := by
    rw [same]
    tauto
  cases call with
  | start => exact heralded_present setting .start heralded rfl
  | event event => exact heralded_present setting (.event event) heralded rfl
  | setAutoplay autoplay =>
      have next := Playback.consistent_ask setting.clock _ (.setAutoplay autoplay) heralded.consistent
      exact ⟨⟨next, heralded.announced_iff⟩, silent _ Iff.rfl⟩
  | peek => exact ⟨heralded, silent _ Iff.rfl⟩

theorem ended_act {session : Session σ π} (heralded : session.Heralded) (ended : session.HasEnded) (act : Act π) :
    (session.act setting act).HasEnded := by
  cases act with
  | ask call =>
      rw [Session.act, HasEnded, (session.ask_eq setting call).1]
      exact Playback.status_after_of_ended setting.clock heralded.consistent ended [call]
  | change change => exact ended

theorem heralded_act {session : Session σ π} (heralded : session.Heralded) (act : Act π) :
    (session.act setting act).Heralded := by
  cases act with
  | ask call => exact (heralded_ask setting heralded call).1
  | change change => exact ⟨heralded.consistent, heralded.announced_iff⟩

theorem ended_afterActs {session : Session σ π} (heralded : session.Heralded) (ended : session.HasEnded)
    (acts : List (Act π)) : (session.afterActs setting acts).HasEnded := by
  induction acts generalizing session with
  | nil => exact ended
  | cons act later ih => exact ih (heralded_act setting heralded act) (ended_act setting heralded ended act)

theorem countP_announces {session : Session σ π} (heralded : session.Heralded) (acts : List (Act π)) :
    (session.transcript setting acts).countP Exchange.announces =
      if ¬ session.HasEnded ∧ (session.afterActs setting acts).HasEnded then 1 else 0 := by
  induction acts generalizing session with
  | nil => simp [transcript, afterActs]
  | cons act later ih =>
      have rest := ih (heralded_act setting heralded act)
      cases act with
      | change change => exact rest
      | ask call =>
          obtain ⟨next, announces⟩ := heralded_ask setting heralded call
          have onward : session.afterActs setting (.ask call :: later) =
            (session.ask setting call).afterActs setting later := rfl
          rw [Session.act] at rest
          rw [transcript, List.countP_cons, rest, onward]
          simp only [announces]
          by_cases before : session.HasEnded
          · have between := ended_act setting heralded before (.ask call)
            rw [Session.act] at between
            simp [before, between]
          · by_cases between : (session.ask setting call).HasEnded
            · simp [before, between, ended_afterActs setting next between later]
            · simp [before, between]

theorem transcript_of_act (Holds : Session σ π → Prop)
    (keeps : ∀ session act, Holds session → Holds (session.act setting act)) {session : Session σ π}
    (holds : Holds session) {acts : List (Act π)} {exchange : Exchange σ π}
    (member : exchange ∈ session.transcript setting acts) :
    ∃ session call, Holds session ∧
      exchange = ⟨session, call, session.ask setting call, session.reply? setting call⟩ := by
  induction acts generalizing session with
  | nil => exact absurd member List.not_mem_nil
  | cons act later ih =>
      have next := keeps session act holds
      cases act with
      | change change => exact ih next member
      | ask call =>
          rcases List.mem_cons.mp member with here | further
          · exact ⟨session, call, holds, here⟩
          · exact ih next further

/-- Whatever is asked of a session and done to its display, the end has been announced once if the story has come to
it, and else not at all. The call that reaches the end announces it, also if it has to tell that instructions
failed. -/
theorem end_is_announced_once (story : Loading.LoadedStory) (options : Option Playback.Options) (assets : AssetBase)
    (saved : σ) (display : π) (session : Session σ π)
    (opened : Session.ofStory setting saved display story options assets = .ok session) (acts : List (Act π)) :
    let exchanges := session.transcript setting acts
    (exchanges.countP Exchange.announces = if (session.afterActs setting acts).HasEnded then 1 else 0) ∧
      ∀ exchange ∈ exchanges,
        (exchange.announces = true ↔ ¬ exchange.before.HasEnded ∧ exchange.after.HasEnded) ∧
          (exchange.announces = true → ∃ reply, exchange.reply = some reply ∧
            (reply.result = .ok .ended ∨ ∃ failures, reply.result = .error (.presentation .ended failures))) := by
  obtain ⟨setup, rfl⟩ := opened_of_ofStory setting opened
  have unended : ¬ HasEnded { playback := setup.playback story.document.story, saved, display } := by
    simp [HasEnded, Playback.Setup.playback, Playback.ofStory, Playback.Setup.teller]
  have heralded : Heralded { playback := setup.playback story.document.story, saved, display } :=
    ⟨Playback.consistent_playback setup story.document.story,
      fun announced => Bool.noConfusion announced, fun ended => absurd ended unended⟩
  intro exchanges
  refine ⟨?_, ?_⟩
  · rw [countP_announces setting heralded]
    simp [unended]
  · intro exchange member
    obtain ⟨before, call, known, rfl⟩ :=
      transcript_of_act setting Heralded (fun _ act known => heralded_act setting known act) heralded member
    refine ⟨(heralded_ask setting known call).2, ?_⟩
    intro announces
    cases call with
    | start => exact ⟨_, rfl, announces_result setting announces⟩
    | event event => exact ⟨_, rfl, announces_result setting announces⟩
    | setAutoplay autoplay => exact Bool.noConfusion announces
    | peek => exact Bool.noConfusion announces

theorem unseen_greeting_ends_once :
    let story : Loading.LoadedStory :=
      { kind := .event, document := { story := Loading.greeting "Alice" (.integer 1) }, shared := none }
    let setting : Session.Setting (Catalog String String) Unit :=
      { backend := Save.memory, presentation := { render := fun _ _ => (.error (.other "dark"), ()) }, clock := default }
    let acts : List (Act Unit) :=
      [.ask .start, .ask (.event (.timerElapsed 1)), .ask (.event (.choose 1)), .ask (.event (.choose 0)),
        .ask (.event (.timerElapsed 1)), .ask (.event .advance)]
    ∃ session, Session.ofStory setting .empty () story none {} = .ok session ∧
      (session.transcript setting acts).countP Exchange.announces = 1 ∧
        (session.transcript setting acts).map (·.announces) = [false, false, false, true, false, false] := by
  intro story setting acts
  refine ⟨_, rfl, ?_, by decide +kernel⟩
  have counted := (end_is_announced_once setting story none {} .empty () _ rfl acts).1
  rw [counted]
  exact if_pos (by decide +kernel)

end Session
end BranchingStory
