import BranchingStory.Player.Basic
import BranchingStory.Proofs.Playback.Timing
import BranchingStory.Proofs.Session.Ending

/-!
A player at the terminal never asks for what cannot be had. It waits for what playback waits for, so each of its
calls makes playback go on, and it is over when the story has ended or the player has left.
-/

namespace BranchingStory

open Playback (Call Event Wait)

namespace Player

def Signal.leaves : Signal → Bool
  | .line text => Command.ofLine text = .quit
  | .closed => true
  | .elapsed => false

inductive Asks (wait : Wait) (choices : Nat) : Signal → Event → Prop
  | elapsed {token delay : Nat} (timed : wait = .timer token delay) :
      Asks wait choices .elapsed (.timerElapsed token)
  | onward {text : String} (plain : wait = .input ∨ ∃ token delay, wait = .timer token delay)
      (stays : Command.ofLine text ≠ .quit) : Asks wait choices (.line text) .advance
  | pick {text : String} {number : Nat} (asked : wait = .choice) (picks : Command.ofLine text = .pick number)
      (offered : 1 ≤ number ∧ number ≤ choices) : Asks wait choices (.line text) (.choose (number - 1))

theorem Asks.stays {wait : Wait} {choices : Nat} {signal : Signal} {event : Event}
    (asks : Asks wait choices signal event) : signal.leaves = false := by
  cases asks with
  | elapsed timed => rfl
  | onward plain stays => simpa [Signal.leaves] using stays
  | pick asked picks offered => simp [Signal.leaves, picks]

def closing : String := "=== The End ==="

variable {σ : Type}

def choices (player : Player σ) : Nat := player.session.playback.teller.pending.length

def reminder (player : Player σ) : String := s!"Enter a number from 1 to {player.choices}"

/-- What a call comes to. It is not refused, and whatever instructions have failed, the player waits for what playback
waits for. The end of the story, and nothing else, is closed with a line. -/
structure Hears (answer : Session σ (Terminal Transcript) × Session.Reply) (after : Player σ) : Prop where
  unrefused : ∃ wait, answer.2.result = .ok wait ∨ ∃ failures, answer.2.result = .error (.presentation wait failures)
  session : ∃ screen, after.session = { answer.1 with display := { answer.1.display with screen } }
  waits : ¬ answer.1.HasEnded → after.status = .waiting answer.1.playback.teller.wait
  ends : answer.1.HasEnded → after.status = .done
  printed : after.transcript.output.toList =
    answer.1.display.screen.output.toList ++ if answer.1.HasEnded then [closing] else []

theorem Hears.playback {answer : Session σ (Terminal Transcript) × Session.Reply} {after : Player σ}
    (hears : Hears answer after) : after.session.playback = answer.1.playback := by
  obtain ⟨screen, session⟩ := hears.session
  rw [session]

theorem Hears.done_iff {answer : Session σ (Terminal Transcript) × Session.Reply} {after : Player σ}
    (hears : Hears answer after) : after.status = .done ↔ answer.1.HasEnded := by
  constructor
  · intro done
    by_contra unended
    exact Status.noConfusion (done.symm.trans (hears.waits unended))
  · exact hears.ends

variable (setting : Setting σ)

inductive Heeds (player : Player σ) : Signal → Player σ → Prop
  | rest {signal : Signal} (done : player.status = .done) : Heeds player signal player
  | leave {signal : Signal} {wait : Wait} (waits : player.status = .waiting wait) (leaves : signal.leaves = true) :
      Heeds player signal { player with status := .done }
  | ask {signal : Signal} {wait : Wait} {event : Event} {after : Player σ} (waits : player.status = .waiting wait)
      (asks : Asks wait player.choices signal event)
      (goesOn : player.session.playback.goesOn (.event event) = true)
      (hears : Hears (player.session.handle setting.session event) after) : Heeds player signal after
  | remind {text : String} (waits : player.status = .waiting .choice) (stays : Command.ofLine text ≠ .quit)
      (beyond : ∀ number, Command.ofLine text = .pick number → number < 1 ∨ player.choices < number) :
      Heeds player (.line text)
        { player with
          session :=
            { player.session with
              display := { player.session.display with screen := player.transcript.say [player.reminder] } } }
  | sleep {wait : Wait} (waits : player.status = .waiting wait)
      (untimed : ∀ token delay, wait ≠ .timer token delay) : Heeds player .elapsed player

/-- A player waits for what playback waits for, and a story that has ended has been closed. -/
structure InStep (player : Player σ) : Prop where
  consistent : player.session.playback.Consistent
  unfailed : ∀ cause, player.status ≠ .failed cause
  waits : ∀ wait, player.status = .waiting wait →
    player.session.playback.teller.wait = wait ∧ player.session.playback.teller.status = wait.status ∧ wait ≠ .ended
  closed : player.session.HasEnded → player.status = .done ∧ player.transcript.output.toList.getLast? = some closing

def after (player : Player σ) (signals : List Signal) : Player σ := signals.foldl (step setting) player

/-! ## Calls -/

theorem answer_of_goesOn {session : Session σ (Terminal Transcript)} {call : Call} {playback : Playback}
    {reply : Playback.Reply} (goes : session.playback.goesOn call = true)
    (answered : session.playback.ask setting.clock call = (playback, some reply)) :
    let presented := session.present setting.session playback reply
    let wait := presented.1.playback.teller.wait
    (presented.2.result = .ok wait ∨ ∃ failures, presented.2.result = .error (.presentation wait failures)) ∧
      presented.1.playback.teller.status = wait.status := by
  intro presented wait
  have goesOn : presented.1.playback = playback := (session.present_eq setting.session playback reply).1
  obtain ⟨step, prepared, resumed⟩ := Playback.ask_of_goesOn setting.clock goes
  rw [answered] at resumed
  simp only [Playback.resume, Prod.map, id, Prod.mk.injEq, Option.some.injEq] at resumed
  obtain ⟨rfl, rfl⟩ := resumed
  have rests := Playback.rests_run setting.clock session.playback.stack step.underWay
  simp only [wait, goesOn]
  refine ⟨?_, rests.status_eq⟩
  simp only [presented, Session.present]
  split
  · exact .inl rfl
  · exact .inr ⟨_, rfl⟩

theorem complain_complain (player : Player σ) (first more : List String) :
    (player.complain first).complain more = player.complain (first ++ more) := by
  have gathered (errors : Array String) : errors ++ first ++ more = errors ++ (first ++ more) :=
    Array.ext' (by simp)
  simp only [complain, write, Transcript.complain, gathered]

theorem settle_eq (player : Player σ) {session : Session σ (Terminal Transcript)} {reply : Session.Reply} {wait : Wait}
    (unrefused : reply.result = .ok wait ∨ ∃ failures, reply.result = .error (.presentation wait failures)) :
    ∃ errors : List String,
      player.settle setting (session, reply) = (complain { player with session } errors).await wait := by
  rcases unrefused with shown | ⟨failures, broken⟩
  · exact ⟨_, by rw [settle, shown]⟩
  · exact ⟨_, by rw [settle, broken]; exact congrArg (await · wait) (complain_complain _ _ _)⟩

theorem hears_settle {player : Player σ} {answer : Session σ (Terminal Transcript) × Session.Reply} {wait : Wait}
    (unrefused : answer.2.result = .ok wait ∨ ∃ failures, answer.2.result = .error (.presentation wait failures))
    (waits : answer.1.playback.teller.wait = wait) (status : answer.1.playback.teller.status = wait.status) :
    Hears answer (player.settle setting answer) := by
  obtain ⟨errors, settled⟩ := settle_eq setting player unrefused
  have ended : answer.1.HasEnded ↔ wait = .ended := by
    rw [Session.HasEnded, status]
    cases wait <;> simp [Wait.status]
  rw [settled]
  by_cases finished : answer.1.HasEnded
  · have last := ended.mp finished
    subst last
    -- the closing line is the last, since nothing else is printed once the wait is over
    refine ⟨⟨_, unrefused⟩, ⟨_, rfl⟩, fun unended => absurd finished unended, fun _ => rfl, ?_⟩
    rw [if_pos finished]
    simp [await, complain, write, say, transcript, Transcript.complain, Transcript.say, closing]
  · have further : (complain { player with session := answer.1 } errors).await wait =
        complain { session := answer.1, status := .waiting wait } errors := by
      cases wait with
      | ended => exact absurd (ended.mpr rfl) finished
      | input | timer | choice => rfl
    rw [further]
    refine ⟨⟨_, unrefused⟩, ⟨_, rfl⟩, fun _ => congrArg Status.waiting waits.symm, fun last => absurd last finished, ?_⟩
    rw [if_neg finished]
    simp [complain, write, transcript, Transcript.complain]

theorem InStep.of_hears {answer : Session σ (Terminal Transcript) × Session.Reply} {after : Player σ}
    (hears : Hears answer after) (consistent : answer.1.playback.Consistent)
    (started : answer.1.playback.teller.status ≠ .idle) : InStep after := by
  have goesOn := hears.playback
  have status := consistent.waiting started
  refine ⟨goesOn ▸ consistent, ?_, ?_, ?_⟩
  · intro cause failed
    by_cases finished : answer.1.HasEnded
    · exact Status.noConfusion (failed.symm.trans (hears.ends finished))
    · exact Status.noConfusion (failed.symm.trans (hears.waits finished))
  · intro wait waiting
    by_cases finished : answer.1.HasEnded
    · exact Status.noConfusion (waiting.symm.trans (hears.ends finished))
    · have same := Status.waiting.inj (waiting.symm.trans (hears.waits finished))
      subst same
      rw [goesOn]
      refine ⟨rfl, status, fun last => finished ?_⟩
      rw [Session.HasEnded, status, last]
      rfl
  · intro finished
    have ended : answer.1.HasEnded := by
      rwa [Session.HasEnded, goesOn] at finished
    refine ⟨hears.ends ended, ?_⟩
    rw [hears.printed, if_pos ended, List.getLast?_concat]

/-! ## Signals -/

theorem Asks.goesOn {player : Player σ} {wait : Wait} {signal : Signal} {event : Event}
    (asks : Asks wait player.choices signal event) (inStep : InStep player) (waits : player.status = .waiting wait) :
    player.session.playback.goesOn (.event event) = true := by
  obtain ⟨known, status, -⟩ := inStep.waits wait waits
  have consistent := inStep.consistent
  cases asks with
  | @elapsed token delay timed =>
      subst timed
      exact (Playback.goesOn_timerElapsed_iff consistent token).mpr ⟨status, delay, known⟩
  | onward plain stays =>
      rcases plain with rfl | ⟨token, delay, rfl⟩ <;> simp [Playback.goesOn, status, Wait.status]
  | @pick text number asked picks offered =>
      subst asked
      have inside : number - 1 < player.session.playback.teller.pending.length := by
        simp only [choices] at offered
        omega
      simp [Playback.goesOn, status, Wait.status, inside]

theorem heeds_handle {player : Player σ} {wait : Wait} {signal : Signal} {event : Event} (inStep : InStep player)
    (waits : player.status = .waiting wait) (asks : Asks wait player.choices signal event) :
    Heeds setting player signal (player.handle setting event) := by
  have goes := asks.goesOn inStep waits
  have asked : player.session.playback.ask setting.clock (.event event) =
    ((player.session.playback.handle setting.clock event).1,
      some (player.session.playback.handle setting.clock event).2) := rfl
  obtain ⟨unrefused, status⟩ := answer_of_goesOn setting goes asked
  exact .ask waits asks goes (hears_settle setting unrefused rfl status)

theorem heeds_step {player : Player σ} (inStep : InStep player) (signal : Signal) :
    Heeds setting player signal (player.step setting signal) := by
  cases status : player.status with
  | done =>
      rw [step, status]
      exact .rest status
  | failed cause => exact absurd status (inStep.unfailed cause)
  | waiting wait =>
      have unended := (inStep.waits wait status).2.2
      cases signal with
      | closed =>
          simp only [step, status]
          exact .leave status rfl
      | elapsed =>
          cases wait with
          | ended => exact absurd rfl unended
          | timer token delay =>
              simp only [step, status]
              exact heeds_handle setting inStep status (.elapsed rfl)
          | input | choice =>
              simp only [step, status]
              exact .sleep status fun _ _ => Wait.noConfusion
      | line text =>
          simp only [step, status]
          cases command : Command.ofLine text with
          | quit => exact .leave status (by simp [Signal.leaves, command])
          | goOn =>
              have stays : Command.ofLine text ≠ .quit := by simp [command]
              cases wait with
              | ended => exact absurd rfl unended
              | input => exact heeds_handle setting inStep status (.onward (.inl rfl) stays)
              | timer token delay => exact heeds_handle setting inStep status (.onward (.inr ⟨token, delay, rfl⟩) stays)
              | choice => exact .remind status stays (by simp [command])
          | pick number =>
              have stays : Command.ofLine text ≠ .quit := by simp [command]
              cases wait with
              | ended => exact absurd rfl unended
              | input => exact heeds_handle setting inStep status (.onward (.inl rfl) stays)
              | timer token delay => exact heeds_handle setting inStep status (.onward (.inr ⟨token, delay, rfl⟩) stays)
              | choice =>
                  simp only [obey, pick]
                  split
                  · rename_i offered
                    exact heeds_handle setting inStep status (.pick rfl command offered)
                  · rename_i beyond
                    refine .remind status stays fun other picks => ?_
                    have same := Command.pick.inj (command.symm.trans picks)
                    simp only [choices]
                    omega

theorem InStep.heeds {player after : Player σ} {signal : Signal} (inStep : InStep player)
    (heeds : Heeds setting player signal after) : InStep after := by
  cases heeds with
  | rest done => exact inStep
  | @leave _ wait waits leaves =>
      obtain ⟨-, status, unended⟩ := inStep.waits wait waits
      refine ⟨inStep.consistent, fun _ => Status.noConfusion, fun _ => Status.noConfusion, fun finished => ?_⟩
      exact absurd (inStep.closed finished).1 (by simp [waits])
  | @ask _ wait event _ waits asks goesOn hears =>
      have status := (inStep.waits wait waits).2.1
      have asked := player.session.ask_eq setting.session (.event event)
      have answered : (player.session.handle setting.session event).1.playback =
          (player.session.playback.ask setting.clock (.event event)).1 := asked.1
      refine .of_hears hears ?_ ?_
      · rw [answered]
        exact Playback.consistent_ask _ _ _ inStep.consistent
      · rw [answered]
        refine Playback.started_ask _ _ _ ?_
        rw [status]
        exact Playback.Wait.status_ne_idle wait
  | remind waits stays beyond =>
      refine ⟨inStep.consistent, inStep.unfailed, inStep.waits, fun finished => ?_⟩
      exact absurd (inStep.closed finished).1 (by simp [waits])
  | sleep waits untimed => exact inStep

theorem InStep.after {player : Player σ} (inStep : InStep player) (signals : List Signal) :
    InStep (player.after setting signals) := by
  induction signals generalizing player with
  | nil => exact inStep
  | cons signal later ih => exact ih (inStep.heeds setting (heeds_step setting inStep signal))

def Leaves (player : Player σ) (signals : List Signal) : Prop :=
  ∃ earlier signal later wait, signals = earlier ++ signal :: later ∧ signal.leaves = true ∧
    (player.after setting earlier).status = .waiting wait

theorem leaves_concat_iff {player : Player σ} {signals : List Signal} {signal : Signal} :
    player.Leaves setting (signals ++ [signal]) ↔ player.Leaves setting signals ∨
      signal.leaves = true ∧ ∃ wait, (player.after setting signals).status = .waiting wait := by
  constructor
  · rintro ⟨earlier, leaving, later, wait, split, leaves, waits⟩
    rcases List.eq_nil_or_concat later with rfl | ⟨between, last, rfl⟩
    · obtain ⟨rfl, same⟩ := List.append_inj' split rfl
      obtain rfl := List.head_eq_of_cons_eq same
      exact .inr ⟨leaves, wait, waits⟩
    · rw [List.concat_eq_append, ← List.cons_append, ← List.append_assoc] at split
      obtain ⟨rfl, -⟩ := List.append_inj' split rfl
      exact .inl ⟨earlier, leaving, between, wait, rfl, leaves, waits⟩
  · rintro (⟨earlier, leaving, later, wait, rfl, leaves, waits⟩ | ⟨leaves, wait, waits⟩)
    · exact ⟨earlier, leaving, later ++ [signal], wait, by simp, leaves, waits⟩
    · exact ⟨signals, signal, [], wait, rfl, leaves, waits⟩

theorem done_after_iff {player : Player σ} (inStep : InStep player)
    (begun : player.status = .done ↔ player.session.HasEnded) (signals : List Signal) :
    (player.after setting signals).status = .done ↔
      (player.after setting signals).session.HasEnded ∨ player.Leaves setting signals := by
  -- from the end: only what the last signal does decides between the two
  induction signals using List.reverseRecOn with
  | nil =>
      have stays : ¬ player.Leaves setting [] := by
        rintro ⟨earlier, signal, later, -, split, -⟩
        simp at split
      simpa [after, stays] using begun
  | append_singleton earlier signal ih =>
      have known := inStep.after setting earlier
      have onward : player.after setting (earlier ++ [signal]) = (player.after setting earlier).step setting signal := by
        simp [after]
      have heeds := heeds_step setting known signal
      rw [leaves_concat_iff, onward]
      generalize player.after setting earlier = before at known heeds ih ⊢
      generalize before.step setting signal = now at heeds ⊢
      have undone (wait : Wait) (waits : before.status = .waiting wait) :
          ¬ before.session.HasEnded ∧ ¬ player.Leaves setting earlier := by
        rw [← not_or, ← ih, waits]
        exact Status.noConfusion
      cases heeds with
      | rest done => simpa [done] using ih.mp done
      | leave waits leaves => simp [waits, leaves]
      | @ask _ wait event _ waits asks goesOn hears =>
          have done : now.status = .done ↔ now.session.HasEnded := by
            rw [hears.done_iff, Session.HasEnded, Session.HasEnded, hears.playback]
          simp [done, asks.stays, (undone wait waits).2]
      | @remind text waits stays beyond =>
          have stays : Signal.leaves (.line text) = false := by simpa [Signal.leaves] using stays
          obtain ⟨unended, unleft⟩ := undone _ waits
          simp only [Session.HasEnded] at unended
          simp [waits, stays, unleft, Session.HasEnded, unended]
      | sleep waits untimed =>
          obtain ⟨unended, unleft⟩ := undone _ waits
          simp [waits, unended, unleft, Signal.leaves]

/-- Whatever the player types and whenever the timer comes first, nothing that is asked of the session is refused or
passed over: it is what the player makes of a signal while playback waits for it. A line that picks nothing leaves
the session as it is. Instructions that fail stop nothing. The player is done when the story has ended, which is
closed with a line, and when it has left, which is not. -/
theorem player_keeps_in_step (story : Loading.LoadedStory) (options : Option Playback.Options) (assets : AssetBase)
    (saved : σ) (display : Terminal Transcript) (session : Session σ (Terminal Transcript))
    (opened : Session.ofStory setting.session saved display story options assets = .ok session)
    (signals : List Signal) :
    let greeted := (say { session, status := .done } greeting).session
    let begun := start setting session
    let player := begun.after setting signals
    greeted.playback.goesOn .start = true ∧ Hears (greeted.start setting.session) begun ∧
      (∀ cause, player.status ≠ .failed cause) ∧
      (∀ wait, player.status = .waiting wait → player.session.playback.teller.wait = wait) ∧
      (∀ signal, Heeds setting player signal (player.step setting signal)) ∧
      (player.status = .done ↔ player.session.HasEnded ∨ begun.Leaves setting signals) ∧
      (player.session.HasEnded → player.transcript.output.toList.getLast? = some closing) := by
  obtain ⟨setup, rfl⟩ := Session.opened_of_ofStory setting.session opened
  intro greeted begun player
  have fresh : greeted.playback.Consistent := Playback.consistent_playback setup story.document.story
  have goes : greeted.playback.goesOn .start = true := rfl
  have answered : (greeted.start setting.session).1.playback = (greeted.playback.ask setting.clock .start).1 :=
    (greeted.ask_eq setting.session .start).1
  have asked : greeted.playback.ask setting.clock .start =
    ((greeted.playback.start setting.clock).1, some (greeted.playback.start setting.clock).2) := rfl
  obtain ⟨unrefused, status⟩ := answer_of_goesOn setting goes asked
  have hears : Hears (greeted.start setting.session) begun := hears_settle setting unrefused rfl status
  have inStep : InStep begun := by
    refine .of_hears hears ?_ ?_
    · rw [answered]
      exact Playback.consistent_ask _ _ _ fresh
    · exact fun idle => Playback.Wait.status_ne_idle _ (status.symm.trans idle)
  have finished : begun.status = .done ↔ begun.session.HasEnded := by
    rw [hears.done_iff, Session.HasEnded, Session.HasEnded, hears.playback]
  have known := inStep.after setting signals
  exact ⟨goes, hears, known.unfailed, fun wait waits => (known.waits wait waits).1, heeds_step setting known,
    done_after_iff setting inStep finished signals, fun ended => (known.closed ended).2⟩

def Status.wait? : Status → Option Wait
  | .waiting wait => some wait
  | _ => none

theorem torn_screen_keeps_in_step :
    let story : Loading.LoadedStory :=
      { kind := .event
        document := { story := .line none "Look!" :: Loading.greeting "Alice" (.integer 1) ++ [.line none "Bye!"] }
        shared := none }
    let setting : Setting (Catalog String String) :=
      { backend := Save.memory, clock := default, tracing := {}
        printer := fun screen line => (.error "torn", screen.say [line]) }
    let saved : Catalog String String := Catalog.empty.insert Save.autoplayKey "true"
    let signals : List Signal := [.elapsed, .line "2", .line "wave", .line " 1 ", .line "", .line "q"]
    ∃ session, Session.ofStory setting.session saved { mode := .scene, screen := {} } story none {} = .ok session ∧
      let begun := start setting session
      (List.range 6).map (fun count => (begun.after setting (signals.take count)).status.wait?) =
          [some (.timer 1 1000), some .choice, some .choice, some .choice, some .input, none] ∧
        (begun.after setting signals).status = .done ∧
        (begun.after setting signals).transcript.output.toList.drop 5 =
          ["Look!", "", "Enter a number from 1 to 1", "Enter a number from 1 to 1", "> Wave", "Bye!",
            "=== Tokimeki ===", "", closing] := by
  intro story setting saved signals
  refine ⟨_, rfl, ?_⟩
  intro begun
  obtain ⟨-, -, -, -, -, done_iff, -⟩ :=
    player_keeps_in_step setting story none {} saved { mode := .scene, screen := {} } _ rfl signals
  have ended : (begun.after setting signals).session.HasEnded := by decide +kernel
  exact ⟨by decide +kernel, done_iff.mpr (.inl ended), by decide +kernel⟩

end Player
end BranchingStory
