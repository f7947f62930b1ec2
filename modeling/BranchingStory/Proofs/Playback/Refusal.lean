import BranchingStory.Proofs.Playback.Timing
import BranchingStory.Save.Deeds

/-!
Calls that come to nothing. What is refused or passed over leaves playback and the save as they were, so that
whatever is asked next is answered as if it had not been asked. A pick is refused just where no choices are
open, or where it lies beyond the choices that were shown last.
-/

namespace BranchingStory
namespace Playback

/-! ## Refused and passed over -/

def Refuses (playback : Playback) (clock : Nat → Instant) (call : Call) : Prop :=
  ∃ cause deeds, (playback.ask clock call).2 = some ⟨.error cause, deeds⟩

/-- What is passed over: the player while choices are open, and every token that playback does not wait for. -/
inductive PassesOver (playback : Playback) : Call → Prop
  | advance (asked : playback.teller.status = .awaitingChoice) : PassesOver playback (.event .advance)
  | timerElapsed {token : TimerToken} (started : playback.teller.status ≠ .idle)
      (elsewhere : ¬playback.Awaits token) : PassesOver playback (.event (.timerElapsed token))

inductive Reply.Idle (wait : Wait) : Reply → Prop
  | refused (cause : Rejection) : Idle wait ⟨.error cause, []⟩
  | passed (trace : Trace) : Idle wait ⟨.ok ⟨[], wait⟩, [.trace trace]⟩

theorem Reply.Idle.saved_eq {wait : Wait} {reply : Reply} (idle : reply.Idle wait) {σ : Type}
    (backend : Save.Backend σ) (saved : σ) : (backend.performAll saved reply.deeds).1 = saved := by
  cases idle <;> rfl

theorem PassesOver.not_goesOn {playback : Playback} {call : Call} (consistent : playback.Consistent)
    (passes : playback.PassesOver call) : playback.goesOn call = false := by
  cases passes with
  | advance asked => simp [goesOn, asked]
  | @timerElapsed token started elsewhere =>
      rw [Bool.eq_false_iff]
      exact fun goes => elsewhere ((goesOn_timerElapsed_iff consistent token).mp goes)

theorem Refuses.not_goesOn {playback : Playback} {clock : Nat → Instant} {call : Call}
    (refuses : playback.Refuses clock call) : playback.goesOn call = false := by
  obtain ⟨cause, deeds, replied⟩ := refuses
  cases goes : playback.goesOn call with
  | false => rfl
  | true =>
      obtain ⟨step, _, answered⟩ := ask_of_goesOn clock goes
      simp [answered, resume] at replied

theorem ask_idle (clock : Nat → Instant) {playback : Playback} {call : Call}
    (stays : playback.goesOn call = false) (heard : (playback.ask clock call).2 ≠ none) :
    ∃ reply : Reply, playback.ask clock call = (playback, some reply) ∧ reply.Idle playback.teller.wait := by
  have answers := answers_ask clock playback call
  generalize playback.ask clock call = answer at answers heard ⊢
  cases answers with
  | reject stays => exact ⟨_, rfl, .refused _⟩
  | ignore stays started unpicked => exact ⟨_, rfl, .passed _⟩
  | resume prepared => simp [prepared.goesOn] at stays
  | setAutoplay | peek => exact absurd rfl heard

theorem PassesOver.heard {playback : Playback} {call : Call} (passes : playback.PassesOver call)
    (clock : Nat → Instant) : (playback.ask clock call).2 ≠ none := by
  cases passes <;> simp [ask]

/-! ## Choices that are open -/

def Instruction.choices? : Instruction → Option (List ChoiceView)
  | .showChoices views => some views
  | _ => none

def lastShown? (told : List Instruction) : Option (List ChoiceView) :=
  (told.filterMap Instruction.choices?).getLast?

def Offers (playback : Playback) (told : List Instruction) : Prop :=
  playback.teller.status = .awaitingChoice → lastShown? told = some (choiceViews playback.teller.pending)

theorem lastShown?_showChoices (told : List Instruction) (views : List ChoiceView) :
    lastShown? (told ++ [.showChoices views]) = some views := by
  simp [lastShown?, Instruction.choices?]

theorem length_choiceViews (choices : List Choice) : (choiceViews choices).length = choices.length := by
  simp [choiceViews]

theorem Rests.offers {begun : Teller} {stack : Stack} {step : Step} (rests : Rests begun stack step)
    (told : List Instruction) : Offers ⟨stack, step.teller⟩ (told ++ step.instructions) := by
  intro asked
  cases rests with
  | ended same => simp [Step.finish_teller] at asked
  | lingered same => simp [Wait.status] at asked
  | @offered last same context below first others =>
      change lastShown? (told ++ (last.instructions ++ [.showChoices (choiceViews (first :: others))])) = _
      rw [← List.append_assoc, lastShown?_showChoices]
      rfl
  | rested same =>
      simp only [Step.rest] at asked
      split at asked <;> simp [Wait.status] at asked

theorem offers_ask (clock : Nat → Instant) {playback : Playback} (call : Call) {told : List Instruction}
    (offers : playback.Offers told) :
    let answer := playback.ask clock call
    let exchange : Exchange := ⟨playback, call, answer.1, answer.2⟩
    answer.1.Offers (told ++ exchange.instructions) := by
  have answers := answers_ask clock playback call
  generalize playback.ask clock call = answer at answers ⊢
  cases answers with
  | @resume _ step prepared => exact (rests_run clock playback.stack step.underWay).offers told
  | reject | ignore | setAutoplay | peek =>
      simp only [Exchange.instructions, List.append_nil]
      exact offers

theorem offers_after (clock : Nat → Instant) {playback : Playback} (calls : List Call)
    {told : List Instruction} (offers : playback.Offers told) :
    (playback.after clock calls).Offers
      (told ++ (playback.transcript clock calls).flatMap Exchange.instructions) := by
  induction calls generalizing playback told with
  | nil => simpa [transcript, after] using offers
  | cons call later ih =>
      have next := ih (offers_ask clock call offers)
      rwa [List.append_assoc] at next

theorem choose_succeeds_iff (clock : Nat → Instant) (playback : Playback) (index : Nat) :
    (∃ outcome deeds, (playback.ask clock (.event (.choose index))).2 = some ⟨.ok outcome, deeds⟩) ↔
      playback.teller.status = .awaitingChoice ∧ index < playback.teller.pending.length := by
  have goes : playback.goesOn (.event (.choose index)) = true ↔
      playback.teller.status = .awaitingChoice ∧ index < playback.teller.pending.length := by
    simp [goesOn]
  rw [← goes]
  constructor
  · rintro ⟨outcome, deeds, replied⟩
    have answers := answers_ask clock playback (.event (.choose index))
    generalize playback.ask clock (.event (.choose index)) = answer at answers replied
    cases answers with
    | reject stays => simp at replied
    | ignore stays started unpicked => simp [Call.pick?] at unpicked
    | resume prepared => exact prepared.goesOn
  · intro goes
    obtain ⟨step, _, answered⟩ := ask_of_goesOn clock goes
    exact ⟨_, _, by rw [answered]; rfl⟩

/-- Whatever has been asked, a call that is refused or passed over changes nothing about playback and the
save, and all later calls are answered as they would be without it. A pick succeeds just while choices are
open and it is one of those that were shown last. -/
theorem refused_calls_change_nothing (setup : Setup) (story : Story) (clock : Nat → Instant)
    (calls : List Call) :
    let unstarted := setup.playback story
    let played := unstarted.after clock calls
    let told := (unstarted.transcript clock calls).flatMap Exchange.instructions
    (∀ call, played.Refuses clock call ∨ played.PassesOver call → ∃ reply : Reply,
        played.ask clock call = (played, some reply) ∧ reply.Idle played.teller.wait ∧
          (∀ (σ : Type) (backend : Save.Backend σ) (saved : σ),
            (backend.performAll saved reply.deeds).1 = saved) ∧
          ∀ later, played.transcript clock (call :: later) =
            ⟨played, call, played, some reply⟩ :: played.transcript clock later) ∧
      ∀ index, (∃ outcome deeds,
          (played.ask clock (.event (.choose index))).2 = some ⟨.ok outcome, deeds⟩) ↔
        played.teller.status = .awaitingChoice ∧
          ∃ views, lastShown? told = some views ∧ index < views.length := by
  intro unstarted played told
  have consistent : played.Consistent := (consistent_playback setup story).after clock calls
  constructor
  · intro call nothing
    have stays : played.goesOn call = false := nothing.elim (·.not_goesOn) (·.not_goesOn consistent)
    have heard : (played.ask clock call).2 ≠ none := by
      rcases nothing with ⟨cause, deeds, replied⟩ | passes
      · simp [replied]
      · exact passes.heard clock
    obtain ⟨reply, answered, idle⟩ := ask_idle clock stays heard
    refine ⟨reply, answered, idle, fun σ backend saved => idle.saved_eq backend saved, fun later => ?_⟩
    simp only [transcript, answered]
  · intro index
    have unoffered : unstarted.Offers [] := by
      intro asked
      simp [unstarted, Setup.playback, ofStory, Setup.teller] at asked
    have offers : played.Offers told := by
      have later := offers_after clock calls unoffered
      rwa [List.nil_append] at later
    rw [choose_succeeds_iff]
    constructor
    · rintro ⟨asked, bound⟩
      exact ⟨asked, _, offers asked, (length_choiceViews _).symm ▸ bound⟩
    · rintro ⟨asked, views, shown, bound⟩
      obtain rfl := Option.some.inj (shown.symm.trans (offers asked))
      exact ⟨asked, length_choiceViews _ ▸ bound⟩

end Playback
end BranchingStory
