import BranchingStory.Proofs.Playback.Answer

/-!
The sign that somebody is typing comes and goes in turn. What one call tells hides a sign that is up before
anything else, and puts one up after everything else, so that the sign is up between two calls and never within
one.
-/

namespace BranchingStory
namespace Playback

/-! ## Following the sign -/

/-- Whether the sign is up after these instructions, if it was or was not before. None if they put up a sign that
is up, hide one that is not, or end the story under one. -/
def signAfter : Bool → List Instruction → Option Bool
  | up, [] => some up
  | up, .showTypingIndicator _ :: later => if up then none else signAfter true later
  | up, .hideTypingIndicator :: later => if up then signAfter false later else none
  | up, .endStory :: later => if up then none else signAfter up later
  | up, _ :: later => signAfter up later

def Unsigned (instructions : List Instruction) : Prop := ∀ instruction ∈ instructions, instruction.isTyping = false

theorem Unsigned.append {first second : List Instruction} (unsigned : Unsigned first) (also : Unsigned second) :
    Unsigned (first ++ second) := List.forall_mem_append.mpr ⟨unsigned, also⟩

theorem signAfter_append (up : Bool) (first second : List Instruction) :
    signAfter up (first ++ second) = (signAfter up first).bind fun between => signAfter between second := by
  induction first generalizing up with
  | nil => rfl
  | cons instruction later ih =>
      cases instruction <;> cases up <;> simp [signAfter, ih]

theorem signAfter_unsigned {instructions : List Instruction} (unsigned : Unsigned instructions) :
    signAfter false instructions = some false := by
  induction instructions with
  | nil => rfl
  | cons instruction later ih =>
      obtain ⟨first, rest⟩ := List.forall_mem_cons.mp unsigned
      cases instruction <;> first | exact ih rest | simp [Instruction.isTyping] at first

/-! ## What a run adds -/

theorem unsigned_of_unstaged {instructions : List Instruction} (unsigned : Unsigned (unstaged instructions)) :
    Unsigned instructions := by
  intro instruction member
  cases staged : instruction.isStaging with
  | true => cases instruction <;> simp_all [Instruction.isStaging, Instruction.isTyping]
  | false => exact unsigned instruction (List.mem_filter.mpr ⟨member, by simp [staged]⟩)

theorem Step.Utters.added {before after : Step} {lines : List Instruction} (uttered : before.Utters lines after)
    (unsigned : Unsigned lines) : ∃ added, after.instructions = before.instructions ++ added ∧ Unsigned added := by
  obtain ⟨_, added, told, rfl⟩ := uttered
  exact ⟨added, told, unsigned_of_unstaged unsigned⟩

theorem unsigned_said (teller : Teller) (entry : Entry) : Unsigned (teller.said entry) := by
  rw [Teller.said]
  cases entry.line? <;> simp [Unsigned, Teller.dialogue, Instruction.isTyping]

inductive SignUp : Bool → List Instruction → Prop
  | down : SignUp false []
  | up (fromPlayer : Bool) : SignUp true [.showTypingIndicator fromPlayer]

theorem Step.signUp_rest {step : Step} (down : step.teller.typing = false) (line : String) (next : Option Peek) :
    ∃ sign, (step.rest line next).instructions = step.instructions ++ sign ∧
      SignUp (step.rest line next).teller.typing sign := by
  have typing : (step.rest line next).teller.typing = (step.showTyping next).teller.typing := by
    simp only [rest]
    split <;> rfl
  rw [rest_instructions, typing]
  simp only [showTyping]
  split
  · exact ⟨_, rfl, .up _⟩
  · exact ⟨[], (List.append_nil _).symm, down ▸ .down⟩

theorem Concludes.signed {begun : Step} (quiet : begun.teller.Quiet) {stack : Stack} {step : Step}
    (concludes : Concludes begun stack step) : ∃ middle sign,
      step.instructions = begun.instructions ++ middle ++ sign ∧ Unsigned middle ∧
        SignUp step.teller.typing sign := by
  have still {last : Step} {lines : List Instruction} (uttered : begun.Utters lines last) :
      last.teller.typing = false := (quiet.of_withoutRecord uttered.teller).untyping
  cases concludes with
  | @ended last uttered =>
      obtain ⟨added, told, unsigned⟩ := uttered.added (by simp [Unsigned])
      refine ⟨added ++ closing, [], ?_, unsigned.append (by simp [Unsigned, closing, Instruction.isTyping]), ?_⟩
      · simp [Step.finish_instructions, Teller.signOff, still uttered, told]
      · rw [Step.finish_teller]
        exact .down
  | @lingered last context below uttered =>
      obtain ⟨added, told, unsigned⟩ := uttered.added (by simp [Unsigned])
      refine ⟨added, [], ?_, unsigned, ?_⟩
      · simp [Step.suspend, told]
      · rw [Step.suspend_teller, still uttered]
        exact .down
  | @offered last context below entry first others uttered =>
      obtain ⟨added, told, unsigned⟩ := uttered.added (unsigned_said _ entry)
      refine ⟨added ++ [.showChoices (choiceViews (first :: others))], [], ?_,
        unsigned.append (by simp [Unsigned, Instruction.isTyping]), ?_⟩
      · simp [Step.offer, Step.suspend, Step.emit, told]
      · rw [Step.offer, Step.suspend_teller, Step.emit_teller, still uttered]
        exact .down
  | @rested last context below entry line uttered =>
      obtain ⟨added, told, unsigned⟩ := uttered.added (by simp [Unsigned, Teller.dialogue, Instruction.isTyping])
      obtain ⟨sign, signed, up⟩ := Step.signUp_rest (still uttered) line (Stack.peek? (context :: below))
      exact ⟨added, sign, by rw [signed, told], unsigned, up⟩

/-! ## Answers -/

/-- What is told by one call: the sign that was up is hidden, and one that stays up is put up in the end. -/
def Signed (teller : Teller) (up : Bool) (instructions : List Instruction) : Prop :=
  ∃ middle sign, instructions = teller.signOff ++ (middle ++ sign) ∧ Unsigned middle ∧ SignUp up sign

section

variable {teller : Teller} {up : Bool} {instructions : List Instruction}

theorem SignUp.unhidden {sign : List Instruction} (signUp : SignUp up sign) : .hideTypingIndicator ∉ sign := by
  cases signUp <;> simp

theorem Unsigned.not_mem {instruction : Instruction} (unsigned : Unsigned instructions)
    (isSign : instruction.isTyping = true) : instruction ∉ instructions := by
  intro member
  rw [unsigned instruction member] at isSign
  exact Bool.noConfusion isSign

theorem Unsigned.unshown (unsigned : Unsigned instructions) (teller : Teller) (fromPlayer : Bool) :
    .showTypingIndicator fromPlayer ∉ teller.signOff ++ instructions := by
  have unsigned : .showTypingIndicator fromPlayer ∉ instructions := unsigned.not_mem rfl
  simp [Teller.signOff, unsigned]

theorem Signed.signAfter_eq (signed : Signed teller up instructions) :
    signAfter teller.typing instructions = some up := by
  obtain ⟨middle, sign, rfl, unsigned, signUp⟩ := signed
  have hidden : signAfter teller.typing teller.signOff = some false := by
    cases typing : teller.typing <;> simp [Teller.signOff, typing, signAfter]
  rw [signAfter_append, hidden, Option.bind_some, signAfter_append, signAfter_unsigned unsigned]
  cases signUp <;> rfl

theorem Signed.show_last (signed : Signed teller up instructions) (fromPlayer : Bool) :
    .showTypingIndicator fromPlayer ∉ instructions.dropLast := by
  obtain ⟨middle, sign, rfl, unsigned, signUp⟩ := signed
  have before := unsigned.unshown teller fromPlayer
  rw [← List.append_assoc]
  cases signUp with
  | down =>
      rw [List.append_nil]
      exact fun member => before ((List.dropLast_sublist _).subset member)
  | up => rwa [List.dropLast_concat]

theorem Signed.hide_first (signed : Signed teller up instructions) :
    .hideTypingIndicator ∉ instructions.tail ∧
      (instructions.head? = some .hideTypingIndicator ↔ teller.typing = true) := by
  obtain ⟨middle, sign, rfl, unsigned, signUp⟩ := signed
  have unhidden : .hideTypingIndicator ∉ middle ++ sign :=
    List.not_mem_append (unsigned.not_mem rfl) signUp.unhidden
  cases typing : teller.typing with
  | true => simpa [Teller.signOff, typing] using unhidden
  | false =>
      simp only [Teller.signOff, typing, Bool.false_eq_true, if_false, List.nil_append, iff_false]
      exact ⟨fun member => unhidden (List.mem_of_mem_tail member),
        fun first => unhidden (List.mem_of_mem_head? first)⟩

theorem Signed.shows_iff (signed : Signed teller up instructions) :
    (∃ fromPlayer, .showTypingIndicator fromPlayer ∈ instructions) ↔ up = true := by
  obtain ⟨middle, sign, rfl, unsigned, signUp⟩ := signed
  cases signUp with
  | down =>
      rw [List.append_nil]
      exact iff_of_false (fun ⟨fromPlayer, member⟩ => unsigned.unshown teller fromPlayer member) Bool.false_ne_true
  | up fromPlayer => exact iff_of_true ⟨fromPlayer, by simp⟩ rfl

theorem Signed.unsigned (signed : Signed teller false instructions) (down : teller.typing = false) :
    Unsigned instructions := by
  obtain ⟨middle, sign, rfl, unsigned, signUp⟩ := signed
  cases signUp
  simpa [Teller.signOff, down] using unsigned

end

theorem Prepares.signed {playback : Playback} {call : Call} {step : Step} (prepared : Prepares playback call step)
    (consistent : playback.Consistent) :
    ∃ front, step.instructions = playback.teller.signOff ++ front ∧ Unsigned front := by
  cases prepared with
  | start idle =>
      have untyping := consistent.untyping (by simp [idle]) (by simp [idle])
      refine ⟨playback.teller.title, by simp [Teller.signOff, untyping]; rfl, ?_⟩
      rw [Teller.title]
      cases playback.teller.storyName <;> simp [Unsigned, Instruction.isTyping]
  | advance waits => exact ⟨[], by rw [prompted_instructions, List.append_nil], by simp [Unsigned]⟩
  | timerElapsed waits fires => exact ⟨[], by rw [elapsed_instructions, List.append_nil], by simp [Unsigned]⟩
  | @choose index choice waits offered =>
      have untyping := consistent.untyping (by simp [waits]) (by simp [waits])
      refine ⟨_, by simp [Teller.signOff, untyping, chosen_instructions]; rfl, ?_⟩
      cases choice.toastText? <;> simp [Unsigned, Instruction.isTyping]

theorem signed_ask (clock : Nat → Instant) {playback : Playback} (consistent : playback.Consistent) {call : Call}
    (goes : playback.goesOn call = true) :
    let answer := playback.ask clock call
    Signed playback.teller answer.1.teller.typing (Exchange.mk playback call answer.1 answer.2).instructions := by
  obtain ⟨step, prepared, answered⟩ := ask_of_goesOn clock goes
  obtain ⟨front, began, unsigned⟩ := prepared.signed consistent
  obtain ⟨middle, sign, told, also, signUp⟩ :=
    (concludes_run clock playback.stack step.underWay).signed (prepared.quiet consistent)
  have whole : (run clock playback.stack step.underWay).2.instructions =
      playback.teller.signOff ++ ((front ++ middle) ++ sign) := by
    change _ = step.instructions ++ middle ++ sign at told
    rw [told, began, List.append_assoc, List.append_assoc, List.append_assoc]
  rw [answered]
  exact ⟨front ++ middle, sign, whole, unsigned.append also, signUp⟩

theorem typing_ask_of_not_goesOn (clock : Nat → Instant) {playback : Playback} {call : Call}
    (stays : playback.goesOn call = false) :
    (playback.ask clock call).1.teller.typing = playback.teller.typing := by
  obtain ⟨⟨autoplay, same⟩, _⟩ := ask_of_not_goesOn clock stays
  rw [same]
  rfl

theorem signAfter_ask (clock : Nat → Instant) {playback : Playback} (consistent : playback.Consistent) (call : Call) :
    let answer := playback.ask clock call
    signAfter playback.teller.typing (Exchange.mk playback call answer.1 answer.2).instructions =
      some answer.1.teller.typing := by
  cases goes : playback.goesOn call with
  | true => exact (signed_ask clock consistent goes).signAfter_eq
  | false =>
      simp only [(ask_of_not_goesOn clock goes).2, typing_ask_of_not_goesOn clock goes, signAfter]

/-! ## Courses -/

theorem signAfter_transcript (clock : Nat → Instant) {playback : Playback} (consistent : playback.Consistent)
    (calls : List Call) :
    signAfter playback.teller.typing ((playback.transcript clock calls).flatMap Exchange.instructions) =
      some (playback.after clock calls).teller.typing := by
  induction calls generalizing playback with
  | nil => rfl
  | cons call later ih =>
      simp only [transcript, List.flatMap_cons, signAfter_append, signAfter_ask clock consistent call, Option.bind_some]
      exact ih (consistent_ask clock playback call consistent)

theorem typing_after_iff (clock : Nat → Instant) {playback : Playback} (consistent : playback.Consistent)
    (down : playback.teller.typing = false) (calls : List Call) :
    (playback.after clock calls).teller.typing = true ↔
      ∃ exchange fromPlayer, lastResumed? (playback.transcript clock calls) = some exchange ∧
        .showTypingIndicator fromPlayer ∈ exchange.instructions := by
  induction calls using List.reverseRecOn with
  | nil => simp [after, transcript, lastResumed?, down]
  | append_singleton earlier call ih =>
      simp only [transcript_append, after_append, transcript, after]
      cases goes : (playback.after clock earlier).goesOn call with
      | false =>
          rw [lastResumed?_of_not_goesOn _ goes, typing_ask_of_not_goesOn clock goes]
          exact ih
      | true =>
          rw [lastResumed?_of_goesOn _ goes, ← (signed_ask clock (consistent.after clock earlier) goes).shows_iff]
          simp

theorem Consistent.untyping_of_scene {playback : Playback} (consistent : playback.Consistent)
    (scene : playback.teller.options.mode = .scene) : playback.teller.typing = false := by
  rw [Bool.eq_false_iff]
  intro typing
  simp [(consistent.typing_rest typing).1] at scene

theorem unsigned_ask (clock : Nat → Instant) {playback : Playback} (consistent : playback.Consistent)
    (scene : playback.teller.options.mode = .scene) (call : Call) :
    let answer := playback.ask clock call
    answer.1.teller.options.mode = .scene ∧
      Unsigned (Exchange.mk playback call answer.1 answer.2).instructions := by
  intro answer
  have still : answer.1.teller.options.mode = .scene :=
    (congrArg Options.mode (options_ask clock playback call)).trans scene
  refine ⟨still, ?_⟩
  cases goes : playback.goesOn call with
  | false =>
      rw [(ask_of_not_goesOn clock goes).2]
      exact List.forall_mem_nil _
  | true =>
      have signed : Signed playback.teller answer.1.teller.typing _ := signed_ask clock consistent goes
      rw [(consistent_ask clock playback call consistent).untyping_of_scene still] at signed
      exact signed.unsigned (consistent.untyping_of_scene scene)

theorem unsigned_transcript (clock : Nat → Instant) {playback : Playback} (consistent : playback.Consistent)
    (scene : playback.teller.options.mode = .scene) (calls : List Call) :
    Unsigned ((playback.transcript clock calls).flatMap Exchange.instructions) := by
  induction calls generalizing playback with
  | nil => exact List.forall_mem_nil _
  | cons call later ih =>
      obtain ⟨still, unsigned⟩ := unsigned_ask clock consistent scene call
      exact unsigned.append (ih (consistent_ask clock playback call consistent) still)

/-- The signs that somebody is typing alternate, beginning with one that is put up, and the story never ends under
one. A sign is put up last in what one call tells. It is hidden first in what is told by the next call that makes
playback go on, whichever that is. A scene has none. -/
theorem typing_signs_balance (setup : Setup) (story : Story) (clock : Nat → Instant) (calls : List Call) :
    let unstarted := setup.playback story
    let played := unstarted.after clock calls
    let told := (unstarted.transcript clock calls).flatMap Exchange.instructions
    signAfter false told = some played.teller.typing ∧
      (∀ call,
        let answer := played.ask clock call
        let further := (Exchange.mk played call answer.1 answer.2).instructions
        (∀ fromPlayer, .showTypingIndicator fromPlayer ∉ further.dropLast) ∧
          .hideTypingIndicator ∉ further.tail ∧
          (played.goesOn call = true → (further.head? = some .hideTypingIndicator ↔
            ∃ exchange fromPlayer, lastResumed? (unstarted.transcript clock calls) = some exchange ∧
              .showTypingIndicator fromPlayer ∈ exchange.instructions))) ∧
      (setup.options.mode = .scene → ∀ instruction ∈ told, instruction.isTyping = false) := by
  intro unstarted played told
  have fresh : unstarted.Consistent := consistent_playback setup story
  refine ⟨signAfter_transcript clock fresh calls, ?_, fun scene => unsigned_transcript clock fresh scene calls⟩
  intro call answer further
  cases goes : played.goesOn call with
  | false =>
      have silent : further = [] := (ask_of_not_goesOn clock goes).2
      simp [silent]
  | true =>
      have signed : Signed played.teller answer.1.teller.typing further :=
        signed_ask clock (fresh.after clock calls) goes
      obtain ⟨only, first⟩ := signed.hide_first
      exact ⟨signed.show_last, only, fun _ => first.trans (typing_after_iff clock fresh rfl calls)⟩

theorem greeting_signs_balance :
    let play := chat.playback greeting
    let played := play.after default [.start]
    let answer := played.ask default (.event (.timerElapsed 1))
    let scene := (Setup.playback {} greeting).transcript default leftToThePlayer
    (played.goesOn (.event (.timerElapsed 1)) = true ∧
        (Exchange.mk played (.event (.timerElapsed 1)) answer.1 answer.2).instructions.head? =
          some .hideTypingIndicator) ∧
      ∀ instruction ∈ scene.flatMap Exchange.instructions, instruction.isTyping = false := by
  intro play played answer scene
  have goes : played.goesOn (.event (.timerElapsed 1)) = true := by decide +kernel
  obtain ⟨-, -, first⟩ := (typing_signs_balance chat greeting default [.start]).2.1 (.event (.timerElapsed 1))
  have began : lastResumed? (play.transcript default [.start]) = some _ := lastResumed?_of_goesOn [] rfl
  refine ⟨⟨goes, (first goes).mpr ⟨_, true, began, by decide +kernel⟩⟩, ?_⟩
  exact (typing_signs_balance {} greeting default leftToThePlayer).2.2 rfl

end Playback
end BranchingStory
