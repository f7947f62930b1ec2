import BranchingStory.Proofs.Playback.Announcement
import BranchingStory.Proofs.Playback.Modes
import BranchingStory.Proofs.Playback.Pace
import BranchingStory.Proofs.Playback.Refusal

/-!
What a host can rely on in an answer. However many entries and contexts a run goes through, it tells one line
at most and then rests, and the end of what it tells shows for what it waits.
-/

namespace BranchingStory
namespace Playback

/-! ## What a run utters -/

namespace Teller

def said (teller : Teller) (entry : Entry) : List Instruction := (entry.line?.map (teller.dialogue entry)).toList

theorem unstaged_scenery (teller : Teller) (entry : Entry) : unstaged (teller.scenery entry) = [] := by
  simp only [scenery]
  split <;> rfl

theorem unstaged_staging (teller : Teller) (entry : Entry) :
    unstaged (teller.staging entry) = teller.said entry := by
  have sprites (name : Option String) : unstaged (name.map (teller.sprite entry)).toList = [] := by
    cases name with
    | none => rfl
    | some name => cases position : entry.placement <;> simp [unstaged, sprite, position, Instruction.isStaging]
  have lines : unstaged (teller.said entry) = teller.said entry := by
    rw [said]
    cases entry.line? <;> rfl
  have sounds (key : Option String) : unstaged (key.map fun key => .playSfx key (teller.assets.sfx key)).toList = [] := by
    cases key <;> rfl
  have sights (key : Option String) : unstaged (key.map .playVfx).toList = [] := by
    cases key <;> rfl
  simp only [staging, unstaged_append, sprites, sounds, sights, List.append_nil, List.nil_append]
  exact lines

end Teller

namespace Step

variable {before middle after step : Step} {lines more : List Instruction}

/-- What a part of a run does to a step: but for the record, the teller stays, and these lines are told amid
staging. -/
structure Utters (before : Step) (lines : List Instruction) (after : Step) : Prop where
  teller : after.teller.withoutRecord = before.teller.withoutRecord
  told : ∃ added, after.instructions = before.instructions ++ added ∧ unstaged added = lines

theorem Utters.refl (step : Step) : step.Utters [] step := ⟨rfl, [], (List.append_nil _).symm, rfl⟩

theorem Utters.trans (first : before.Utters lines middle) (second : middle.Utters more after) :
    before.Utters (lines ++ more) after := by
  obtain ⟨same, earlier, told, rfl⟩ := first
  obtain ⟨also, later, further, rfl⟩ := second
  exact ⟨also.trans same, earlier ++ later, by rw [further, told, List.append_assoc], unstaged_append _ _⟩

theorem utters_reach (step : Step) (clock : Nat → Instant) (entry : Entry) : step.Utters [] (step.reach clock entry) := by
  refine ⟨step.reach_withoutRecord clock entry, (step.unlock clock entry).teller.scenery entry, ?_, ?_⟩
  · rw [reach, emit, unlock_instructions]
  · exact Teller.unstaged_scenery _ entry

theorem utters_judge {branch : Branch} {depth : Nat} {taken : Bool}
    (judgement : step.judge branch depth = (taken, after)) : step.Utters [] after := by
  obtain ⟨_, teller, instructions⟩ := judge_eq judgement
  exact ⟨congrArg _ teller, [], by rw [instructions, List.append_nil], rfl⟩

theorem utters_stage (step : Step) (entry : Entry) : step.Utters (step.teller.said entry) (step.stage entry) :=
  ⟨rfl, step.teller.staging entry, rfl, step.teller.unstaged_staging entry⟩

end Step

/-- How a run comes to an end, with what it has said on the way. -/
inductive Concludes (begun : Step) : Stack → Step → Prop
  | ended {last : Step} (uttered : begun.Utters [] last) : Concludes begun [] last.finish
  | lingered {last : Step} {context : Context} {below : Stack} (uttered : begun.Utters [] last) :
      Concludes begun (context :: below) (last.suspend .input)
  | offered {last : Step} {context : Context} {below : Stack} {entry : Entry} {first : Choice}
      {others : List Choice} (uttered : begun.Utters (last.teller.said entry) last) :
      Concludes begun (context :: below) (last.offer (first :: others))
  | rested {last : Step} {context : Context} {below : Stack} {entry : Entry} {line : String}
      (uttered : begun.Utters [last.teller.dialogue entry line] last) :
      Concludes begun (context :: below) (last.rest line (Stack.peek? (context :: below)))

theorem concludes_run (clock : Nat → Instant) (stack : Stack) (step : Step) :
    Concludes step (run clock stack step).1 (run clock stack step).2 := by
  refine run_of_turns (fun _ along => step.Utters [] along) (Concludes step) ?_ ?_ stack step (.refl step)
  · intro stack along next after uttered turned
    have turns := turnsTo_turn clock stack along
    rw [turned] at turns
    cases turns with
    | exhaust exhausted => exact ⟨uttered.teller, uttered.told⟩
    | enter found led taken => exact uttered.trans ((along.utters_reach clock _).trans (Step.utters_judge taken))
    | skip found led skipped => exact uttered.trans ((along.utters_reach clock _).trans (Step.utters_judge skipped))
    | @pass _ _ _ index entry found plain passes =>
        obtain ⟨_, silent⟩ := Step.pause?_eq_none passes
        have staged := (along.reach clock entry).utters_stage entry
        rw [Teller.said, silent] at staged
        exact uttered.trans ((along.utters_reach clock entry).trans staged)
  · intro stack along last paused uttered turned
    have turns := turnsTo_turn clock stack along
    rw [turned] at turns
    cases turns with
    | finish => exact .ended uttered
    | linger found led skipped root =>
        exact .lingered (uttered.trans ((along.utters_reach clock _).trans (Step.utters_judge skipped)))
    | @pause context below _ _ index entry found plain pauses =>
        have told := uttered.trans ((along.utters_reach clock entry).trans ((along.reach clock entry).utters_stage entry))
        rcases Step.pause?_eq_some pauses with ⟨first, others, _, rfl⟩ | ⟨_, line, shown, rfl⟩
        · exact .offered told
        · rw [Teller.said, shown] at told
          exact .rested told

/-! ## What a host looks for -/

def Instruction.isMark : Instruction → Bool
  | .showDialogue .. => true
  | .showChoices _ => true
  | .endStory => true
  | _ => false

def marks (instructions : List Instruction) : List Instruction := instructions.filter Instruction.isMark

theorem marks_append (first second : List Instruction) : marks (first ++ second) = marks first ++ marks second :=
  List.filter_append first second

theorem marks_showChoices (told : List Instruction) (views : List ChoiceView) :
    marks (told ++ [.showChoices views]) = marks told ++ [.showChoices views] := marks_append told _

theorem marks_unstaged (instructions : List Instruction) : marks (unstaged instructions) = marks instructions := by
  rw [marks, unstaged, List.filter_filter, marks]
  congr 1
  funext instruction
  cases instruction <;> rfl

theorem Step.Utters.marks_eq {before after : Step} {lines : List Instruction} (uttered : before.Utters lines after) :
    marks after.instructions = marks before.instructions ++ marks lines := by
  obtain ⟨_, added, told, rfl⟩ := uttered
  rw [told, marks_append, marks_unstaged]

theorem Prepares.unmarked {playback : Playback} {call : Call} {step : Step} (prepared : Prepares playback call step) :
    marks step.instructions = [] := by
  have signOff : marks playback.teller.signOff = [] := by
    rw [Teller.signOff]
    split <;> rfl
  cases prepared with
  | start idle =>
      have title : playback.opening.instructions = playback.teller.title := rfl
      rw [title, Teller.title]
      cases playback.teller.storyName <;> rfl
  | advance waits => rw [prompted_instructions, signOff]
  | timerElapsed waits fires => rw [elapsed_instructions, signOff]
  | @choose index choice waits offered =>
      rw [chosen_instructions]
      cases choice.toastText? <;> rfl

theorem linesOf_marks (instructions : List Instruction) : linesOf (marks instructions) = linesOf instructions := by
  rw [linesOf, marks, List.filterMap_filter, linesOf]
  congr 1
  funext instruction
  cases instruction <;> rfl

theorem choicesOf_marks (instructions : List Instruction) :
    (marks instructions).filterMap Instruction.choices? = instructions.filterMap Instruction.choices? := by
  rw [marks, List.filterMap_filter]
  congr 1
  funext instruction
  cases instruction <;> rfl

theorem Teller.endStory_not_mem_said (teller : Teller) (entry : Entry) : .endStory ∉ teller.said entry := by
  rw [said]
  cases entry.line? <;> simp [dialogue]

theorem marks_said (teller : Teller) (entry : Entry) : marks (teller.said entry) = teller.said entry := by
  rw [Teller.said]
  cases entry.line? <;> rfl

/-! ## The forms of an answer -/

inductive Outcome.Formed (pacing : Pacing) (pending : List Choice) : Outcome → Prop
  | ended {told : List Instruction} (silent : marks told = []) : Formed pacing pending ⟨told ++ closing, .ended⟩
  | lingered {told : List Instruction} (silent : marks told = []) : Formed pacing pending ⟨told, .input⟩
  | offered {told : List Instruction} {teller : Teller} {entry : Entry} (spoken : marks told = teller.said entry)
      (given : pending ≠ []) : Formed pacing pending ⟨told ++ [.showChoices (choiceViews pending)], .choice⟩
  | rested {told : List Instruction} {teller : Teller} {entry : Entry} {line : String} {wait : Wait}
      (spoken : marks told = [teller.dialogue entry line])
      (paced : wait = .input ∨ ∃ token, wait = .timer token (pacing.delay line)) : Formed pacing pending ⟨told, wait⟩

theorem Step.marks_showTyping (step : Step) (next : Option Peek) :
    marks (step.showTyping next).instructions = marks step.instructions := by
  simp only [showTyping]
  split
  · exact (marks_append _ _).trans (List.append_nil _)
  · rfl

theorem Step.rest_wait (step : Step) (line : String) (next : Option Peek) :
    (step.rest line next).teller.wait = .input ∨
      ∃ token, (step.rest line next).teller.wait = .timer token (step.teller.options.pacing.delay line) := by
  simp only [rest]
  split
  · exact .inr ⟨(step.showTyping next).teller.timer.arm.1, by simp [Step.showTyping_teller]⟩
  · exact .inl rfl

theorem Concludes.formed {begun : Step} (quiet : begun.teller.Quiet) (unmarked : marks begun.instructions = [])
    {stack : Stack} {step : Step} (concludes : Concludes begun stack step) :
    Outcome.Formed begun.teller.options.pacing step.teller.pending ⟨step.instructions, step.teller.wait⟩ := by
  cases concludes with
  | @ended last uttered =>
      have silent : marks last.instructions = [] := by rw [uttered.marks_eq, unmarked]; rfl
      have untyping : last.teller.typing = false := (quiet.of_withoutRecord uttered.teller).untyping
      have told : last.finish.instructions = last.instructions ++ closing := by
        rw [Step.finish_instructions, Teller.signOff, untyping]
        simp
      rw [told, Step.finish_teller]
      exact .ended silent
  | @lingered last context below uttered =>
      exact .lingered (by rw [Step.suspend, uttered.marks_eq, unmarked]; rfl)
  | @offered last context below entry first others uttered =>
      have spoken : marks last.instructions = last.teller.said entry := by
        rw [uttered.marks_eq, unmarked, marks_said, List.nil_append]
      exact .offered spoken (List.cons_ne_nil first others)
  | @rested last context below entry line uttered =>
      have pacing : last.teller.options.pacing = begun.teller.options.pacing :=
        congrArg (·.options.pacing) uttered.teller
      have paced := last.rest_wait line (Stack.peek? (context :: below))
      rw [pacing] at paced
      have spoken : marks (last.rest line (Stack.peek? (context :: below))).instructions =
          [last.teller.dialogue entry line] := by
        rw [Step.rest_instructions, Step.marks_showTyping, uttered.marks_eq, unmarked]
        rfl
      exact .rested spoken paced

/-! ## Answers -/

/-- What a host can rely on in an answer. -/
structure Outcome.Reliable (pacing : Pacing) (pending : List Choice) (outcome : Outcome) : Prop where
  one_line : (linesOf outcome.instructions).length ≤ 1
  one_offer : (outcome.instructions.filterMap Instruction.choices?).length ≤ 1
  choice_iff : outcome.wait = .choice ↔ ∃ views, outcome.instructions.getLast? = some (.showChoices views)
  offered : ∀ views, outcome.instructions.getLast? = some (.showChoices views) → views ≠ [] ∧
    ∀ index, views[index]? = pending[index]?.map fun choice => ChoiceView.mk index choice.text
  ended_iff : outcome.wait = .ended ↔ [.setTitle "Tokimeki", .endStory] <:+ outcome.instructions
  paced : ∀ token delay, outcome.wait = .timer token delay →
    ∃ line speaker, linesOf outcome.instructions = [(line, speaker)] ∧ delay = pacing.delay line

theorem getElem?_choiceViews (choices : List Choice) (index : Nat) :
    (choiceViews choices)[index]? = choices[index]?.map fun choice => ChoiceView.mk index choice.text := by
  simp [choiceViews, Function.comp_def]

theorem unasked_of_marks {instructions : List Instruction} (unmarked : ∀ views, .showChoices views ∉ marks instructions) :
    ¬∃ views, instructions.getLast? = some (.showChoices views) := by
  rintro ⟨views, last⟩
  exact unmarked views (List.mem_filter.mpr ⟨List.mem_of_getLast? last, rfl⟩)

theorem unclosed_of_marks {instructions : List Instruction} (unmarked : .endStory ∉ marks instructions) :
    .endStory ∉ instructions :=
  fun member => unmarked (List.mem_filter.mpr ⟨member, rfl⟩)

theorem not_suffix_of_unclosed {instructions : List Instruction} (unclosed : .endStory ∉ instructions)
    (title : String) : ¬[.setTitle title, .endStory] <:+ instructions :=
  fun closed => unclosed (closed.subset (by simp))

theorem Outcome.Formed.reliable {pacing : Pacing} {pending : List Choice} {outcome : Outcome}
    (formed : Outcome.Formed pacing pending outcome) : outcome.Reliable pacing pending := by
  cases formed with
  | @ended told silent =>
      have only : marks (told ++ closing) = [.endStory] := by rw [marks_append, silent]; rfl
      have unasked : ¬∃ views, (told ++ closing).getLast? = some (.showChoices views) := unasked_of_marks (by simp [only])
      constructor
      · rw [← linesOf_marks, only]
        exact Nat.zero_le 1
      · rw [← choicesOf_marks, only]
        exact Nat.zero_le 1
      · exact iff_of_false (by simp) unasked
      · exact fun views last => absurd ⟨views, last⟩ unasked
      · exact iff_of_true rfl (List.suffix_append told closing)
      · simp
  | @lingered told silent =>
      have unasked : ¬∃ views, told.getLast? = some (.showChoices views) := unasked_of_marks (by simp [silent])
      have unclosed : .endStory ∉ told := unclosed_of_marks (by simp [silent])
      constructor
      · rw [← linesOf_marks, silent]
        exact Nat.zero_le 1
      · rw [← choicesOf_marks, silent]
        exact Nat.zero_le 1
      · exact iff_of_false (by simp) unasked
      · exact fun views last => absurd ⟨views, last⟩ unasked
      · exact iff_of_false (by simp) (not_suffix_of_unclosed unclosed _)
      · simp
  | @offered told teller entry spoken given =>
      have shown : (told ++ [Instruction.showChoices (choiceViews pending)]).getLast? =
          some (.showChoices (choiceViews pending)) := List.getLast?_concat
      have only : marks (told ++ [.showChoices (choiceViews pending)]) =
          teller.said entry ++ [.showChoices (choiceViews pending)] := by rw [marks_showChoices, spoken]
      have unclosed : .endStory ∉ told ++ [.showChoices (choiceViews pending)] :=
        unclosed_of_marks (by simp [only, Teller.endStory_not_mem_said])
      constructor
      · rw [← linesOf_marks, only, Teller.said]
        cases entry.line? with
        | none => exact Nat.zero_le 1
        | some line => exact Nat.le_refl 1
      · rw [← choicesOf_marks, only, Teller.said]
        cases entry.line? <;> exact Nat.le_refl 1
      · exact iff_of_true rfl ⟨_, shown⟩
      · intro views last
        obtain rfl := Instruction.showChoices.inj (Option.some.inj (shown.symm.trans last))
        exact ⟨by simpa [choiceViews] using given, getElem?_choiceViews pending⟩
      · exact iff_of_false (by simp) (not_suffix_of_unclosed unclosed _)
      · simp
  | @rested told teller entry line wait spoken paced =>
      have unasked : ¬∃ views, told.getLast? = some (.showChoices views) :=
        unasked_of_marks (by simp [spoken, Teller.dialogue])
      have unclosed : .endStory ∉ told := unclosed_of_marks (by simp [spoken, Teller.dialogue])
      have lines : linesOf told = [(line, entry.speaker?)] := by rw [← linesOf_marks, spoken]; rfl
      have elsewhere : wait ≠ .choice ∧ wait ≠ .ended := by rcases paced with rfl | ⟨token, rfl⟩ <;> simp
      constructor
      · simp [lines]
      · rw [← choicesOf_marks, spoken]
        exact Nat.zero_le 1
      · exact iff_of_false elsewhere.1 unasked
      · exact fun views last => absurd ⟨views, last⟩ unasked
      · exact iff_of_false elsewhere.2 (not_suffix_of_unclosed unclosed _)
      · rintro token delay rfl
        rcases paced with other | ⟨_, same⟩
        · simp at other
        · exact ⟨line, entry.speaker?, lines, (Wait.timer.inj same).2⟩

/-! ## Courses -/

theorem Prepares.options_eq {playback : Playback} {call : Call} {step : Step}
    (prepared : Prepares playback call step) : step.underWay.teller.options = playback.teller.options := by
  change step.teller.options = playback.teller.options
  cases prepared with
  | start idle => rfl
  | advance waits => rw [prompted_teller]
  | timerElapsed waits fires => rw [elapsed_teller fires]
  | choose waits offered => rw [chosen_teller]

theorem Concludes.options_eq {begun : Step} {stack : Stack} {step : Step} (concludes : Concludes begun stack step) :
    step.teller.options = begun.teller.options := by
  cases concludes with
  | ended uttered =>
      rw [Step.finish_teller]
      exact congrArg (·.options) uttered.teller
  | lingered uttered | offered uttered => exact congrArg (·.options) uttered.teller
  | rested uttered =>
      rw [(Step.rest_options _ _ _).1]
      exact congrArg (·.options) uttered.teller

theorem options_ask (clock : Nat → Instant) (playback : Playback) (call : Call) :
    (playback.ask clock call).1.teller.options = playback.teller.options := by
  have answers := answers_ask clock playback call
  generalize playback.ask clock call = answer at answers ⊢
  cases answers with
  | @resume _ step prepared => exact (concludes_run clock playback.stack step.underWay).options_eq.trans prepared.options_eq
  | reject | ignore | setAutoplay | peek => rfl

theorem options_after (clock : Nat → Instant) (playback : Playback) (calls : List Call) :
    (playback.after clock calls).teller.options = playback.teller.options :=
  after_of_ask (fun later => later.teller.options = playback.teller.options)
    (fun later call same => (options_ask clock later call).trans same) rfl calls

theorem silent_of_ended (clock : Nat → Instant) {playback : Playback} (consistent : playback.Consistent)
    (ended : playback.stack = []) (calls : List Call) :
    (playback.transcript clock calls).flatMap Exchange.instructions = [] := by
  rw [List.flatMap_eq_nil_iff]
  intro exchange member
  obtain ⟨⟨still, emptied⟩, asked⟩ := transcript_of_ask (fun later => later.Consistent ∧ later.stack = [])
    (fun later call ⟨still, emptied⟩ => ⟨consistent_ask clock later call still,
      (stack_ask_of_not_goesOn clock (still.goesOn_eq_false emptied call)).trans emptied⟩)
    ⟨consistent, ended⟩ member
  obtain ⟨_, silent⟩ := ask_of_not_goesOn clock (still.goesOn_eq_false emptied exchange.call)
  rwa [← asked] at silent

theorem formed_ask (clock : Nat → Instant) {playback : Playback} (consistent : playback.Consistent) {call : Call}
    (goes : playback.goesOn call = true) :
    let answer := playback.ask clock call
    ∃ outcome deeds, answer.2 = some ⟨.ok outcome, deeds⟩ ∧ answer.1.teller.status = outcome.wait.status ∧
      Outcome.Formed playback.teller.options.pacing answer.1.teller.pending outcome := by
  intro answer
  obtain ⟨step, prepared, answered⟩ := ask_of_goesOn clock goes
  have formed := (concludes_run clock playback.stack step.underWay).formed (prepared.quiet consistent) prepared.unmarked
  rw [prepared.options_eq] at formed
  simp only [answer, answered]
  exact ⟨_, _, rfl, (rests_run clock playback.stack step.underWay).status_eq, formed⟩

/-! ## The end of a course -/

def EndsLast (told : List Instruction) : Prop := told.Pairwise fun earlier _ => earlier ≠ .endStory

theorem EndsLast.count_le {told : List Instruction} (last : EndsLast told) : told.count .endStory ≤ 1 := by
  induction told with
  | nil => exact Nat.zero_le 1
  | cons first later ih =>
      obtain ⟨before, rest⟩ := List.pairwise_cons.mp last
      by_cases closes : first = .endStory
      · have nothing : later = [] := List.eq_nil_iff_forall_not_mem.mpr fun other member => before other member closes
        simp [nothing, closes]
      · rw [List.count_cons_of_ne closes]
        exact ih rest

theorem endsLast_of_unclosed {told : List Instruction} (unclosed : .endStory ∉ told) : EndsLast told :=
  List.pairwise_of_forall_mem_list fun _ member _ _ closes => unclosed (closes ▸ member)

theorem Outcome.Formed.wait_of_endStory {pacing : Pacing} {pending : List Choice} {outcome : Outcome}
    (formed : Outcome.Formed pacing pending outcome) (closes : .endStory ∈ outcome.instructions) :
    outcome.wait = .ended := by
  refine Classical.byContradiction fun elsewhere => unclosed_of_marks ?_ closes
  cases formed with
  | ended silent => exact absurd rfl elsewhere
  | lingered silent => simp [silent]
  | offered spoken given => simp [marks_showChoices, spoken, Teller.endStory_not_mem_said]
  | rested spoken paced => simp [spoken, Teller.dialogue]

theorem Outcome.Formed.endsLast {pacing : Pacing} {pending : List Choice} {outcome : Outcome}
    (formed : Outcome.Formed pacing pending outcome) : EndsLast outcome.instructions := by
  by_cases closes : .endStory ∈ outcome.instructions
  · have waits := formed.wait_of_endStory closes
    cases formed with
    | @ended told silent =>
        have unclosed : .endStory ∉ told := unclosed_of_marks (by simp [silent])
        refine List.pairwise_append.mpr ⟨endsLast_of_unclosed unclosed, by decide, ?_⟩
        exact fun _ member _ _ closes => unclosed (closes ▸ member)
    | lingered silent => simp at waits
    | offered spoken given => simp at waits
    | rested spoken paced => rcases paced with rfl | ⟨token, rfl⟩ <;> simp at waits
  · exact endsLast_of_unclosed closes

theorem endsLast_transcript (clock : Nat → Instant) {playback : Playback} (consistent : playback.Consistent)
    (calls : List Call) : EndsLast ((playback.transcript clock calls).flatMap Exchange.instructions) := by
  induction calls generalizing playback with
  | nil => exact .nil
  | cons call later ih =>
      have next := consistent_ask clock playback call consistent
      cases goes : playback.goesOn call with
      | false =>
          obtain ⟨_, silent⟩ := ask_of_not_goesOn clock goes
          simp only [transcript, List.flatMap_cons, silent, List.nil_append]
          exact ih next
      | true =>
          obtain ⟨outcome, deeds, replied, status, formed⟩ := formed_ask clock consistent goes
          simp only [transcript, List.flatMap_cons, Exchange.instructions, replied]
          refine List.pairwise_append.mpr ⟨formed.endsLast, ih next, ?_⟩
          rintro instruction member other further rfl
          rw [formed.wait_of_endStory member] at status
          simp [silent_of_ended clock next (next.ended_iff.mp status) later] at further

/-- Whatever has been asked, the answer to a call that makes playback go on has at most one line and at most one
offer of choices, and the end of what it tells shows what playback waits for. In all that is told the story ends
once at most, and nothing comes after it. -/
theorem answers_are_reliable (setup : Setup) (story : Story) (clock : Nat → Instant) (calls : List Call) :
    let unstarted := setup.playback story
    let played := unstarted.after clock calls
    let told := (unstarted.transcript clock calls).flatMap Exchange.instructions
    (∀ call, played.goesOn call = true → ∃ outcome deeds,
        (played.ask clock call).2 = some ⟨.ok outcome, deeds⟩ ∧
          outcome.Reliable setup.options.pacing (played.ask clock call).1.teller.pending) ∧
      told.count .endStory ≤ 1 ∧ EndsLast told := by
  intro unstarted played told
  have fresh : unstarted.Consistent := consistent_playback setup story
  have last : EndsLast told := endsLast_transcript clock fresh calls
  refine ⟨?_, last.count_le, last⟩
  intro call goes
  obtain ⟨outcome, deeds, replied, -, formed⟩ := formed_ask clock (fresh.after clock calls) goes
  have options : played.teller.options = setup.options := options_after clock unstarted calls
  rw [← options]
  exact ⟨outcome, deeds, replied, formed.reliable⟩

theorem question_is_reliable :
    let story : Story :=
      [{ Entry.line (some "Bea") "Coming?" with responses := some [{ text := "Yes" }, { text := "No" }] }]
    let unstarted := Setup.playback {} story
    unstarted.goesOn .start = true ∧ ∃ outcome deeds,
      (unstarted.ask default .start).2 = some ⟨.ok outcome, deeds⟩ ∧
        outcome.Reliable .scene (unstarted.ask default .start).1.teller.pending := by
  intro story unstarted
  have goes : unstarted.goesOn .start = true := rfl
  exact ⟨goes, (answers_are_reliable {} story default []).1 .start goes⟩

end Playback
end BranchingStory
