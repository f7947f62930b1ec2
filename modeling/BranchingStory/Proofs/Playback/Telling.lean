import BranchingStory.Proofs.Playback.Termination
import BranchingStory.Proofs.Playback.Untold
import BranchingStory.Proofs.Playback.Walk

/-!
Playback tells a story as the walk tells it. Wherever playback stands, what it has told so far and what it
would tell from here on make up one walk; every turn and every call keeps that walk.
-/

namespace BranchingStory
namespace Playback

def Instruction.isTyping : Instruction → Bool
  | .showTypingIndicator _ => true
  | .hideTypingIndicator => true
  | _ => false

def spoken (instructions : List Instruction) : List Instruction :=
  instructions.filter fun instruction => !instruction.isTyping

@[simp] theorem spoken_append (first second : List Instruction) :
    spoken (first ++ second) = spoken first ++ spoken second := List.filter_append first second

/-! ## Steps as tales -/

def Teller.tale (teller : Teller) (picks : List Nat) (told : List Instruction) : Tale :=
  ⟨teller.scope, teller.ledger, teller.readings, picks, told⟩

theorem Teller.scenery_eq (teller : Teller) (entry : Entry) :
    teller.scenery entry = backdrop teller.options.mode teller.assets entry := by
  cases mode : teller.options.mode <;> cases key : entry.background? <;>
    simp [scenery, inScene, backdrop, mode, key]

theorem Teller.staging_eq (teller : Teller) (entry : Entry) :
    teller.staging entry = shown teller.options.mode teller.assets teller.scope entry := by
  have sprite : teller.sprite entry = fun name =>
      if entry.placement = .exit then .exitCharacter name
      else
        .showCharacter name (teller.assets.character name entry.outfit entry.state) entry.placement := by
    funext name
    cases position : entry.placement <;> simp [Teller.sprite, position]
  have dialogue : teller.dialogue entry = fun line =>
      .showDialogue line entry.speaker? entry.placement (entry.speaker?.bind teller.scope.speakerColor?)
        (if teller.inScene then none else entry.speaker?.map teller.assets.avatar) := rfl
  cases mode : teller.options.mode with
  | scene => simp [staging, shown, sceneShown, sprite, dialogue, inScene, mode]
  | texting => simp [staging, shown, messageShown, dialogue, inScene, mode]

theorem spoken_backdrop (mode : Mode) (assets : AssetBase) (entry : Entry) :
    spoken (backdrop mode assets entry) = backdrop mode assets entry := by
  cases mode <;> cases key : entry.background? <;> simp [backdrop, key, spoken, Instruction.isTyping]

theorem spoken_shown (mode : Mode) (assets : AssetBase) (scope : Variables) (entry : Entry) :
    spoken (shown mode assets scope entry) = shown mode assets scope entry := by
  apply List.filter_eq_self.mpr
  intro instruction member
  cases mode with
  | scene =>
      simp only [shown, sceneShown, List.mem_append, Option.mem_toList, Option.map_eq_some_iff] at member
      rcases member with ((⟨name, _, rfl⟩ | ⟨line, _, rfl⟩) | ⟨key, _, rfl⟩) | ⟨key, _, rfl⟩
      · split <;> rfl
      all_goals rfl
  | texting =>
      simp only [shown, messageShown, Option.mem_toList, Option.map_eq_some_iff] at member
      obtain ⟨line, _, rfl⟩ := member
      rfl

namespace Step

variable {step : Step}

def tale (step : Step) (picks : List Nat) (told : List Instruction) : Tale :=
  step.teller.tale picks (told ++ spoken step.instructions)

theorem tale_emit (instructions : List Instruction) (picks : List Nat) (told : List Instruction) :
    (step.emit instructions).tale picks told = (step.tale picks told).tell (spoken instructions) := by
  simp [tale, emit, Teller.tale, Tale.tell]

theorem unlock_instructions (clock : Nat → Instant) (entry : Entry) :
    (step.unlock clock entry).instructions = step.instructions := by
  simp only [unlock]
  split
  · rfl
  · split <;> rfl

theorem unlock_tale (clock : Nat → Instant) (entry : Entry) (picks : List Nat) (told : List Instruction) :
    (step.unlock clock entry).teller.tale picks told = (step.teller.tale picks told).unlock clock entry := by
  simp only [unlock, Tale.unlock]
  split
  · rfl
  · split <;> rfl

theorem unlock_scenery (clock : Nat → Instant) (entry : Entry) :
    (step.unlock clock entry).teller.scenery entry =
      backdrop step.teller.options.mode step.teller.assets entry := by
  have kept := step.unlock_withoutRecord clock entry
  have options : (step.unlock clock entry).teller.options = step.teller.options :=
    congrArg (·.options) kept
  have assets : (step.unlock clock entry).teller.assets = step.teller.assets := congrArg (·.assets) kept
  rw [Teller.scenery_eq, options, assets]

theorem tale_unlock (clock : Nat → Instant) (entry : Entry) (picks : List Nat) (told : List Instruction) :
    (step.unlock clock entry).tale picks told = (step.tale picks told).unlock clock entry := by
  rw [tale, unlock_instructions, unlock_tale]
  rfl

theorem tale_reach (clock : Nat → Instant) (entry : Entry) (picks : List Nat) (told : List Instruction) :
    (step.reach clock entry).tale picks told =
      ((step.tale picks told).unlock clock entry).tell
        (backdrop step.teller.options.mode step.teller.assets entry) := by
  rw [reach, tale_emit, tale_unlock, unlock_scenery, spoken_backdrop]

theorem tale_stage (entry : Entry) (picks : List Nat) (told : List Instruction) :
    (step.stage entry).tale picks told =
      (step.tale picks told).tell
        (shown step.teller.options.mode step.teller.assets step.teller.scope entry) := by
  simp only [stage, tale_emit, Teller.staging_eq, spoken_shown]

end Step

/-! ## What is still to be told -/

def closing : List Instruction := [.setTitle applicationTitle, .endStory]

def walkOn (mode : Mode) (assets : AssetBase) (clock : Nat → Instant) : Stack → Tale → Option Tale
  | [], tale => some (tale.tell closing)
  | context :: below, tale =>
      (walk mode assets clock context.untold tale).bind (walkOn mode assets clock below)

/-- The tale that playback leads to, if these picks are made from here on and this much was told before. -/
def prospect (playback : Playback) (clock : Nat → Instant) (picks : List Nat) (told : List Instruction) :
    Option Tale :=
  let teller := playback.teller
  let tale := teller.tale picks told
  match teller.status with
  | .ended => some tale
  | .awaitingChoice =>
      (tale.pick? teller.pending).bind (walkOn teller.options.mode teller.assets clock playback.stack)
  | _ => walkOn teller.options.mode teller.assets clock playback.stack tale

section

variable {mode : Mode} {assets : AssetBase} {clock : Nat → Instant}

theorem walkOn_of_branch {context : Context} {below : Stack} {index : Nat} {entry : Entry} {branch : Branch}
    (found : context.next? = some (index, entry)) (led : entry.branch = some branch) (tale : Tale) :
    let reached := (tale.unlock clock entry).tell (backdrop mode assets entry)
    walkOn mode assets clock (context :: below) tale =
      if (Condition.judge branch.condition reached.scope.bindings).1 then
        walkOn mode assets clock (.start branch.story :: context.mark index :: below) reached
      else walkOn mode assets clock (context.mark index :: below) reached := by
  intro reached
  simp only [walkOn, Context.untold_eq_cons found, walk_of_branch _ _ led, Context.untold_start]
  split
  · rw [Option.bind_assoc]
  · rfl

theorem walkOn_of_plain {context : Context} {below : Stack} {index : Nat} {entry : Entry}
    (found : context.next? = some (index, entry)) (plain : entry.branch = none) (tale : Tale) :
    let reached := (tale.unlock clock entry).tell (backdrop mode assets entry)
    let staged := reached.tell (shown mode assets reached.scope entry)
    walkOn mode assets clock (context :: below) tale =
      match entry.choices with
      | [] => walkOn mode assets clock (context.mark index :: below) staged
      | choices =>
          ((staged.tell [.showChoices (choiceViews choices)]).pick? choices).bind
            (walkOn mode assets clock (context.mark index :: below)) := by
  intro reached staged
  simp only [walkOn, Context.untold_eq_cons found, walk_of_plain _ _ plain]
  cases entry.choices with
  | nil => rfl
  | cons first others =>
      simp only
      rw [Option.bind_assoc]

end

/-! ## Turns and runs keep the walk -/

theorem Step.tale_hideTyping (step : Step) (picks : List Nat) (told : List Instruction) :
    step.hideTyping.tale picks told = step.tale picks told := by
  simp only [hideTyping]
  split
  · simp [tale, emit, Teller.tale, spoken, Instruction.isTyping]
  · rfl

theorem Step.tale_finish (step : Step) (picks : List Nat) (told : List Instruction) :
    step.finish.tale picks told = (step.tale picks told).tell closing := by
  have closed : spoken closing = closing := rfl
  let unarmed : Step :=
    { step with teller := { step.teller with timer := step.teller.timer.cancel.2 } }
  change (unarmed.hideTyping.emit closing).tale picks told = (unarmed.tale picks told).tell closing
  rw [tale_emit, tale_hideTyping, closed]

theorem Step.tale_rest (step : Step) (line : String) (next : Option Peek) (picks : List Nat)
    (told : List Instruction) : (step.rest line next).tale picks told = step.tale picks told := by
  have typing : (step.showTyping next).tale picks told = step.tale picks told := by
    simp only [showTyping]
    split
    · simp [tale, emit, Teller.tale, spoken, Instruction.isTyping]
    · rfl
  simp only [rest]
  split <;> exact typing

theorem Step.tale_offer (step : Step) (choices : List Choice) (picks : List Nat)
    (told : List Instruction) :
    (step.offer choices).tale picks told =
      (step.tale picks told).tell [.showChoices (choiceViews choices)] := by
  simp [offer, tale, emit, suspend, Teller.tale, Tale.tell, spoken, Instruction.isTyping]

theorem Step.rest_status (step : Step) (line : String) (next : Option Peek) :
    (step.rest line next).teller.status = .awaitingInput ∨
      (step.rest line next).teller.status = .awaitingTimer := by
  simp only [rest]
  split
  · exact .inr rfl
  · exact .inl rfl

theorem Step.rest_options (step : Step) (line : String) (next : Option Peek) :
    (step.rest line next).teller.options = step.teller.options ∧
      (step.rest line next).teller.assets = step.teller.assets := by
  simp only [rest]
  split <;> simp [Step.showTyping_teller]

theorem Step.reach_options (step : Step) (clock : Nat → Instant) (entry : Entry) :
    (step.reach clock entry).teller.options = step.teller.options ∧
      (step.reach clock entry).teller.assets = step.teller.assets :=
  ⟨congrArg (·.options) (step.reach_withoutRecord clock entry),
    congrArg (·.assets) (step.reach_withoutRecord clock entry)⟩

namespace Step

variable {clock : Nat → Instant} {step : Step} {picks : List Nat} {told : List Instruction}

def prospect (step : Step) (clock : Nat → Instant) (stack : Stack) (picks : List Nat)
    (told : List Instruction) : Option Tale :=
  walkOn step.teller.options.mode step.teller.assets clock stack (step.tale picks told)

theorem prospect_congr {first second : Step} (teller : first.teller = second.teller)
    (instructions : first.instructions = second.instructions) (stack : Stack) :
    first.prospect clock stack picks told = second.prospect clock stack picks told := by
  simp only [prospect, tale, teller, instructions]

theorem prospect_of_branch {context : Context} {below : Stack} {index : Nat} {entry : Entry}
    {branch : Branch} (found : context.next? = some (index, entry)) (led : entry.branch = some branch) :
    let reached := step.reach clock entry
    step.prospect clock (context :: below) picks told =
      if (Condition.judge branch.condition reached.teller.scope.bindings).1 then
        reached.prospect clock (.start branch.story :: context.mark index :: below) picks told
      else reached.prospect clock (context.mark index :: below) picks told := by
  obtain ⟨options, assets⟩ := step.reach_options clock entry
  simp only [prospect, walkOn_of_branch found led, ← tale_reach, options, assets]
  rfl

theorem prospect_of_plain {context : Context} {below : Stack} {index : Nat} {entry : Entry}
    (found : context.next? = some (index, entry)) (plain : entry.branch = none) :
    let staged := (step.reach clock entry).stage entry
    step.prospect clock (context :: below) picks told =
      match entry.choices with
      | [] => staged.prospect clock (context.mark index :: below) picks told
      | choices =>
          (((staged.offer choices).tale picks told).pick? choices).bind
            (walkOn staged.teller.options.mode staged.teller.assets clock
              (context.mark index :: below)) := by
  obtain ⟨options, assets⟩ := step.reach_options clock entry
  simp only [prospect, walkOn_of_plain found plain, ← tale_reach, tale_stage, stage_teller, options, assets]
  cases entry.choices with
  | nil => rfl
  | cons first others =>
      have offered := ((step.reach clock entry).stage entry).tale_offer (first :: others) picks told
      simp only [offered, tale_stage, options, assets]
      rfl

end Step

theorem prospect_of_onward {clock : Nat → Instant} {stack next : Stack} {step after : Step}
    (turned : turn clock stack step = .onward next after) (picks : List Nat) (told : List Instruction) :
    after.prospect clock next picks told = step.prospect clock stack picks told := by
  have turns := turnsTo_turn clock stack step
  rw [turned] at turns
  cases turns with
  | @exhaust context below _ exhausted =>
      simp only [Step.prospect, walkOn, Context.untold_eq_nil exhausted, walk]
      rfl
  | @enter context below _ _ index entry branch found led taken =>
      obtain ⟨holds, teller, instructions⟩ := Step.judge_eq taken
      rw [Step.prospect_of_branch found led, if_pos holds.symm]
      exact Step.prospect_congr teller instructions _
  | @skip context below _ _ index entry branch found led skipped =>
      obtain ⟨fails, teller, instructions⟩ := Step.judge_eq skipped
      rw [Step.prospect_of_branch found led, if_neg (by simp [← fails])]
      exact Step.prospect_congr teller instructions _
  | @pass context below _ index entry found plain passes =>
      obtain ⟨choices, _⟩ := Step.pause?_eq_none passes
      rw [Step.prospect_of_plain found plain, choices]

theorem prospect_of_rest {clock : Nat → Instant} {stack last : Stack} {step paused : Step}
    (turned : turn clock stack step = .rest last paused) (picks : List Nat) (told : List Instruction) :
    Playback.prospect ⟨last, paused.teller⟩ clock picks (told ++ spoken paused.instructions) =
      step.prospect clock stack picks told := by
  have turns := turnsTo_turn clock stack step
  rw [turned] at turns
  cases turns with
  | finish => exact congrArg some (step.tale_finish picks told)
  | @linger context below _ judged index entry branch found led skipped root =>
      obtain ⟨fails, teller, instructions⟩ := Step.judge_eq skipped
      rw [Step.prospect_of_branch found led, if_neg (by simp [← fails])]
      exact Step.prospect_congr teller instructions _
  | @pause context below _ _ index entry found plain pauses =>
      rw [Step.prospect_of_plain found plain]
      rcases Step.pause?_eq_some pauses with ⟨first, others, choices, rfl⟩ | ⟨choices, line, _, rfl⟩
      · rw [choices]
        rfl
      · rw [choices]
        let staged := (step.reach clock entry).stage entry
        let next := Stack.peek? (context.mark index :: below)
        obtain ⟨options, assets⟩ := staged.rest_options line next
        have tale := staged.tale_rest line next picks told
        change _ = staged.prospect clock (context.mark index :: below) picks told
        rw [Step.prospect, ← options, ← assets, ← tale]
        rcases staged.rest_status line next with status | status
        · simp only [Playback.prospect, staged, next] at status ⊢
          rw [status]
          rfl
        · simp only [Playback.prospect, staged, next] at status ⊢
          rw [status]
          rfl

theorem prospect_run (clock : Nat → Instant) (stack : Stack) (step : Step) (picks : List Nat)
    (told : List Instruction) :
    Playback.prospect ⟨(run clock stack step).1, (run clock stack step).2.teller⟩ clock picks
        (told ++ spoken (run clock stack step).2.instructions) =
      step.prospect clock stack picks told := by
  refine run_of_turns
    (fun along before => before.prospect clock along picks told = step.prospect clock stack picks told)
    (fun last paused =>
      Playback.prospect ⟨last, paused.teller⟩ clock picks (told ++ spoken paused.instructions) =
        step.prospect clock stack picks told) ?_ ?_ stack step rfl
  · intro along before next after kept turned
    exact (prospect_of_onward turned picks told).trans kept
  · intro along before last paused kept turned
    exact (prospect_of_rest turned picks told).trans kept

/-! ## Calls keep the walk -/

theorem prospect_of_waits {playback : Playback} (waits : playback.teller.status = .running ∨
      playback.teller.status = .awaitingInput ∨ playback.teller.status = .awaitingTimer)
    (clock : Nat → Instant) (picks : List Nat) (told : List Instruction) :
    playback.prospect clock picks told =
      walkOn playback.teller.options.mode playback.teller.assets clock playback.stack
        (playback.teller.tale picks told) := by
  rcases waits with status | status | status <;> simp only [Playback.prospect, status]

theorem prompted_tale (playback : Playback) (picks : List Nat) (told : List Instruction) :
    playback.prompted.tale picks told = playback.teller.tale picks told := by
  simp only [prompted, Step.tale_hideTyping]
  split <;> simp [Step.tale, Teller.tale, Step.trace, Step.leave, spoken]

theorem elapsed_tale (playback : Playback) (timer : Timer) (picks : List Nat) (told : List Instruction) :
    (playback.elapsed timer).tale picks told = playback.teller.tale picks told := by
  simp only [elapsed, Step.tale_hideTyping]
  simp [Step.tale, Teller.tale, spoken]

theorem chosen_instructions (playback : Playback) (index : Nat) (choice : Choice) :
    (playback.chosen index choice).instructions =
      .choiceSelected index choice.text :: (choice.toastText?.map .showToast).toList := by
  simp only [chosen, Step.applyEffects]
  cases choice.effects with
  | none => rfl
  | some effects => cases empty : effects.isEmpty <;> simp [Step.emit, Step.trace, Step.leave, empty]

theorem chosen_tale (playback : Playback) (index : Nat) (choice : Choice) (picks : List Nat)
    (told : List Instruction) :
    (playback.chosen index choice).tale picks told =
      (playback.teller.tale picks told).make index choice := by
  have heard : spoken (playback.chosen index choice).instructions =
      (playback.chosen index choice).instructions := by
    rw [chosen_instructions]
    cases choice.toastText? <;> rfl
  rw [Step.tale, heard, chosen_instructions, chosen_teller]
  rfl

theorem Prepares.prospect {playback : Playback} {call : Call} {step : Step}
    (prepared : Prepares playback call step) (started : playback.teller.status ≠ .idle)
    (clock : Nat → Instant) (picks : List Nat) (told : List Instruction) :
    step.prospect clock playback.stack picks told =
      playback.prospect clock (call.pick?.toList ++ picks) told := by
  cases prepared with
  | start idle => exact absurd idle started
  | advance waits =>
      rw [Step.prospect, prompted_tale, prompted_teller]
      exact (prospect_of_waits waits clock picks told).symm
  | timerElapsed waits fires =>
      rw [Step.prospect, elapsed_tale, elapsed_teller fires]
      exact (prospect_of_waits (.inr (.inr waits)) clock picks told).symm
  | choose waits offered =>
      rw [Step.prospect, chosen_tale, chosen_teller]
      simp only [Playback.prospect, waits, Call.pick?, Option.toList_some, List.singleton_append,
        Tale.pick?, Teller.tale, offered, Option.map_some, Option.bind_some]

theorem prospect_ask (clock : Nat → Instant) (playback : Playback) (call : Call)
    (started : playback.teller.status ≠ .idle) (picks : List Nat) (told : List Instruction) :
    let answer := playback.ask clock call
    let exchange : Exchange := ⟨playback, call, answer.1, answer.2⟩
    answer.1.prospect clock picks (told ++ spoken exchange.instructions) =
      playback.prospect clock (exchange.pick?.toList ++ picks) told := by
  have answers := answers_ask clock playback call
  generalize playback.ask clock call = answer at answers ⊢
  cases answers with
  | @resume _ step prepared =>
      have run := prospect_run clock playback.stack step.underWay picks told
      exact run.trans (prepared.prospect started clock picks told)
  | ignore stays _ unpicked => simp [Exchange.instructions, Exchange.pick?, unpicked, spoken]
  | reject stays => simp [Exchange.instructions, Exchange.pick?, spoken]
  | setAutoplay => simp [Exchange.instructions, Exchange.pick?, spoken, Playback.setAutoplay,
      Playback.prospect, Teller.tale]
  | peek => simp [Exchange.instructions, Exchange.pick?, spoken]

theorem prospect_after (clock : Nat → Instant) {playback : Playback}
    (started : playback.teller.status ≠ .idle) (calls : List Call) (picks : List Nat)
    (told : List Instruction) :
    let transcript := playback.transcript clock calls
    (playback.after clock calls).prospect clock picks
        (told ++ spoken (transcript.flatMap Exchange.instructions)) =
      playback.prospect clock (transcript.filterMap Exchange.pick? ++ picks) told := by
  induction calls generalizing playback told with
  | nil => simp [after, transcript, spoken]
  | cons call later ih =>
      have next := started_ask clock playback call started
      have first := prospect_ask clock playback call started
      simp only [after, transcript, List.flatMap_cons, spoken_append, ← List.append_assoc, ih next, first]
      rw [List.append_assoc]
      congr 1
      simp only [List.filterMap_cons]
      split <;> rename_i made <;> simp [made]

/-! ## Whole courses -/

def Setup.title (setup : Setup) : List Instruction :=
  (setup.storyName.map fun name => .setTitle (name ++ " - " ++ applicationTitle)).toList

def Setup.tale (setup : Setup) (picks : List Nat) : Tale := ⟨setup.scope, setup.ledger, 0, picks, []⟩

theorem walkOn_precede {mode : Mode} {assets : AssetBase} {clock : Nat → Instant} (stack : Stack)
    (tale : Tale) (earlier : List Instruction) :
    walkOn mode assets clock stack (tale.precede earlier) =
      (walkOn mode assets clock stack tale).map (·.precede earlier) := by
  induction stack generalizing tale with
  | nil => simp [walkOn, Tale.precede_tell]
  | cons context below ih =>
      simp only [walkOn, walk_precede, Option.bind_map, Option.map_bind, Function.comp_def, ih]

theorem prospect_precede (playback : Playback) (clock : Nat → Instant) (picks : List Nat)
    (earlier : List Instruction) :
    playback.prospect clock picks earlier =
      (playback.prospect clock picks []).map (·.precede earlier) := by
  have tale : playback.teller.tale picks earlier = (playback.teller.tale picks []).precede earlier := by
    simp [Teller.tale, Tale.precede]
  simp only [Playback.prospect, tale]
  split
  · rfl
  · simp only [Tale.precede_pick?, Option.bind_map, Option.map_bind, Function.comp_def, walkOn_precede]
  · exact walkOn_precede _ _ _

theorem prospect_start (setup : Setup) (story : Story) (clock : Nat → Instant) (picks : List Nat) :
    let unstarted := setup.playback story
    let answer := unstarted.ask clock .start
    let exchange : Exchange := ⟨unstarted, .start, answer.1, answer.2⟩
    answer.1.prospect clock picks (spoken exchange.instructions) =
      (walk setup.options.mode setup.assets clock story (setup.tale picks)).map
        fun tale => (tale.precede setup.title).tell closing := by
  intro unstarted answer exchange
  have heard : spoken setup.title = setup.title := by
    simp only [Setup.title]
    cases setup.storyName <;> rfl
  have tale : unstarted.opening.underWay.tale picks [] = (setup.tale picks).precede setup.title := by
    have instructions : unstarted.opening.underWay.instructions = setup.title := rfl
    rw [Step.tale, instructions, heard, List.nil_append]
    simp only [Tale.precede, Setup.tale, List.append_nil]
    rfl
  have run := prospect_run clock unstarted.stack unstarted.opening.underWay picks []
  rw [List.nil_append, Step.prospect, tale] at run
  refine Eq.trans run ?_
  change ((walk setup.options.mode setup.assets clock (Context.start story).untold
    ((setup.tale picks).precede setup.title)).bind fun tale => some (tale.tell closing)) = _
  rw [Context.untold_start, walk_precede, Option.bind_map]
  cases walk setup.options.mode setup.assets clock story (setup.tale picks) <;> rfl

theorem started_start (setup : Setup) (story : Story) (clock : Nat → Instant) :
    ((setup.playback story).ask clock .start).1.teller.status ≠ .idle := by
  have rests := rests_run clock (setup.playback story).stack (setup.playback story).opening.underWay
  intro idle
  exact Wait.status_ne_idle _ (rests.status_eq.symm.trans idle)

theorem prospect_course (setup : Setup) (story : Story) (clock : Nat → Instant) (calls : List Call)
    (more : List Nat) :
    ((setup.playback story).after clock (.start :: calls)).prospect clock more
        (spoken (((setup.playback story).transcript clock (.start :: calls)).flatMap
          Exchange.instructions)) =
      (walk setup.options.mode setup.assets clock story
        (setup.tale (((setup.playback story).transcript clock (.start :: calls)).filterMap
          Exchange.pick? ++ more))).map
        fun tale => (tale.precede setup.title).tell closing := by
  have first := prospect_start setup story clock
  have rest := prospect_after clock (started_start setup story clock) calls more
  simp only [transcript, List.flatMap_cons, spoken_append, after, rest, first]
  rfl

theorem walk_of_ended (setup : Setup) (story : Story) (clock : Nat → Instant) (calls : List Call)
    (ended : ((setup.playback story).after clock (.start :: calls)).teller.status = .ended) :
    let transcript := (setup.playback story).transcript clock (.start :: calls)
    let played := (setup.playback story).after clock (.start :: calls)
    ∃ tale, walk setup.options.mode setup.assets clock story
        (setup.tale (transcript.filterMap Exchange.pick?)) = some tale ∧ tale.picks = [] ∧
      spoken (transcript.flatMap Exchange.instructions) = setup.title ++ tale.told ++ closing ∧
      played.teller.scope = tale.scope ∧ played.teller.ledger = tale.ledger := by
  intro transcript played
  have course := prospect_course setup story clock calls []
  rw [List.append_nil, Playback.prospect, ended] at course
  obtain ⟨tale, walked, same⟩ := Option.map_eq_some_iff.mp course.symm
  have picks := congrArg Tale.picks same
  have told := congrArg Tale.told same
  have scope := congrArg Tale.scope same
  have ledger := congrArg Tale.ledger same
  exact ⟨tale, walked, picks, told.symm, scope.symm, ledger.symm⟩

/-- Playback that reaches the end has told its story as the walk tells it, with the choices that were picked,
and has left the variables and the ledger as the walk leaves them. Playback that has not can still be brought
there, and has told a part of every walk that begins with its picks. -/
theorem playback_refines_walk (setup : Setup) (story : Story) (clock : Nat → Instant) (calls : List Call) :
    let transcript := (setup.playback story).transcript clock (.start :: calls)
    let played := (setup.playback story).after clock (.start :: calls)
    let told := spoken (transcript.flatMap Exchange.instructions)
    let walked (picks : List Nat) := walk setup.options.mode setup.assets clock story (setup.tale picks)
    let picks := transcript.filterMap Exchange.pick?
    (played.teller.wait = .ended →
      ∃ tale, walked picks = some tale ∧ tale.picks = [] ∧ told = setup.title ++ tale.told ++ closing ∧
        played.teller.scope = tale.scope ∧ played.teller.ledger = tale.ledger) ∧
      (∃ more tale, walked (picks ++ more) = some tale) ∧
      ∀ more tale, walked (picks ++ more) = some tale → told <+: setup.title ++ tale.told ++ closing := by
  intro transcript played told walked picks
  have consistent : played.Consistent := (consistent_playback setup story).after clock (.start :: calls)
  have started : played.teller.status ≠ .idle :=
    after_of_ask (fun playback => playback.teller.status ≠ .idle) (started_ask clock)
      (started_start setup story clock) calls
  refine ⟨?_, ?_, ?_⟩
  · intro wait
    have status : played.teller.status = .ended := by rw [consistent.waiting started, wait]; rfl
    exact walk_of_ended setup story clock calls status
  · obtain ⟨later, exhausted⟩ := exists_after_ended clock consistent
    have ended : ((setup.playback story).after clock (.start :: (calls ++ later))).teller.status = .ended := by
      rw [← List.cons_append, after_append]
      exact (consistent.after clock later).ended_iff.mpr exhausted
    obtain ⟨tale, reached, _⟩ := walk_of_ended setup story clock (calls ++ later) ended
    rw [← List.cons_append, transcript_append, List.filterMap_append] at reached
    exact ⟨_, tale, reached⟩
  · intro more tale reached
    have course := prospect_course setup story clock calls more
    rw [prospect_precede] at course
    obtain ⟨future, _, same⟩ := Option.map_eq_some_iff.mp
      (course.trans (congrArg (Option.map fun tale => (tale.precede setup.title).tell closing) reached))
    exact ⟨future.told, congrArg Tale.told same⟩

end Playback
end BranchingStory
