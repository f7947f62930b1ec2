import Mathlib.Data.List.Basic
import BranchingStory.Proofs.Playback.Telling

/-!
Pacing never changes the story. Autoplay, the timer and the pause at a skipped branch of the root decide
where the telling is cut; what is told is settled by the story, the variables and the picks. The sign that
somebody is typing comes after a line and goes before anything else is told, however the line is followed.
-/

namespace BranchingStory
namespace Playback

/-! ## The telling without its rests -/

def typing : Mode → Option Peek → List Instruction
  | .texting, some next => [.showTypingIndicator next.speaker.isNone, .hideTypingIndicator]
  | _, _ => []

section

variable (mode : Mode) (assets : AssetBase) (clock : Nat → Instant)

/-- One turn of a telling that never rests: choices are picked as soon as they are shown. There is none at the
end of the story, nor where the picks run out or name no choice. -/
def further : Stack → Tale → Option (Stack × Tale)
  | [], _ => none
  | context :: below, tale =>
      match context.next? with
      | none => some (below, tale)
      | some (index, entry) =>
          let told := context.mark index :: below
          let reached := (tale.unlock clock entry).tell (backdrop mode assets entry)
          match entry.branch with
          | some branch =>
              if (Condition.judge branch.condition reached.scope.bindings).1 then
                some (.start branch.story :: told, reached)
              else some (told, reached)
          | none =>
              let staged := reached.tell (shown mode assets reached.scope entry)
              match entry.choices, entry.line? with
              | [], none => some (told, staged)
              | [], some _ => some (told, staged.tell (typing mode (Stack.peek? told)))
              | choices, _ =>
                  ((staged.tell [.showChoices (choiceViews choices)]).pick? choices).map fun tale => (told, tale)

inductive Tells : Stack → Tale → Tale → Prop
  | close {tale : Tale} : Tells [] tale (tale.tell closing)
  | further {stack next : Stack} {tale after last : Tale}
      (goes : further mode assets clock stack tale = some (next, after)) (on : Tells next after last) :
      Tells stack tale last

end

theorem Tells.unique {mode : Mode} {assets : AssetBase} {clock : Nat → Instant} {stack : Stack}
    {tale first second : Tale} (tells : Tells mode assets clock stack tale first)
    (also : Tells mode assets clock stack tale second) : first = second := by
  induction tells with
  | close =>
      cases also with
      | close => rfl
      | further goes on => simp [Playback.further] at goes
  | further goes on ih =>
      cases also with
      | close => simp [Playback.further] at goes
      | further other rest =>
          obtain ⟨rfl, rfl⟩ := Prod.mk.inj (Option.some.inj (goes.symm.trans other))
          exact ih rest

/-! ## Steps as tales, with every sign -/

namespace Step

variable {step : Step} {picks : List Nat} {told : List Instruction}

def whole (step : Step) (picks : List Nat) (told : List Instruction) : Tale :=
  step.teller.tale picks (told ++ step.instructions)

theorem whole_emit (instructions : List Instruction) :
    (step.emit instructions).whole picks told = (step.whole picks told).tell instructions := by
  simp [whole, emit, Teller.tale, Tale.tell]

theorem whole_congr {first second : Step} (teller : first.teller = second.teller)
    (instructions : first.instructions = second.instructions) :
    first.whole picks told = second.whole picks told := by
  rw [whole, whole, teller, instructions]

theorem whole_unlock (clock : Nat → Instant) (entry : Entry) :
    (step.unlock clock entry).whole picks told = (step.whole picks told).unlock clock entry := by
  rw [whole, unlock_instructions, unlock_tale]
  rfl

theorem whole_reach (clock : Nat → Instant) (entry : Entry) :
    (step.reach clock entry).whole picks told =
      ((step.whole picks told).unlock clock entry).tell
        (backdrop step.teller.options.mode step.teller.assets entry) := by
  rw [reach, whole_emit, whole_unlock, unlock_scenery]

theorem whole_stage (entry : Entry) :
    (step.stage entry).whole picks told =
      (step.whole picks told).tell
        (shown step.teller.options.mode step.teller.assets step.teller.scope entry) := by
  rw [stage, whole_emit, Teller.staging_eq]

def further (step : Step) (clock : Nat → Instant) (stack : Stack) (picks : List Nat)
    (told : List Instruction) : Option (Stack × Tale) :=
  Playback.further step.teller.options.mode step.teller.assets clock stack (step.whole picks told)

variable {clock : Nat → Instant} {context : Context} {below : Stack} {index : Nat} {entry : Entry}

theorem further_of_branch {branch : Branch} (found : context.next? = some (index, entry))
    (led : entry.branch = some branch) :
    let reached := step.reach clock entry
    step.further clock (context :: below) picks told =
      if (Condition.judge branch.condition reached.teller.scope.bindings).1 then
        some (.start branch.story :: context.mark index :: below, reached.whole picks told)
      else some (context.mark index :: below, reached.whole picks told) := by
  simp only [further, Playback.further, found, led, ← whole_reach]
  rfl

theorem further_of_skipped {branch : Branch} {depth : Nat} {judged : Step}
    (found : context.next? = some (index, entry)) (led : entry.branch = some branch)
    (skipped : (step.reach clock entry).judge branch depth = (false, judged)) :
    step.further clock (context :: below) picks told =
      some (context.mark index :: below, judged.whole picks told) := by
  obtain ⟨fails, teller, instructions⟩ := judge_eq skipped
  rw [further_of_branch found led, if_neg (by simp [← fails]), whole_congr teller instructions]

theorem further_of_plain (found : context.next? = some (index, entry)) (plain : entry.branch = none) :
    let staged := (step.reach clock entry).stage entry
    let told' := context.mark index :: below
    step.further clock (context :: below) picks told =
      match entry.choices, entry.line? with
      | [], none => some (told', staged.whole picks told)
      | [], some _ =>
          some (told', (staged.whole picks told).tell
            (typing step.teller.options.mode (Stack.peek? told')))
      | choices, _ =>
          (((staged.whole picks told).tell [.showChoices (choiceViews choices)]).pick? choices).map
            fun tale => (told', tale) := by
  obtain ⟨options, assets⟩ := step.reach_options clock entry
  simp only [further, Playback.further, found, plain, ← whole_reach, whole_stage, options, assets]
  rfl

theorem further_of_onward {stack next : Stack} {after : Step}
    (turned : turn clock stack step = .onward next after) (picks : List Nat) (told : List Instruction) :
    step.further clock stack picks told = some (next, after.whole picks told) := by
  have turns := turnsTo_turn clock stack step
  rw [turned] at turns
  cases turns with
  | exhaust exhausted =>
      simp only [further, Playback.further, exhausted]
      rfl
  | enter found led taken =>
      obtain ⟨holds, teller, instructions⟩ := judge_eq taken
      rw [further_of_branch found led, if_pos holds.symm, whole_congr teller instructions]
  | skip found led skipped => exact further_of_skipped found led skipped
  | pass found plain passes =>
      obtain ⟨unasked, silent⟩ := pause?_eq_none passes
      rw [further_of_plain found plain, unasked, silent]

theorem withoutRecord_of_onward {stack next : Stack} {after : Step}
    (turned : turn clock stack step = .onward next after) :
    after.teller.withoutRecord = step.teller.withoutRecord := by
  have turns := turnsTo_turn clock stack step
  rw [turned] at turns
  cases turns with
  | exhaust exhausted => rfl
  | enter found led taken => rw [(judge_eq taken).2.1, reach_withoutRecord]
  | skip found led skipped => rw [(judge_eq skipped).2.1, reach_withoutRecord]
  | pass found plain passes => rw [stage_teller, reach_withoutRecord]

end Step

/-! ## Where playback leads -/

def Teller.title (teller : Teller) : List Instruction :=
  (teller.storyName.map fun name => .setTitle (name ++ " - " ++ applicationTitle)).toList

def Teller.signOff (teller : Teller) : List Instruction := if teller.typing then [.hideTypingIndicator] else []

theorem Step.hideTyping_instructions (step : Step) :
    step.hideTyping.instructions = step.instructions ++ step.teller.signOff := by
  simp only [hideTyping, Teller.signOff]
  split <;> simp [emit]

theorem Step.finish_instructions (step : Step) :
    step.finish.instructions = step.instructions ++ step.teller.signOff ++ closing := by
  let unarmed : Step :=
    { step with teller := { step.teller with timer := step.teller.timer.cancel.2 } }
  change unarmed.hideTyping.instructions ++ closing = _
  rw [hideTyping_instructions]
  rfl

theorem Step.reach_typing (step : Step) (clock : Nat → Instant) (entry : Entry) :
    (step.reach clock entry).teller.typing = step.teller.typing :=
  congrArg (·.typing) (step.reach_withoutRecord clock entry)

/-- The tale that playback comes to, if these picks are made from here on and this much was told before. -/
def Leads (playback : Playback) (clock : Nat → Instant) (picks : List Nat) (told : List Instruction)
    (last : Tale) : Prop :=
  let teller := playback.teller
  let tells := Tells teller.options.mode teller.assets clock playback.stack
  match teller.status with
  | .ended => last = teller.tale picks told
  | .awaitingChoice => ∃ made, (teller.tale picks told).pick? teller.pending = some made ∧ tells made last
  | .idle => tells (teller.tale picks (told ++ teller.title)) last
  | _ => tells (teller.tale picks (told ++ teller.signOff)) last

theorem Step.whole_rest {step : Step} (untyping : step.teller.typing = false) (line : String)
    (next : Option Peek) (picks : List Nat) (told : List Instruction) :
    let rested := step.rest line next
    rested.teller.tale picks (told ++ rested.instructions ++ rested.teller.signOff) =
      (step.whole picks told).tell (typing step.teller.options.mode next) := by
  have signed : (step.showTyping next).instructions ++ (step.showTyping next).teller.signOff =
      step.instructions ++ typing step.teller.options.mode next := by
    cases mode : step.teller.options.mode with
    | scene => simp [showTyping, Teller.signOff, typing, mode, untyping]
    | texting => cases next <;> simp [showTyping, Teller.signOff, typing, mode, untyping, emit]
  have kept : (step.showTyping next).teller.tale picks = step.teller.tale picks := by
    rw [showTyping_teller]
    rfl
  have rested : (step.showTyping next).teller.tale picks
      (told ++ (step.showTyping next).instructions ++ (step.showTyping next).teller.signOff) =
      (step.whole picks told).tell (typing step.teller.options.mode next) := by
    rw [kept, List.append_assoc, signed, ← List.append_assoc]
    rfl
  simp only [rest]
  split <;> exact rested

theorem leads_of_waits {playback : Playback} (waits : playback.teller.status = .running ∨
      playback.teller.status = .awaitingInput ∨ playback.teller.status = .awaitingTimer)
    (clock : Nat → Instant) (picks : List Nat) (told : List Instruction) (last : Tale) :
    playback.Leads clock picks told last ↔
      Tells playback.teller.options.mode playback.teller.assets clock playback.stack
        (playback.teller.tale picks (told ++ playback.teller.signOff)) last := by
  rcases waits with status | status | status <;> simp only [Leads, status]

theorem tells_of_pause {clock : Nat → Instant} {context : Context} {below : Stack} {step paused : Step}
    {index : Nat} {entry : Entry} (found : context.next? = some (index, entry)) (plain : entry.branch = none)
    (pauses : ((step.reach clock entry).stage entry).pause? entry
      (Stack.peek? (context.mark index :: below)) = some paused)
    (untyping : step.teller.typing = false) {picks : List Nat} {told : List Instruction} {final : Tale}
    (leads : Leads ⟨context.mark index :: below, paused.teller⟩ clock picks (told ++ paused.instructions)
      final) :
    Tells step.teller.options.mode step.teller.assets clock (context :: below) (step.whole picks told)
      final := by
  let staged := (step.reach clock entry).stage entry
  obtain ⟨options, assets⟩ : staged.teller.options = step.teller.options ∧
      staged.teller.assets = step.teller.assets := step.reach_options clock entry
  have still : staged.teller.typing = false := (step.reach_typing clock entry).trans untyping
  rcases Step.pause?_eq_some pauses with ⟨first, others, choices, rfl⟩ | ⟨unasked, line, shown, rfl⟩
  · obtain ⟨made, picked, on⟩ : ∃ made,
        ((staged.offer (first :: others)).whole picks told).pick? (first :: others) = some made ∧
          Tells staged.teller.options.mode staged.teller.assets clock (context.mark index :: below)
            made final := leads
    rw [options, assets] at on
    have offered : (staged.offer (first :: others)).whole picks told =
        (staged.whole picks told).tell [.showChoices (choiceViews (first :: others))] :=
      staged.whole_emit [.showChoices (choiceViews (first :: others))]
    have goes : step.further clock (context :: below) picks told =
        some (context.mark index :: below, made) := by
      rw [Step.further_of_plain found plain, choices]
      change Option.map _ (((staged.whole picks told).tell
        [.showChoices (choiceViews (first :: others))]).pick? (first :: others)) = _
      rw [← offered, picked]
      rfl
    exact .further goes on
  · let next := Stack.peek? (context.mark index :: below)
    have waits := staged.rest_status line next
    have on := (leads_of_waits (.inr waits) clock _ _ final).mp leads
    obtain ⟨sameOptions, sameAssets⟩ := staged.rest_options line next
    rw [Step.whole_rest still, sameOptions, sameAssets, options, assets] at on
    have goes : step.further clock (context :: below) picks told =
        some (context.mark index :: below,
          (staged.whole picks told).tell (typing step.teller.options.mode next)) := by
      rw [Step.further_of_plain found plain, unasked, shown]
    exact .further goes on

theorem tells_of_rest {clock : Nat → Instant} {stack last : Stack} {step paused : Step}
    (turned : turn clock stack step = .rest last paused) (untyping : step.teller.typing = false)
    {picks : List Nat} {told : List Instruction} {final : Tale}
    (leads : Leads ⟨last, paused.teller⟩ clock picks (told ++ paused.instructions) final) :
    Tells step.teller.options.mode step.teller.assets clock stack (step.whole picks told) final := by
  have silent {teller : Teller} (still : teller.typing = false) : teller.signOff = [] := by
    simp [Teller.signOff, still]
  have turns := turnsTo_turn clock stack step
  rw [turned] at turns
  cases turns with
  | finish =>
      have ended : final = step.finish.teller.tale picks (told ++ step.finish.instructions) := leads
      rw [Step.finish_instructions, silent untyping, List.append_nil, ← List.append_assoc,
        Step.finish_teller] at ended
      exact ended ▸ .close
  | @linger context below _ judged index entry branch found led skipped root =>
      obtain ⟨_, teller, _⟩ := Step.judge_eq skipped
      obtain ⟨options, assets⟩ := step.reach_options clock entry
      have still : judged.teller.typing = false := by rw [teller, step.reach_typing, untyping]
      have on : Tells judged.teller.options.mode judged.teller.assets clock (context.mark index :: below)
          (judged.teller.tale picks (told ++ judged.instructions ++ judged.teller.signOff)) final := leads
      rw [silent still, List.append_nil, congrArg Teller.options teller, congrArg Teller.assets teller,
        options, assets] at on
      exact .further (Step.further_of_skipped found led skipped) on
  | pause found plain pauses => exact tells_of_pause found plain pauses untyping leads

theorem tells_run (clock : Nat → Instant) (stack : Stack) (step : Step)
    (untyping : step.teller.typing = false) (picks : List Nat) (told : List Instruction) (final : Tale)
    (leads : Leads ⟨(run clock stack step).1, (run clock stack step).2.teller⟩ clock picks
      (told ++ (run clock stack step).2.instructions) final) :
    Tells step.teller.options.mode step.teller.assets clock stack (step.whole picks told) final := by
  let Back (along : Stack) (before : Step) : Prop :=
    Tells before.teller.options.mode before.teller.assets clock along (before.whole picks told) final →
      Tells step.teller.options.mode step.teller.assets clock stack (step.whole picks told) final
  refine run_of_turns
    (fun along before => before.teller.withoutRecord = step.teller.withoutRecord ∧ Back along before)
    (fun last paused => Leads ⟨last, paused.teller⟩ clock picks (told ++ paused.instructions) final →
      Tells step.teller.options.mode step.teller.assets clock stack (step.whole picks told) final)
    ?_ ?_ stack step ⟨rfl, id⟩ leads
  · rintro along before next after ⟨same, back⟩ turned
    have kept := Step.withoutRecord_of_onward turned
    refine ⟨kept.trans same, fun on => back (.further (Step.further_of_onward turned picks told) ?_)⟩
    have mode : after.teller.options.mode = before.teller.options.mode := congrArg (·.options.mode) kept
    have assets : after.teller.assets = before.teller.assets := congrArg (·.assets) kept
    rwa [mode, assets] at on
  · rintro along before last paused ⟨same, back⟩ turned leads
    have still : before.teller.typing = false := (congrArg (·.typing) same).trans untyping
    exact back (tells_of_rest turned still leads)

/-! ## Calls lead where playback leads -/

theorem prompted_instructions (playback : Playback) :
    playback.prompted.instructions = playback.teller.signOff := by
  simp only [prompted, Step.hideTyping_instructions]
  split <;> rfl

theorem elapsed_instructions (playback : Playback) (timer : Timer) :
    (playback.elapsed timer).instructions = playback.teller.signOff := by
  simp only [elapsed, Step.hideTyping_instructions]
  rfl

theorem Prepares.leads {playback : Playback} {call : Call} {step : Step}
    (prepared : Prepares playback call step) {clock : Nat → Instant} {picks : List Nat}
    {told : List Instruction} {last : Tale}
    (tells : Tells step.teller.options.mode step.teller.assets clock playback.stack (step.whole picks told)
      last) :
    playback.Leads clock (call.pick?.toList ++ picks) told last := by
  cases prepared with
  | start idle =>
      simp only [Leads, idle]
      exact tells
  | advance waits =>
      rw [Step.whole, prompted_instructions, prompted_teller] at tells
      exact (leads_of_waits waits clock picks told last).mpr tells
  | timerElapsed waits fires =>
      rw [Step.whole, elapsed_instructions, elapsed_teller fires] at tells
      exact (leads_of_waits (.inr (.inr waits)) clock picks told last).mpr tells
  | @choose index choice waits offered =>
      rw [Step.whole, chosen_instructions, chosen_teller] at tells
      simp only [Leads, waits]
      refine ⟨_, ?_, tells⟩
      simp only [Call.pick?, Option.toList_some, List.singleton_append, Tale.pick?, Teller.tale, offered,
        Option.map_some, Tale.make]

theorem leads_ask (clock : Nat → Instant) {playback : Playback} (consistent : playback.Consistent)
    (call : Call) (picks : List Nat) (told : List Instruction) (last : Tale) :
    let answer := playback.ask clock call
    let exchange : Exchange := ⟨playback, call, answer.1, answer.2⟩
    answer.1.Leads clock picks (told ++ exchange.instructions) last →
      playback.Leads clock (exchange.pick?.toList ++ picks) told last := by
  have answers := answers_ask clock playback call
  generalize playback.ask clock call = answer at answers ⊢
  cases answers with
  | @resume _ step prepared =>
      intro _ _ leads
      have untyping := (prepared.quiet consistent).untyping
      exact prepared.leads (tells_run clock playback.stack step.underWay untyping picks told last leads)
  | ignore stays _ unpicked => simp [Exchange.instructions, Exchange.pick?, unpicked]
  | reject stays => simp [Exchange.instructions, Exchange.pick?]
  | setAutoplay =>
      intro answer exchange leads
      have silent : exchange.instructions = [] := rfl
      rw [silent, List.append_nil] at leads
      exact leads
  | peek => simp [Exchange.instructions, Exchange.pick?]

theorem leads_after (clock : Nat → Instant) {playback : Playback} (consistent : playback.Consistent)
    (calls : List Call) (picks : List Nat) (told : List Instruction) (last : Tale) :
    let transcript := playback.transcript clock calls
    (playback.after clock calls).Leads clock picks (told ++ transcript.flatMap Exchange.instructions) last →
      playback.Leads clock (transcript.filterMap Exchange.pick? ++ picks) told last := by
  induction calls generalizing playback told with
  | nil => simp [after, transcript]
  | cons call later ih =>
      intro whole leads
      have next := consistent_ask clock playback call consistent
      simp only [whole, after, transcript, List.flatMap_cons, ← List.append_assoc] at leads
      have first := leads_ask clock consistent call _ told last (ih next _ leads)
      simp only [List.filterMap_eq_flatMap_toList] at first ⊢
      simpa only [whole, transcript, List.flatMap_cons, List.append_assoc] using first

/-! ## Pacing -/

def Setup.paced (setup : Setup) (autoplay : Bool) (pacing : Pacing) (branchPacing : BranchPacing) : Setup :=
  { setup with autoplay, options := { setup.options with pacing, branchPacing } }

theorem tells_of_ended (setup : Setup) (story : Story) (clock : Nat → Instant) (calls : List Call)
    (ended : ((setup.playback story).after clock calls).teller.status = .ended) :
    let played := (setup.playback story).after clock calls
    let transcript := (setup.playback story).transcript clock calls
    let begun : Tale := setup.tale (transcript.filterMap Exchange.pick?)
    Tells setup.options.mode setup.assets clock [.start story] (begun.tell setup.title)
      (played.teller.tale [] (transcript.flatMap Exchange.instructions)) := by
  intro played transcript begun
  have leads : played.Leads clock [] ([] ++ transcript.flatMap Exchange.instructions)
      (played.teller.tale [] (transcript.flatMap Exchange.instructions)) := by
    simp only [Leads, played, ended, List.nil_append]
  have led := leads_after clock (consistent_playback setup story) calls [] [] _ leads
  rw [List.append_nil] at led
  exact led

/-- However two plays of a story are paced, if both come to the end with the same picks they have told the
same, instruction by instruction, and leave the same variables and the same ledger. -/
theorem pacing_keeps_story (setup : Setup) (story : Story) (clock : Nat → Instant) (autoplay : Bool)
    (pacing : Pacing) (branchPacing : BranchPacing) (calls others : List Call) :
    let play := setup.playback story
    let paced := (setup.paced autoplay pacing branchPacing).playback story
    (play.after clock calls).teller.status = .ended → (paced.after clock others).teller.status = .ended →
      (play.transcript clock calls).filterMap Exchange.pick? =
        (paced.transcript clock others).filterMap Exchange.pick? →
      (play.transcript clock calls).flatMap Exchange.instructions =
          (paced.transcript clock others).flatMap Exchange.instructions ∧
        (play.after clock calls).teller.scope = (paced.after clock others).teller.scope ∧
        (play.after clock calls).teller.ledger = (paced.after clock others).teller.ledger := by
  intro play paced ended pacedEnded picks
  have first := tells_of_ended setup story clock calls ended
  have second := tells_of_ended (setup.paced autoplay pacing branchPacing) story clock others pacedEnded
  simp only [play, paced] at picks
  simp only [picks] at first
  have same := first.unique second
  exact ⟨congrArg Tale.told same, congrArg Tale.scope same, congrArg Tale.ledger same⟩

def greeting : Story :=
  [.line (some "Bea") "Hi!",
    { Entry.blank with
      responses := some [{ text := "Hello", effects := some ⟨[("met", .bool true)]⟩ }, { text := "Later" }] },
    { Entry.blank with branch := some ⟨"!met", [.line (some "Bea") "Who are you?"]⟩ },
    .line none "Bye!"]

def chat : Setup := { options := .texting, autoplay := true }

def leftToTheTimer : List Call :=
  [.start, .event (.timerElapsed 1), .event (.choose 0), .event (.timerElapsed 2)]

def leftToThePlayer : List Call :=
  [.setAutoplay true, .start, .event .advance, .setAutoplay false, .event (.choose 0), .event .advance,
    .event .advance]

theorem pacing_keeps_greeting :
    let clock : Nat → Instant := fun _ => default
    let play := chat.playback greeting
    let paced := (chat.paced false .scene .awaitInputAtRoot).playback greeting
    ((play.after clock leftToTheTimer).teller.status = .ended ∧
        (paced.after clock leftToThePlayer).teller.status = .ended ∧
        (play.transcript clock leftToTheTimer).filterMap Exchange.pick? =
          (paced.transcript clock leftToThePlayer).filterMap Exchange.pick?) ∧
      (play.transcript clock leftToTheTimer).flatMap Exchange.instructions =
          (paced.transcript clock leftToThePlayer).flatMap Exchange.instructions ∧
        (play.after clock leftToTheTimer).teller.scope = (paced.after clock leftToThePlayer).teller.scope ∧
        (play.after clock leftToTheTimer).teller.ledger =
          (paced.after clock leftToThePlayer).teller.ledger := by
  refine ⟨⟨by decide +kernel, by decide +kernel, by decide +kernel⟩, ?_⟩
  exact pacing_keeps_story chat greeting (fun _ => default) false .scene .awaitInputAtRoot leftToTheTimer
    leftToThePlayer (by decide +kernel) (by decide +kernel) (by decide +kernel)

end Playback
end BranchingStory