import BranchingStory.Proofs.Playback.Telling
import Mathlib.Data.List.Induction

/-!
What is announced comes to be told. Playback can be asked which entry is next, and while messages wait the sign
that somebody is typing says whose turn it is. Both look no further than to the next entry, and at none of the
conditions: an entry that leads into a branch, or that playback passes without a stop, can announce what is
never told.
-/

namespace BranchingStory
namespace Playback

def Instruction.line? : Instruction → Option (String × Option String)
  | .showDialogue text speaker .. => some (text, speaker)
  | _ => none

def linesOf (instructions : List Instruction) : List (String × Option String) :=
  instructions.filterMap Instruction.line?

def Entry.lines (entry : Entry) : List (String × Option String) :=
  (entry.line?.map fun line => (line, entry.speaker?)).toList

theorem linesOf_append (first second : List Instruction) :
    linesOf (first ++ second) = linesOf first ++ linesOf second := List.filterMap_append

theorem linesOf_backdrop (mode : Mode) (assets : AssetBase) (entry : Entry) :
    linesOf (backdrop mode assets entry) = [] := by
  cases mode <;> cases key : entry.background? <;> simp [backdrop, key, linesOf, Instruction.line?]

theorem linesOf_shown (mode : Mode) (assets : AssetBase) (scope : Variables) (entry : Entry) :
    linesOf (shown mode assets scope entry) = Entry.lines entry := by
  have sprites : linesOf (entry.speaker?.map fun name =>
      if entry.placement = .exit then Instruction.exitCharacter name
      else .showCharacter name (assets.character name entry.outfit entry.state) entry.placement).toList = [] := by
    cases entry.speaker? with
    | none => rfl
    | some name => by_cases leaves : entry.placement = .exit <;> simp [linesOf, leaves, Instruction.line?]
  have sounds : linesOf (entry.sfx?.map fun key => Instruction.playSfx key (assets.sfx key)).toList = [] := by
    cases entry.sfx? <;> rfl
  have sights : linesOf (entry.vfx?.map Instruction.playVfx).toList = [] := by
    cases entry.vfx? <;> rfl
  cases mode with
  | scene =>
      rw [shown, sceneShown, linesOf_append, linesOf_append, linesOf_append, sprites, sounds, sights, Entry.lines]
      cases entry.line? <;> rfl
  | texting =>
      rw [shown, messageShown, Entry.lines]
      cases entry.line? <;> rfl

/-! ## The entry ahead -/

namespace Stack

def ahead? : Stack → Option Entry
  | [] => none
  | context :: below =>
      match context.next? with
      | some (_, entry) => some entry
      | none => ahead? below

theorem peek?_eq_some {stack : Stack} {peek : Peek} (peeked : stack.peek? = some peek) :
    ∃ entry, stack.ahead? = some entry ∧ peek.speaker = entry.speaker? ∧ peek.line = entry.line? := by
  induction stack with
  | nil => simp [peek?] at peeked
  | cons context below ih =>
      simp only [peek?, ahead?] at peeked ⊢
      cases found : context.next? with
      | none =>
          simp only [found] at peeked
          exact ih peeked
      | some next =>
          simp only [found, Option.some.injEq] at peeked
          exact ⟨next.2, rfl, peeked ▸ rfl, peeked ▸ rfl⟩

end Stack

namespace Step

variable {step : Step}

theorem reach_instructions (clock : Nat → Instant) (entry : Entry) :
    (step.reach clock entry).instructions =
      step.instructions ++ backdrop step.teller.options.mode step.teller.assets entry := by
  rw [reach, unlock_scenery, emit, unlock_instructions]

theorem stage_instructions (entry : Entry) :
    (step.stage entry).instructions =
      step.instructions ++ shown step.teller.options.mode step.teller.assets step.teller.scope entry := by
  rw [stage, Teller.staging_eq, emit]

theorem rest_instructions (line : String) (next : Option Peek) :
    (step.rest line next).instructions = (step.showTyping next).instructions := by
  simp only [Step.rest]
  split <;> rfl

theorem linesOf_showTyping (next : Option Peek) :
    linesOf (step.showTyping next).instructions = linesOf step.instructions := by
  simp only [showTyping]
  split
  · exact (linesOf_append _ _).trans (List.append_nil _)
  · rfl

theorem linesOf_pause? {entry : Entry} {next : Option Peek} {paused : Step}
    (pauses : step.pause? entry next = some paused) :
    linesOf paused.instructions = linesOf step.instructions := by
  rcases pause?_eq_some pauses with ⟨first, rest, _, rfl⟩ | ⟨_, line, _, rfl⟩
  · exact (linesOf_append _ _).trans (List.append_nil _)
  · rw [rest_instructions, linesOf_showTyping]

theorem linesOf_told (clock : Nat → Instant) (entry : Entry) :
    linesOf ((step.reach clock entry).stage entry).instructions =
      linesOf step.instructions ++ Entry.lines entry := by
  rw [stage_instructions, linesOf_append, linesOf_shown, reach_instructions, linesOf_append, linesOf_backdrop,
    List.append_nil]

end Step

def Entry.Halts (entry : Entry) : Prop := entry.branch = none ∧ (entry.line? ≠ none ∨ entry.choices ≠ [])

theorem linesOf_run (clock : Nat → Instant) {stack : Stack} (step : Step) {entry : Entry}
    (ahead : stack.ahead? = some entry) (halts : Entry.Halts entry) :
    linesOf (run clock stack step).2.instructions = linesOf step.instructions ++ Entry.lines entry := by
  induction stack, step using run.induct clock with
  | case1 stack step next after turned ih =>
      rw [run, turned]
      have turns := turnsTo_turn clock stack step
      rw [turned] at turns
      cases turns with
      | exhaust exhausted =>
          simp only [Stack.ahead?, exhausted] at ahead
          exact ih ahead
      | enter found led taken =>
          simp only [Stack.ahead?, found, Option.some.injEq] at ahead
          simp [ahead, halts.1] at led
      | skip found led skipped =>
          simp only [Stack.ahead?, found, Option.some.injEq] at ahead
          simp [ahead, halts.1] at led
      | pass found plain passes =>
          simp only [Stack.ahead?, found, Option.some.injEq] at ahead
          obtain ⟨unasked, silent⟩ := Step.pause?_eq_none passes
          rw [ahead] at unasked silent
          exact absurd halts.2 (by simp [unasked, silent])
  | case2 stack step last paused turned =>
      rw [run, turned]
      have turns := turnsTo_turn clock stack step
      rw [turned] at turns
      cases turns with
      | finish => simp [Stack.ahead?] at ahead
      | linger found led skipped root =>
          simp only [Stack.ahead?, found, Option.some.injEq] at ahead
          simp [ahead, halts.1] at led
      | pause found plain pauses =>
          simp only [Stack.ahead?, found, Option.some.injEq] at ahead
          rw [← ahead]
          exact (Step.linesOf_pause? pauses).trans (Step.linesOf_told clock _)

/-! ## Prepared steps -/

theorem Step.applyEffects_instructions (step : Step) (choice : Choice) :
    (step.applyEffects choice).instructions = step.instructions := by
  simp only [Step.applyEffects]
  split
  · split <;> rfl
  · rfl

theorem Prepares.unsaid {playback : Playback} {call : Call} {step : Step}
    (prepared : Prepares playback call step) :
    linesOf step.instructions = [] ∧ ∀ fromPlayer, .showTypingIndicator fromPlayer ∉ step.instructions := by
  have hidden : ∀ step : Step, step.instructions = [] →
      linesOf step.hideTyping.instructions = [] ∧
        ∀ fromPlayer, .showTypingIndicator fromPlayer ∉ step.hideTyping.instructions := by
    intro step silent
    rw [Step.hideTyping]
    split <;> simp [silent, Step.emit, linesOf, Instruction.line?]
  cases prepared with
  | start idle =>
      cases name : playback.teller.storyName <;>
        simp [opening, name, Step.emit, Step.trace, Step.leave, linesOf, Instruction.line?]
  | advance waits =>
      apply hidden
      split <;> rfl
  | timerElapsed waits fires => exact hidden _ rfl
  | @choose index choice waits offered =>
      cases toast : choice.toastText? <;>
        simp [chosen, toast, Step.applyEffects_instructions, Step.emit, linesOf, Instruction.line?]

/-! ## The sign -/

theorem sign_not_mem_of_spoken {instructions : List Instruction} (spokenFor : spoken instructions = instructions)
    (fromPlayer : Bool) : .showTypingIndicator fromPlayer ∉ instructions := by
  intro member
  rw [← spokenFor] at member
  simp [spoken, Instruction.isTyping] at member

/-- Whoever the sign says is about to write is the speaker of the entry ahead. -/
def SignsFor (stack : Stack) (instructions : List Instruction) : Prop :=
  ∀ fromPlayer, .showTypingIndicator fromPlayer ∈ instructions →
    ∃ next, stack.peek? = some next ∧ fromPlayer = next.speaker.isNone

theorem Step.unsigned_told {step : Step} (clock : Nat → Instant) (entry : Entry)
    (unsigned : ∀ fromPlayer, .showTypingIndicator fromPlayer ∉ step.instructions) (fromPlayer : Bool) :
    .showTypingIndicator fromPlayer ∉ (step.reach clock entry).instructions ∧
      .showTypingIndicator fromPlayer ∉ ((step.reach clock entry).stage entry).instructions := by
  rw [Step.stage_instructions, Step.reach_instructions]
  simp only [List.mem_append, not_or]
  exact ⟨⟨unsigned _, sign_not_mem_of_spoken (spoken_backdrop _ _ _) _⟩,
    ⟨unsigned _, sign_not_mem_of_spoken (spoken_backdrop _ _ _) _⟩,
    sign_not_mem_of_spoken (spoken_shown _ _ _ _) _⟩

theorem signsFor_run (clock : Nat → Instant) (stack : Stack) (step : Step)
    (unsigned : ∀ fromPlayer, .showTypingIndicator fromPlayer ∉ step.instructions) :
    SignsFor (run clock stack step).1 (run clock stack step).2.instructions := by
  refine run_of_turns
    (fun _ along => ∀ fromPlayer, .showTypingIndicator fromPlayer ∉ along.instructions)
    (fun last paused => SignsFor last paused.instructions) ?_ ?_ stack step unsigned
  · intro stack along next after unsigned turned
    have turns := turnsTo_turn clock stack along
    rw [turned] at turns
    cases turns with
    | exhaust exhausted => exact unsigned
    | enter found led taken =>
        rw [(Step.judge_eq taken).2.2]
        exact fun fromPlayer => (Step.unsigned_told clock _ unsigned fromPlayer).1
    | skip found led skipped =>
        rw [(Step.judge_eq skipped).2.2]
        exact fun fromPlayer => (Step.unsigned_told clock _ unsigned fromPlayer).1
    | pass found plain passes => exact fun fromPlayer => (Step.unsigned_told clock _ unsigned fromPlayer).2
  · intro stack along last paused unsigned turned fromPlayer member
    have turns := turnsTo_turn clock stack along
    rw [turned] at turns
    cases turns with
    | finish =>
        simp only [Step.finish, Step.hideTyping] at member
        split at member <;> simp [Step.emit, Step.trace, Step.leave, Step.suspend, unsigned] at member
    | linger found led skipped root =>
        simp only [Step.suspend, (Step.judge_eq skipped).2.2] at member
        exact absurd member (Step.unsigned_told clock _ unsigned fromPlayer).1
    | @pause context below _ _ index entry found plain pauses =>
        have told := Step.unsigned_told clock entry unsigned fromPlayer
        rcases Step.pause?_eq_some pauses with ⟨first, rest, _, rfl⟩ | ⟨_, line, _, rfl⟩
        · simp [Step.offer, Step.emit, Step.suspend, told.2] at member
        · rw [Step.rest_instructions] at member
          simp only [Step.showTyping] at member
          split at member
          · rename_i next _ peeked
            simp only [Step.emit, List.mem_append, told.2, List.mem_singleton, false_or,
              Instruction.showTypingIndicator.injEq] at member
            exact ⟨next, peeked, member⟩
          · exact absurd member told.2

def lastResumed? (exchanges : List Exchange) : Option Exchange := (exchanges.filter Exchange.goesOn).getLast?

theorem lastResumed?_of_goesOn (earlier : List Exchange) {before after : Playback} {call : Call} {reply : Option Reply}
    (goes : before.goesOn call = true) :
    lastResumed? (earlier ++ [⟨before, call, after, reply⟩]) = some ⟨before, call, after, reply⟩ := by
  simp [lastResumed?, Exchange.goesOn, goes]

theorem lastResumed?_of_not_goesOn (earlier : List Exchange) {before after : Playback} {call : Call}
    {reply : Option Reply} (stays : before.goesOn call = false) :
    lastResumed? (earlier ++ [⟨before, call, after, reply⟩]) = lastResumed? earlier := by
  simp [lastResumed?, Exchange.goesOn, stays]

/-- The sign that the last resumed call put up is about the entry that is ahead now. -/
theorem signsFor_after (playback : Playback) (clock : Nat → Instant) (calls : List Call) {exchange : Exchange}
    (resumed : lastResumed? (playback.transcript clock calls) = some exchange) :
    SignsFor (playback.after clock calls).stack exchange.instructions := by
  induction calls using List.reverseRecOn with
  | nil => simp [transcript, lastResumed?] at resumed
  | append_singleton earlier call ih =>
      simp only [transcript_append, after_append, transcript, after] at resumed ⊢
      cases goes : (playback.after clock earlier).goesOn call with
      | false =>
          rw [lastResumed?_of_not_goesOn _ goes] at resumed
          rw [stack_ask_of_not_goesOn clock goes]
          exact ih resumed
      | true =>
          rw [lastResumed?_of_goesOn _ goes, Option.some.injEq] at resumed
          obtain ⟨step, prepared, answered⟩ := ask_of_goesOn clock goes
          rw [← resumed, answered]
          exact signsFor_run clock _ _ prepared.unsaid.2

theorem linesOf_ask {playback : Playback} {clock : Nat → Instant} {call : Call} {entry : Entry}
    (goes : playback.goesOn call = true) (ahead : playback.stack.ahead? = some entry)
    (halts : Entry.Halts entry) :
    let answer := playback.ask clock call
    linesOf (Exchange.mk playback call answer.1 answer.2).instructions = Entry.lines entry := by
  obtain ⟨step, prepared, answered⟩ := ask_of_goesOn clock goes
  have ran := linesOf_run clock step.underWay ahead halts
  have unsaid : linesOf step.underWay.instructions = [] := prepared.unsaid.1
  rw [unsaid, List.nil_append] at ran
  rw [answered]
  exact ran

/-! ## Announcements -/

/-- While the entry ahead leads into no branch, whatever is asked next and makes playback go on tells the line
that was looked ahead to, with its speaker; and if playback stops at that entry, the sign that the last resumed
call put up said whether the line has a speaker. -/
theorem announcements_come_true (setup : Setup) (story : Story) (clock : Nat → Instant) (calls : List Call)
    (call : Call) (entry : Entry) :
    let unstarted := setup.playback story
    let played := unstarted.after clock calls
    let answer := played.ask clock call
    let told := linesOf (Exchange.mk played call answer.1 answer.2).instructions
    played.goesOn call = true → played.stack.ahead? = some entry → entry.branch = none →
      (∀ exchange fromPlayer, lastResumed? (unstarted.transcript clock calls) = some exchange →
        .showTypingIndicator fromPlayer ∈ exchange.instructions → entry.line? ≠ none ∨ entry.choices ≠ [] →
          ∀ line speaker, (line, speaker) ∈ told → (fromPlayer = true ↔ speaker = none)) ∧
        ∀ peek line, played.peek? = some peek → peek.line = some line → told = [(line, peek.speaker)] := by
  intro unstarted played answer told goes ahead plain
  constructor
  · intro exchange fromPlayer resumed signed stops line speaker spoken
    have lines : told = Entry.lines entry := linesOf_ask goes ahead ⟨plain, stops⟩
    obtain ⟨next, peeked, meant⟩ := signsFor_after unstarted clock calls resumed fromPlayer signed
    obtain ⟨looked, same, speaks, _⟩ := Stack.peek?_eq_some peeked
    obtain rfl := Option.some.inj (ahead.symm.trans same)
    have speaker_eq : speaker = entry.speaker? := by
      rw [lines, Entry.lines, Option.mem_toList, Option.map_eq_some_iff] at spoken
      obtain ⟨_, _, pair⟩ := spoken
      exact (Prod.mk.inj pair).2.symm
    rw [meant, speaks, speaker_eq, Option.isNone_iff_eq_none]
  · intro peek line peeked shown
    obtain ⟨looked, same, speaks, lined⟩ := Stack.peek?_eq_some peeked
    obtain rfl := Option.some.inj (ahead.symm.trans same)
    have lined : entry.line? = some line := lined.symm.trans shown
    have lines : told = Entry.lines entry := linesOf_ask goes ahead ⟨plain, .inl (by simp [lined])⟩
    rw [lines, Entry.lines, lined, speaks]
    rfl

theorem answer_comes_true :
    let story := [Entry.line none "Hi!", Entry.line (some "Bea") "Hello"]
    let unstarted := Setup.playback { options := .texting } story
    let played := unstarted.after default [.start]
    let answer := played.ask default (.event .advance)
    let told := linesOf (Exchange.mk played (.event .advance) answer.1 answer.2).instructions
    played.goesOn (.event .advance) = true ∧ played.stack.ahead?.map Entry.line? = some (some "Hello") ∧
      told = [("Hello", some "Bea")] ∧
        ∀ exchange fromPlayer, lastResumed? (unstarted.transcript default [.start]) = some exchange →
          .showTypingIndicator fromPlayer ∈ exchange.instructions → fromPlayer = false := by
  intro story unstarted played answer told
  have goes : played.goesOn (.event .advance) = true := by decide +kernel
  have ahead : played.stack.ahead? = some (Entry.line (some "Bea") "Hello") := by
    with_unfolding_all rfl
  have stops : (Entry.line (some "Bea") "Hello").line? ≠ none ∨
      (Entry.line (some "Bea") "Hello").choices ≠ [] := .inl (by decide)
  have announced := announcements_come_true { options := .texting } story default [.start] (.event .advance) _
    goes ahead rfl
  have peeked : played.peek? = some ⟨1, some "Bea", some "Hello"⟩ := by decide +kernel
  have lines : told = [("Hello", some "Bea")] := announced.2 _ _ peeked rfl
  refine ⟨goes, by rw [ahead]; rfl, lines, ?_⟩
  intro exchange fromPlayer resumed signed
  have told_line : ("Hello", some "Bea") ∈ told := lines ▸ List.mem_singleton_self _
  have meant := announced.1 exchange fromPlayer resumed signed stops "Hello" (some "Bea") told_line
  simpa using meant

/-- Ahead of a branch the sign announces the player and Bea writes, and the line that is looked ahead to is
never told. Ahead of an entry that only brings Bea in, the sign announces Bea and the player writes. -/
theorem announcements_can_fail :
    let branch : Entry :=
      { Entry.line none "Psst" with branch := some ⟨"true", [Entry.line (some "Bea") "Hello"]⟩ }
    let entrance : Entry := { Entry.blank with character := some "Bea" }
    let started (story : Story) : Playback :=
      (Setup.playback { options := .texting } story).after default [.start]
    let sign (story : Story) (fromPlayer : Bool) : Option Bool :=
      (lastResumed? ((Setup.playback { options := .texting } story).transcript default [.start])).map
        fun exchange => decide (.showTypingIndicator fromPlayer ∈ exchange.instructions)
    let told (story : Story) : List (String × Option String) :=
      let answer := (started story).ask default (.event .advance)
      linesOf (Exchange.mk (started story) (.event .advance) answer.1 answer.2).instructions
    let led := [Entry.line none "Hi!", branch]
    let joined := [Entry.line none "Hi!", entrance, Entry.line none "Who is there?"]
    ((started led).goesOn (.event .advance) = true ∧ sign led true = some true ∧
        (started led).peek? = some ⟨1, none, some "Psst"⟩ ∧ told led = [("Hello", some "Bea")]) ∧
      (started joined).goesOn (.event .advance) = true ∧ sign joined false = some true ∧
        told joined = [("Who is there?", none)] := by
  decide +kernel

end Playback
end BranchingStory
