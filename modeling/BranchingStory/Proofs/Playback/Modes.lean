import BranchingStory.Proofs.Playback.Telling
import Mathlib.Data.List.Forall2

/-!
Scenes and messages tell the same story. As long as nothing is followed by itself, playback in the one mode and
in the other goes through the same contexts, answers the same calls and keeps the same books. A scene adds its
staging to what is told, and messages add faces and the sign that somebody is typing.
-/

namespace BranchingStory
namespace Playback

def Instruction.isStaging : Instruction → Bool
  | .showBackground .. => true
  | .showCharacter .. => true
  | .exitCharacter .. => true
  | .playSfx .. => true
  | .playVfx .. => true
  | _ => false

def unstaged (instructions : List Instruction) : List Instruction :=
  instructions.filter fun instruction => !instruction.isStaging

theorem unstaged_append (first second : List Instruction) :
    unstaged (first ++ second) = unstaged first ++ unstaged second := List.filter_append first second

def Instruction.faceless : Instruction → Instruction
  | .showDialogue text speaker position color _ => .showDialogue text speaker position color none
  | instruction => instruction

/-- A scene and messages tell the same, but for what only one of them has. -/
def SameTelling (scene messages : List Instruction) : Prop :=
  unstaged scene = (spoken messages).map Instruction.faceless

theorem SameTelling.append {scene messages more further : List Instruction}
    (same : SameTelling scene messages) (also : SameTelling more further) :
    SameTelling (scene ++ more) (messages ++ further) := by
  have first : unstaged scene = (spoken messages).map Instruction.faceless := same
  have second : unstaged more = (spoken further).map Instruction.faceless := also
  rw [SameTelling, spoken_append, List.map_append, ← first, ← second, unstaged_append]

theorem sameTelling_backdrop (assets : AssetBase) (entry : Entry) :
    SameTelling (backdrop .scene assets entry) (backdrop .texting assets entry) := by
  cases key : entry.background? <;>
    simp [SameTelling, backdrop, key, unstaged, spoken, Instruction.isStaging]

theorem sameTelling_shown (assets : AssetBase) (scope : Variables) (entry : Entry) :
    SameTelling (shown .scene assets scope entry) (shown .texting assets scope entry) := by
  have unseen : ∀ name, Instruction.isStaging
      (if entry.placement = .exit then .exitCharacter name
        else .showCharacter name (assets.character name entry.outfit entry.state) entry.placement) = true := by
    intro name
    split <;> rfl
  have sprites : unstaged (entry.speaker?.map fun name =>
      if entry.placement = .exit then Instruction.exitCharacter name
      else .showCharacter name (assets.character name entry.outfit entry.state) entry.placement).toList = [] := by
    cases entry.speaker? with
    | none => rfl
    | some name => simp [unstaged, unseen]
  have sounds : unstaged (entry.sfx?.map fun key => Instruction.playSfx key (assets.sfx key)).toList = [] := by
    cases entry.sfx? <;> rfl
  have sights : unstaged (entry.vfx?.map Instruction.playVfx).toList = [] := by
    cases entry.vfx? <;> rfl
  rw [SameTelling, shown, shown, sceneShown, messageShown, unstaged_append, unstaged_append, unstaged_append, sprites, sounds, sights]
  cases entry.line? <;> rfl

/-! ## Steps -/

def Teller.staged (teller : Teller) (options : Options) : Teller := { teller with options, typing := false }

/-- A teller of messages, and the options of a scene at the same pace of branches. Neither goes on by itself. -/
structure TwoModes (options : Options) (teller : Teller) : Prop where
  scene : options.mode = .scene
  messages : teller.options.mode = .texting
  branches : options.branchPacing = teller.options.branchPacing
  unhurried : teller.autoplay = false

theorem TwoModes.of_withoutRecord {options : Options} {before after : Teller}
    (modes : TwoModes options before) (same : after.withoutRecord = before.withoutRecord) :
    TwoModes options after where
  scene := modes.scene
  messages := (congrArg (·.options.mode) same).trans modes.messages
  branches := modes.branches.trans (congrArg (·.options.branchPacing) same).symm
  unhurried := (congrArg (·.autoplay) same).trans modes.unhurried

structure Parallel (options : Options) (scene messages : Step) : Prop where
  teller : scene.teller = messages.teller.staged options
  modes : TwoModes options messages.teller
  told : SameTelling scene.instructions messages.instructions
  left : scene.deeds = messages.deeds

namespace Parallel

variable {options : Options} {scene messages : Step} {clock : Nat → Instant} {entry : Entry}

theorem emit (parallel : Parallel options scene messages) {shown sent : List Instruction}
    (same : SameTelling shown sent) : Parallel options (scene.emit shown) (messages.emit sent) :=
  ⟨parallel.teller, parallel.modes, parallel.told.append same, parallel.left⟩

theorem leave (parallel : Parallel options scene messages) (deed : Deed) :
    Parallel options (scene.leave deed) (messages.leave deed) :=
  ⟨parallel.teller, parallel.modes, parallel.told, by rw [Step.leave, Step.leave, parallel.left]⟩

theorem trace (parallel : Parallel options scene messages) (category : Trace.Category) (message : String)
    (data : Json) :
    Parallel options (scene.trace category message data) (messages.trace category message data) :=
  parallel.leave _

theorem change (parallel : Parallel options scene messages) (update : Teller → Teller)
    (blind : ∀ teller, update (teller.staged options) = (update teller).staged options)
    (modes : TwoModes options (update messages.teller)) :
    Parallel options { scene with teller := update scene.teller }
      { messages with teller := update messages.teller } where
  teller := by rw [parallel.teller]; exact blind messages.teller
  modes := modes
  told := parallel.told
  left := parallel.left

theorem suspend (parallel : Parallel options scene messages) (wait : Wait) :
    Parallel options (scene.suspend wait) (messages.suspend wait) :=
  parallel.change (fun teller => { teller with status := wait.status, wait }) (fun _ => rfl)
    ⟨parallel.modes.scene, parallel.modes.messages, parallel.modes.branches, parallel.modes.unhurried⟩

theorem underWay (parallel : Parallel options scene messages) :
    Parallel options scene.underWay messages.underWay :=
  parallel.change (fun teller => { teller with status := .running }) (fun _ => rfl)
    ⟨parallel.modes.scene, parallel.modes.messages, parallel.modes.branches, parallel.modes.unhurried⟩

theorem hideTyping (parallel : Parallel options scene messages) :
    Parallel options scene.hideTyping messages.hideTyping := by
  have still : scene.hideTyping = scene := by
    rw [Step.hideTyping, parallel.teller]
    rfl
  have told : SameTelling scene.instructions messages.hideTyping.instructions := by
    have silent : spoken messages.hideTyping.instructions = spoken messages.instructions := by
      rw [Step.hideTyping]
      split
      · simp [Step.emit, spoken, Instruction.isTyping]
      · rfl
    rw [SameTelling, silent]
    exact parallel.told
  have deeds : messages.hideTyping.deeds = messages.deeds := by
    rw [Step.hideTyping]
    split <;> rfl
  rw [still]
  refine ⟨?_, ?_, told, parallel.left.trans deeds.symm⟩
  · rw [parallel.teller, Step.hideTyping_teller]
    rfl
  · rw [Step.hideTyping_teller]
    exact ⟨parallel.modes.scene, parallel.modes.messages, parallel.modes.branches, parallel.modes.unhurried⟩

theorem unlock (parallel : Parallel options scene messages) (clock : Nat → Instant) (entry : Entry) :
    Parallel options (scene.unlock clock entry) (messages.unlock clock entry) := by
  obtain ⟨_, instructions, deeds⟩ := scene
  obtain ⟨rfl, modes, told, rfl⟩ := parallel
  have kept := modes.of_withoutRecord (messages.unlock_withoutRecord clock entry)
  simp only [Step.unlock] at kept ⊢
  split
  · exact ⟨rfl, modes, told, rfl⟩
  · rename_i named
    rw [if_neg named] at kept
    have ledger : (messages.teller.staged options).ledger = messages.teller.ledger := rfl
    have readings : (messages.teller.staged options).readings = messages.teller.readings := rfl
    rw [ledger, readings]
    cases changed : (messages.teller.ledger.commit entry.unlocked (clock messages.teller.readings)).2 with
    | true =>
        simp only [changed, if_true] at kept ⊢
        exact ⟨rfl, kept, told, rfl⟩
    | false =>
        simp only [changed, Bool.false_eq_true, if_false] at kept ⊢
        exact ⟨rfl, kept, told, rfl⟩

theorem reach (parallel : Parallel options scene messages) (clock : Nat → Instant) (entry : Entry) :
    Parallel options (scene.reach clock entry) (messages.reach clock entry) := by
  have assets : scene.teller.assets = messages.teller.assets := by rw [parallel.teller]; rfl
  have mode : scene.teller.options.mode = .scene := by
    rw [parallel.teller]
    exact parallel.modes.scene
  rw [Step.reach, Step.reach, Step.unlock_scenery, Step.unlock_scenery, mode, parallel.modes.messages, assets]
  exact (parallel.unlock clock entry).emit (sameTelling_backdrop _ entry)

theorem stage (parallel : Parallel options scene messages) (entry : Entry) :
    Parallel options (scene.stage entry) (messages.stage entry) := by
  have mode : scene.teller.options.mode = .scene := by
    rw [parallel.teller]
    exact parallel.modes.scene
  have assets : scene.teller.assets = messages.teller.assets := by rw [parallel.teller]; rfl
  have scope : scene.teller.scope = messages.teller.scope := by rw [parallel.teller]; rfl
  rw [Step.stage, Step.stage, Teller.staging_eq, Teller.staging_eq, mode, parallel.modes.messages, assets, scope]
  exact parallel.emit (sameTelling_shown _ _ entry)

theorem judge (parallel : Parallel options scene messages) (branch : Branch) (depth : Nat) :
    (scene.judge branch depth).1 = (messages.judge branch depth).1 ∧
      Parallel options (scene.judge branch depth).2 (messages.judge branch depth).2 := by
  obtain ⟨_, instructions, deeds⟩ := scene
  obtain ⟨rfl, modes, told, rfl⟩ := parallel
  exact ⟨rfl, rfl, modes, told, rfl⟩

theorem offer (parallel : Parallel options scene messages) (choices : List Choice) :
    Parallel options (scene.offer choices) (messages.offer choices) := by
  have asked := parallel.change (fun teller => { teller with pending := choices }) (fun _ => rfl)
    ⟨parallel.modes.scene, parallel.modes.messages, parallel.modes.branches, parallel.modes.unhurried⟩
  have shown : SameTelling [.showChoices (choiceViews choices)] [.showChoices (choiceViews choices)] := rfl
  exact (asked.emit shown).suspend .choice

theorem showTyping (parallel : Parallel options scene messages) (next : Option Peek) :
    Parallel options (scene.showTyping next) (messages.showTyping next) := by
  have mode : scene.teller.options.mode = .scene := by
    rw [parallel.teller]
    exact parallel.modes.scene
  have still : scene.showTyping next = scene := by simp only [Step.showTyping, mode]
  rw [still]
  cases next with
  | none =>
      have same : messages.showTyping none = messages := by
        simp only [Step.showTyping, parallel.modes.messages]
      rwa [same]
  | some next =>
      have sign : SameTelling [] [.showTypingIndicator next.speaker.isNone] := rfl
      have told := parallel.told.append sign
      rw [List.append_nil] at told
      simp only [Step.showTyping, parallel.modes.messages]
      exact ⟨parallel.teller,
        ⟨parallel.modes.scene, parallel.modes.messages, parallel.modes.branches, parallel.modes.unhurried⟩,
        told, parallel.left⟩

theorem rest (parallel : Parallel options scene messages) (line : String) (next : Option Peek) :
    Parallel options (scene.rest line next) (messages.rest line next) := by
  have signed := parallel.showTyping next
  have waits : (messages.showTyping next).teller.goesOn next = false := by
    simp [Teller.goesOn, signed.modes.unhurried]
  have stands : (scene.showTyping next).teller.goesOn next = false := by
    rw [signed.teller]
    simp [Teller.goesOn, Teller.staged, signed.modes.unhurried]
  rw [Step.rest, Step.rest, if_neg (by simp [stands]), if_neg (by simp [waits])]
  exact signed.suspend .input

theorem pause? (parallel : Parallel options scene messages) (entry : Entry) (next : Option Peek) :
    Option.Rel (Parallel options) (scene.pause? entry next) (messages.pause? entry next) := by
  simp only [Step.pause?]
  split
  · cases entry.line? with
    | none => exact .none
    | some line => exact .some (parallel.rest line next)
  · exact .some (parallel.offer _)

theorem finish (parallel : Parallel options scene messages) :
    Parallel options scene.finish messages.finish := by
  have cancelled := parallel.change (fun teller => { teller with timer := teller.timer.cancel.2 }) (fun _ => rfl)
    ⟨parallel.modes.scene, parallel.modes.messages, parallel.modes.branches, parallel.modes.unhurried⟩
  have closing : SameTelling closing closing := rfl
  exact ((cancelled.hideTyping.emit closing).trace .engine "Story ended" .null).suspend .ended

end Parallel

/-! ## Turns and runs -/

inductive Turn.Parallel (options : Options) : Turn → Turn → Prop
  | onward {stack : Stack} {scene messages : Step} (parallel : Playback.Parallel options scene messages) :
      Parallel options (.onward stack scene) (.onward stack messages)
  | rest {stack : Stack} {scene messages : Step} (parallel : Playback.Parallel options scene messages) :
      Parallel options (.rest stack scene) (.rest stack messages)

section

variable {options : Options} {scene messages : Step}

theorem parallel_turn (clock : Nat → Instant) (stack : Stack) (parallel : Parallel options scene messages) :
    Turn.Parallel options (turn clock stack scene) (turn clock stack messages) := by
  cases stack with
  | nil => exact .rest parallel.finish
  | cons context below =>
      simp only [turn]
      cases context.next? with
      | none => exact .onward (parallel.trace _ _ _)
      | some found =>
          obtain ⟨index, entry⟩ := found
          have reached := parallel.reach clock entry
          simp only
          cases entry.branch with
          | some branch =>
              obtain ⟨same, judged⟩ := reached.judge branch (below.length + 1)
              have paced : ((scene.reach clock entry).judge branch (below.length + 1)).2.teller.options.branchPacing =
                  ((messages.reach clock entry).judge branch (below.length + 1)).2.teller.options.branchPacing := by
                rw [judged.teller]
                exact judged.modes.branches
              simp only [same, paced]
              split
              · exact .onward judged
              · split
                · exact .rest (judged.suspend .input)
                · exact .onward judged
          | none =>
              have staged := reached.stage entry
              have paused := staged.pause? entry (Stack.peek? (context.mark index :: below))
              simp only
              generalize ((scene.reach clock entry).stage entry).pause? entry _ = first at paused ⊢
              generalize ((messages.reach clock entry).stage entry).pause? entry _ = second at paused ⊢
              cases paused with
              | none => exact .onward staged
              | some parallel => exact .rest parallel

theorem parallel_run (clock : Nat → Instant) (stack : Stack) (parallel : Parallel options scene messages) :
    (run clock stack scene).1 = (run clock stack messages).1 ∧
      Parallel options (run clock stack scene).2 (run clock stack messages).2 := by
  induction stack, messages using run.induct clock generalizing scene with
  | case1 stack messages next after turned ih =>
      have turns := parallel_turn clock stack parallel
      rw [turned] at turns
      generalize also : turn clock stack scene = first at turns
      cases turns with
      | onward onward =>
          rw [run, run, turned, also]
          exact ih onward
  | case2 stack messages last paused turned =>
      have turns := parallel_turn clock stack parallel
      rw [turned] at turns
      generalize also : turn clock stack scene = first at turns
      cases turns with
      | rest rest =>
          rw [run, run, turned, also]
          exact ⟨rfl, rest⟩

end

/-! ## Calls -/

structure Alongside (options : Options) (scene messages : Playback) : Prop where
  stack : scene.stack = messages.stack
  teller : scene.teller = messages.teller.staged options
  modes : TwoModes options messages.teller

inductive SameAnswer : Option Reply → Option Reply → Prop
  | silent : SameAnswer none none
  | refused (cause : Rejection) (deeds : List Deed) :
      SameAnswer (some ⟨.error cause, deeds⟩) (some ⟨.error cause, deeds⟩)
  | told {shown sent : List Instruction} (same : SameTelling shown sent) (wait : Wait) (deeds : List Deed) :
      SameAnswer (some ⟨.ok ⟨shown, wait⟩, deeds⟩) (some ⟨.ok ⟨sent, wait⟩, deeds⟩)

/-- A call of a scene and a call of messages that come to the same. -/
structure Exchange.Alike (scene messages : Exchange) : Prop where
  call : scene.call = messages.call
  answer : SameAnswer scene.reply messages.reply
  stack : scene.after.stack = messages.after.stack
  status : scene.after.teller.status = messages.after.teller.status
  wait : scene.after.teller.wait = messages.after.teller.wait
  pending : scene.after.teller.pending = messages.after.teller.pending
  scope : scene.after.teller.scope = messages.after.teller.scope
  ledger : scene.after.teller.ledger = messages.after.teller.ledger

section

variable {options : Options} {scene messages : Playback} {clock : Nat → Instant}

theorem Alongside.timer (along : Alongside options scene messages) :
    scene.teller.timer = messages.teller.timer := by
  rw [along.teller]
  rfl

theorem Alongside.status (along : Alongside options scene messages) :
    scene.teller.status = messages.teller.status := by
  rw [along.teller]
  rfl

theorem Alongside.wait (along : Alongside options scene messages) :
    scene.teller.wait = messages.teller.wait := by
  rw [along.teller]
  rfl

theorem Alongside.pending (along : Alongside options scene messages) :
    scene.teller.pending = messages.teller.pending := by
  rw [along.teller]
  rfl

theorem Alongside.begin (along : Alongside options scene messages) (update : Teller → Teller)
    (blind : ∀ teller, update (teller.staged options) = (update teller).staged options)
    (modes : TwoModes options (update messages.teller)) :
    Parallel options { teller := update scene.teller } { teller := update messages.teller } :=
  have begun : Parallel options { teller := scene.teller } { teller := messages.teller } :=
    ⟨along.teller, along.modes, by rfl, rfl⟩
  begun.change update blind modes

theorem Alongside.opening (along : Alongside options scene messages) :
    Parallel options scene.opening messages.opening := by
  have name : scene.teller.storyName = messages.teller.storyName := by rw [along.teller]; rfl
  have autoplay : scene.teller.autoplay = messages.teller.autoplay := by rw [along.teller]; rfl
  have depth : scene.depth = messages.depth := congrArg List.length along.stack
  have title : ∀ name : Option String,
      let titles := (name.map fun name => Instruction.setTitle (name ++ " - " ++ applicationTitle)).toList
      SameTelling titles titles := by
    intro name
    cases name <;> rfl
  simp only [Playback.opening, name, autoplay, depth]
  exact ((along.begin id (fun _ => rfl) along.modes).trace _ _ _).emit (title _)

theorem Alongside.prompted (along : Alongside options scene messages) :
    Parallel options scene.prompted messages.prompted := by
  have cancelled := along.begin (fun teller => { teller with timer := teller.timer.cancel.2 }) (fun _ => rfl)
    ⟨along.modes.scene, along.modes.messages, along.modes.branches, along.modes.unhurried⟩
  have armed : scene.teller.timer.cancel = messages.teller.timer.cancel := by rw [along.timer]
  simp only [Playback.prompted, armed] at cancelled ⊢
  cases messages.teller.timer.cancel.1 with
  | none => exact cancelled.hideTyping
  | some token => exact (cancelled.trace _ _ _).hideTyping

theorem Alongside.elapsed (along : Alongside options scene messages) (timer : Timer) :
    Parallel options (scene.elapsed timer) (messages.elapsed timer) :=
  (along.begin (fun teller => { teller with timer }) (fun _ => rfl)
    ⟨along.modes.scene, along.modes.messages, along.modes.branches, along.modes.unhurried⟩).hideTyping

theorem Parallel.applyEffects {scene messages : Step} (parallel : Parallel options scene messages)
    (choice : Choice) : Parallel options (scene.applyEffects choice) (messages.applyEffects choice) := by
  have scope : scene.teller.scope = messages.teller.scope := by rw [parallel.teller]; rfl
  cases given : choice.effects with
  | none => simpa only [Step.applyEffects, given] using parallel
  | some effects =>
      simp only [Step.applyEffects, given]
      split
      · exact parallel
      · have applied := parallel.change
          (fun teller => { teller with scope := (messages.teller.scope.apply effects).1 }) (fun _ => rfl)
          ⟨parallel.modes.scene, parallel.modes.messages, parallel.modes.branches, parallel.modes.unhurried⟩
        rw [scope]
        exact (applied.leave _).trace _ _ _

theorem Alongside.chosen (along : Alongside options scene messages) (index : Nat) (choice : Choice) :
    Parallel options (scene.chosen index choice) (messages.chosen index choice) := by
  have emptied := along.begin (fun teller => { teller with pending := [] }) (fun _ => rfl)
    ⟨along.modes.scene, along.modes.messages, along.modes.branches, along.modes.unhurried⟩
  have selected : SameTelling [.choiceSelected index choice.text] [.choiceSelected index choice.text] := rfl
  have toast : ∀ text : Option String,
      let toasts := (text.map Instruction.showToast).toList
      SameTelling toasts toasts := by
    intro text
    cases text <;> rfl
  exact ((emptied.emit selected).applyEffects choice).emit (toast _)

def SameOutcome (options : Options) (scene messages : Playback × Reply) : Prop :=
  Alongside options scene.1 messages.1 ∧ SameAnswer (some scene.2) (some messages.2)

theorem Alongside.resume (along : Alongside options scene messages) {first second : Step}
    (parallel : Parallel options first second) :
    SameOutcome options (scene.resume clock first) (messages.resume clock second) := by
  obtain ⟨stack, ran⟩ := parallel_run clock messages.stack parallel.underWay
  have wait : (run clock messages.stack first.underWay).2.teller.wait =
      (run clock messages.stack second.underWay).2.teller.wait := by
    rw [ran.teller]
    rfl
  simp only [Playback.resume, along.stack, wait, ran.left]
  exact ⟨⟨stack, ran.teller, ran.modes⟩, .told ran.told _ _⟩

theorem Alongside.reject (along : Alongside options scene messages) (cause : Rejection) :
    SameOutcome options (scene.reject cause) (messages.reject cause) :=
  ⟨along, .refused cause []⟩

theorem Alongside.ignore (along : Alongside options scene messages) (trace : Trace) :
    SameOutcome options (scene.ignore trace) (messages.ignore trace) := by
  have silence : SameTelling [] [] := rfl
  simp only [Playback.ignore, along.wait]
  exact ⟨along, .told silence _ _⟩

theorem Alongside.start (along : Alongside options scene messages) :
    SameOutcome options (scene.start clock) (messages.start clock) := by
  simp only [Playback.start, along.status]
  split
  · exact along.reject _
  · exact along.resume along.opening

theorem Alongside.handle (along : Alongside options scene messages) (event : Event) :
    SameOutcome options (scene.handle clock event) (messages.handle clock event) := by
  cases event with
  | advance =>
      simp only [Playback.handle, Playback.advance, along.status]
      split
      · exact along.reject _
      · exact along.reject _
      · exact along.ignore _
      all_goals exact along.resume along.prompted
  | timerElapsed token =>
      simp only [Playback.handle, Playback.timerElapsed, along.status, along.timer]
      split
      · exact along.reject _
      · split
        · exact along.resume (along.elapsed _)
        · exact along.ignore _
      · exact along.ignore _
  | choose index =>
      simp only [Playback.handle, Playback.choose, along.status, along.pending]
      split
      · exact along.reject _
      · exact along.reject _
      · split
        · exact along.reject _
        · exact along.resume (along.chosen index _)
      · exact along.reject _

theorem Alongside.ask (along : Alongside options scene messages) (clock : Nat → Instant) {call : Call}
    (manual : call ≠ .setAutoplay true) :
    Alongside options (scene.ask clock call).1 (messages.ask clock call).1 ∧
      SameAnswer (scene.ask clock call).2 (messages.ask clock call).2 := by
  cases call with
  | start => exact along.start
  | event event => exact along.handle event
  | setAutoplay autoplay =>
      cases autoplay with
      | true => exact absurd rfl manual
      | false =>
          refine ⟨⟨along.stack, ?_, ?_⟩, .silent⟩
          · simp only [Playback.ask, setAutoplay, along.teller]
            rfl
          · exact ⟨along.modes.scene, along.modes.messages, along.modes.branches, rfl⟩
  | peek => exact ⟨along, .silent⟩

theorem Alongside.transcript (along : Alongside options scene messages) {calls : List Call}
    (manual : .setAutoplay true ∉ calls) :
    List.Forall₂ Exchange.Alike (scene.transcript clock calls) (messages.transcript clock calls) := by
  induction calls generalizing scene messages with
  | nil => exact .nil
  | cons call later ih =>
      rw [List.mem_cons, not_or] at manual
      obtain ⟨after, answer⟩ := along.ask clock (Ne.symm manual.1)
      exact .cons
        ⟨rfl, answer, after.stack, after.status, after.wait, after.pending,
          congrArg (·.scope) after.teller, congrArg (·.ledger) after.teller⟩
        (ih after manual.2)

end

/-! ## Scenes and messages -/

def Setup.inMode (setup : Setup) (mode : Mode) (pacing : Pacing) : Setup :=
  { setup with options := { setup.options with mode, pacing }, autoplay := false }

/-- As long as autoplay stays off, a scene and messages take and refuse the same calls, tell the same but for
staging, faces and signs of typing, and stand alike after each call. -/
theorem modes_tell_alike (setup : Setup) (scenePace messagePace : Pacing) (story : Story)
    (clock : Nat → Instant) (calls : List Call) (manual : .setAutoplay true ∉ calls) :
    List.Forall₂ Exchange.Alike
      (((setup.inMode .scene scenePace).playback story).transcript clock calls)
      (((setup.inMode .texting messagePace).playback story).transcript clock calls) := by
  have along : Alongside (setup.inMode .scene scenePace).options
      ((setup.inMode .scene scenePace).playback story) ((setup.inMode .texting messagePace).playback story) :=
    ⟨rfl, rfl, ⟨rfl, rfl, rfl, rfl⟩⟩
  exact along.transcript manual

theorem greeting_tells_alike :
    let greeting : Entry :=
      { Entry.line (some "Bea") "Hello" with background := some "park", sfx := some "birds" }
    let aside : Entry :=
      { Entry.blank with branch := some ⟨"affection.Bea > 2", [Entry.line none "She smiles."]⟩ }
    let choice : Entry := { Entry.blank with responses := some [{ text := "Wave" }] }
    let story := [greeting, aside, choice]
    let calls : List Call := [.start, .event (.choose 0), .event .advance, .event (.choose 0)]
    .setAutoplay true ∉ calls ∧
      List.Forall₂ Exchange.Alike
        (((Setup.inMode {} .scene .scene).playback story).transcript default calls)
        (((Setup.inMode {} .texting .texting).playback story).transcript default calls) := by
  intro greeting aside choice story calls
  have manual : .setAutoplay true ∉ calls := by simp [calls]
  exact ⟨manual, modes_tell_alike {} .scene .texting story default calls manual⟩

end Playback
end BranchingStory
