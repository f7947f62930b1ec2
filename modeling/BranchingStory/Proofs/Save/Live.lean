import BranchingStory.Proofs.Playback.Course
import BranchingStory.Save.Deeds

/-!
Playback that does its deeds as it goes. It writes to the save and tells its traces in the middle of a step,
and looks at what comes of each write. Whatever comes of them, it goes on as playback that leaves its deeds
to be done later.
-/

namespace BranchingStory

namespace Playback

def Exchange.deeds (exchange : Exchange) : List Deed := (exchange.reply.map (·.deeds)).getD []

def Exchange.seen (exchange : Exchange) : Call × Option (Except Rejection Outcome) × Playback :=
  (exchange.call, exchange.reply.map (·.result), exchange.after)

end Playback

namespace Save

open Playback (Teller Step Stack Deed Call Exchange Instruction Peek Rejection Outcome)

structure Surroundings (σ τ : Type) where
  backend : Backend σ
  listen : τ → Trace → τ

structure World (σ τ : Type) where
  saved : σ
  heard : τ

structure Live (σ τ : Type) where
  teller : Teller
  instructions : List Instruction
  world : World σ τ

/-- Effects as far as they are applied. The first failure to write is kept. -/
structure Applied (σ : Type) where
  scope : Variables
  saved : σ
  failure : Option Error := none

/-! ## Effects, each written as it is applied -/

namespace Backend

variable {σ : Type} (backend : Backend σ)

def applyChange (applied : Applied σ) (name : String) (change : Json) : Applied σ :=
  match change.float? with
  | none => applied
  | some change =>
      let scope := applied.scope.setAffection name (applied.scope.affectionOf name + change)
      match backend.saveAffection applied.saved scope.affection with
      | (.ok (), saved) => { applied with scope, saved }
      | (.error cause, saved) => { scope, saved, failure := applied.failure.or (some cause) }

def applyChanges (applied : Applied σ) : Members → Applied σ
  | [] => applied
  | (name, change) :: rest => applyChanges (backend.applyChange applied name change) rest

def applyEffect (applied : Applied σ) (name : String) (value : Json) : Applied σ :=
  if name = affectionName then
    match value with
    | .object changes => backend.applyChanges applied changes
    | _ => applied
  else { applied with scope := applied.scope.set name value }

def applyEffects (applied : Applied σ) : Members → Applied σ
  | [] => applied
  | (name, value) :: rest => applyEffects (backend.applyEffect applied name value) rest

end Backend

/-! ## Steps -/

namespace Surroundings

variable {σ τ : Type} (around : Surroundings σ τ)

def hear (world : World σ τ) (trace : Trace) : World σ τ :=
  { world with heard := around.listen world.heard trace }

def perform (world : World σ τ) (deed : Deed) : World σ τ :=
  let (saved, traces) := around.backend.perform world.saved deed
  traces.foldl around.hear { world with saved }

def performAll (world : World σ τ) (deeds : List Deed) : World σ τ := deeds.foldl around.perform world

def live (world : World σ τ) (step : Step) : Live σ τ :=
  ⟨step.teller, step.instructions, around.performAll world step.deeds⟩

/-- A part of a step that looks at nothing that is written: its deeds are done as soon as it is over. -/
def act (part : Step → Step) (now : Live σ τ) : Live σ τ :=
  around.live now.world (part ⟨now.teller, now.instructions, []⟩)

def unlock (now : Live σ τ) (clock : Nat → Instant) (entry : Entry) : Live σ τ :=
  let unlocks := entry.unlocked
  if unlocks.isEmpty then now
  else
    let teller := now.teller
    let (ledger, changed) := teller.ledger.commit unlocks (clock teller.readings)
    let after := { teller with ledger, readings := teller.readings + 1 }
    if changed then
      let world := around.hear now.world
        { category := .storage
          message := "Saving unlocks"
          data := .object [("categories", .array (unlocks.keys.map .string))] }
      let world := match around.backend.saveUnlocks world.saved ledger with
        | (.ok (), saved) => { world with saved }
        | (.error cause, saved) =>
            around.hear { world with saved } (failureTrace "Failed to persist unlocks" cause)
      { now with teller := after, world }
    else { now with teller := after }

def reach (now : Live σ τ) (clock : Nat → Instant) (entry : Entry) : Live σ τ :=
  around.act (fun step => step.emit (step.teller.scenery entry)) (around.unlock now clock entry)

def pause? (now : Live σ τ) (entry : Entry) (next : Option Peek) : Option (Live σ τ) :=
  match entry.choices with
  | [] => entry.line?.map fun line => around.act (fun step => step.rest line next) now
  | choices => some (around.act (fun step => step.offer choices) now)

def applyEffects (now : Live σ τ) (choice : Choice) : Live σ τ :=
  match choice.effects with
  | none => now
  | some effects =>
      if effects.isEmpty then now
      else
        let applied := around.backend.applyEffects ⟨now.teller.scope, now.world.saved, none⟩ effects.members
        let world := { now.world with saved := applied.saved }
        let world := match applied.failure with
          | none => world
          | some cause => around.hear world (failureTrace "Failed to persist choice effects" cause)
        let world := around.hear world
          { category := .values
            message := "Applied choice effects"
            data := .object
              [("choice", .string choice.text),
               ("affection", (applied.scope.get? affectionName).getD .null)] }
        { now with teller := { now.teller with scope := applied.scope }, world }

/-! ## Runs -/

inductive Turn (σ τ : Type)
  | onward (stack : Stack) (now : Live σ τ)
  | rest (stack : Stack) (now : Live σ τ)

def turn (clock : Nat → Instant) : Stack → Live σ τ → Turn σ τ
  | [], now => .rest [] (around.act Step.finish now)
  | context :: below, now =>
      let depth := below.length + 1
      match context.next? with
      | none => .onward below (around.act (fun step => step.exhaust depth) now)
      | some (index, entry) =>
          let told := context.mark index :: below
          let now := around.reach now clock entry
          match entry.branch with
          | some branch =>
              let taken := (Condition.judge branch.condition now.teller.scope.bindings).1
              let now := around.act (fun step => (step.judge branch depth).2) now
              if taken then .onward (.start branch.story :: told) now
              else if depth = 1 ∧ now.teller.options.branchPacing = .awaitInputAtRoot then
                .rest told (around.act (fun step => step.suspend .input) now)
              else .onward told now
          | none =>
              let now := around.act (fun step => step.stage entry) now
              match around.pause? now entry (Stack.peek? told) with
              | some now => .rest told now
              | none => .onward told now

/-! ### Steps that leave their deeds, and steps that do them -/

def bare (step : Step) : Step := ⟨step.teller, step.instructions, []⟩

def following (deeds : List Deed) (step : Step) : Step :=
  ⟨step.teller, step.instructions, deeds ++ step.deeds⟩

def Adds (part : Step → Step) : Prop := ∀ step, part step = following step.deeds (part (bare step))

theorem performAll_append (world : World σ τ) (deeds more : List Deed) :
    around.performAll world (deeds ++ more) = around.performAll (around.performAll world deeds) more :=
  List.foldl_append

theorem live_of_adds {part : Step → Step} (adds : Adds part) (world : World σ τ) (step : Step) :
    around.live world (part step) = around.act part (around.live world step) := by
  change _ = around.live (around.performAll world step.deeds) (part (bare step))
  rw [adds step]
  exact congrArg (Live.mk _ _) (around.performAll_append world step.deeds _)

theorem adds_emit (instructions : Teller → List Instruction) :
    Adds fun step => step.emit (instructions step.teller) := by
  intro step
  simp [bare, following, Step.emit]

theorem adds_suspend (wait : Playback.Wait) : Adds fun step => step.suspend wait := by
  intro step
  simp [bare, following, Step.suspend]

theorem adds_exhaust (depth : Nat) : Adds fun step => step.exhaust depth := by
  intro step
  simp [bare, following, Step.exhaust, Step.trace, Step.leave]

theorem adds_judge (branch : Branch) (depth : Nat) : Adds fun step => (step.judge branch depth).2 := by
  intro step
  simp only [bare, following, Step.judge, Step.trace, Step.leave, List.nil_append, List.append_assoc]
  rfl

theorem adds_stage (entry : Entry) : Adds fun step => step.stage entry :=
  adds_emit fun teller => teller.staging entry

theorem adds_offer (choices : List Choice) : Adds fun step => step.offer choices := by
  intro step
  simp [bare, following, Step.offer, Step.emit, Step.suspend]

theorem adds_underWay : Adds Step.underWay := by
  intro step
  simp [bare, following, Step.underWay]

theorem adds_finish : Adds Step.finish := by
  intro step
  by_cases typing : step.teller.typing = true
  · simp [bare, following, Step.finish, Step.hideTyping, Step.emit, Step.trace, Step.leave, Step.suspend,
      typing]
  · simp [bare, following, Step.finish, Step.hideTyping, Step.emit, Step.trace, Step.leave, Step.suspend,
      typing]

theorem Adds.comp {first second : Step → Step} (adds : Adds first) (then_adds : Adds second) :
    Adds fun step => second (first step) := by
  intro step
  have same : bare (first step) = bare (first (bare step)) := by
    rw [adds step]
    rfl
  have deeds : (first step).deeds = step.deeds ++ (first (bare step)).deeds := by
    rw [adds step]
    rfl
  calc second (first step) = following (first step).deeds (second (bare (first step))) := then_adds _
    _ = following step.deeds (following (first (bare step)).deeds (second (bare (first (bare step))))) := by
      rw [same, deeds, following, following, List.append_assoc]
      rfl
    _ = following step.deeds (second (first (bare step))) := by rw [← then_adds]

theorem adds_showTyping (next : Option Peek) : Adds fun step => step.showTyping next := by
  intro step
  cases mode : step.teller.options.mode <;> cases next <;>
    simp [bare, following, Step.showTyping, mode, Step.emit]

def pace (line : String) (next : Option Peek) (step : Step) : Step :=
  if step.teller.goesOn next then
    (({ step with teller := { step.teller with timer := step.teller.timer.arm.2 } }).trace .engine
      "Armed autoplay timer"
      (.object
        [("token", .ofNat step.teller.timer.arm.1),
         ("delayMs", .ofNat (step.teller.options.pacing.delay line))])).suspend
      (.timer step.teller.timer.arm.1 (step.teller.options.pacing.delay line))
  else step.suspend .input

theorem adds_pace (line : String) (next : Option Peek) : Adds (pace line next) := by
  intro step
  by_cases goes : step.teller.goesOn next = true
  · simp [bare, following, pace, Step.trace, Step.leave, Step.suspend, goes]
  · simp [bare, following, pace, Step.suspend, goes]

theorem adds_rest (line : String) (next : Option Peek) : Adds fun step => step.rest line next :=
  (adds_showTyping next).comp (adds_pace line next)

end Surroundings

/-! ### Effects and unlocks -/

def Kept.applied {σ : Type} (kept : Kept σ) (scope : Variables) : Applied σ := ⟨scope, kept.saved, kept.failure⟩

namespace Backend

variable {σ : Type} (backend : Backend σ) (kept : Kept σ) (scope : Variables)

theorem applyChange_eq (name : String) (change : Json) :
    backend.applyChange (kept.applied scope) name change =
      (backend.follow kept (scope.applyChange name change).2).applied (scope.applyChange name change).1 := by
  simp only [applyChange, Kept.applied, Variables.applyChange]
  cases change.float? with
  | none => rfl
  | some change =>
      simp only [follow]
      generalize backend.saveAffection kept.saved _ = outcome
      obtain ⟨cause | done, saved⟩ := outcome
      · rfl
      · rfl

theorem applyChanges_eq (changes : Members) :
    backend.applyChanges (kept.applied scope) changes =
      ((scope.applyChanges changes).2.foldl backend.follow kept).applied (scope.applyChanges changes).1 := by
  induction changes generalizing kept scope with
  | nil => rfl
  | cons first rest ih =>
      rw [applyChanges, applyChange_eq, ih]
      rfl

theorem applyEffect_eq (name : String) (value : Json) :
    backend.applyEffect (kept.applied scope) name value =
      ((scope.applyEffect name value).2.foldl backend.follow kept).applied
        (scope.applyEffect name value).1 := by
  by_cases affects : name = affectionName
  · simp only [applyEffect, Variables.applyEffect, if_pos affects]
    cases value with
    | object changes => exact applyChanges_eq backend kept scope changes
    | _ => rfl
  · simp only [applyEffect, Variables.applyEffect, if_neg affects]
    rfl

theorem applyEffects_eq (members : Members) :
    backend.applyEffects (kept.applied scope) members =
      ((scope.applyAll members).2.foldl backend.follow kept).applied (scope.applyAll members).1 := by
  induction members generalizing kept scope with
  | nil => rfl
  | cons first rest ih =>
      rw [applyEffects, applyEffect_eq, ih, ← List.foldl_append]
      rfl

end Backend

namespace Surroundings

variable {σ τ : Type} (around : Surroundings σ τ)

theorem live_leave (world : World σ τ) (step : Step) (deed : Deed) :
    around.live world (step.leave deed) =
      { around.live world step with world := around.perform (around.live world step).world deed } :=
  congrArg (Live.mk step.teller step.instructions) (around.performAll_append world step.deeds [deed])

theorem perform_keepEffects (world : World σ τ) (consequences : List Variables.Consequence) :
    around.perform world (.keepEffects consequences) =
      match (around.backend.keep world.saved consequences).failure with
      | none => { world with saved := (around.backend.keep world.saved consequences).saved }
      | some cause =>
          around.hear { world with saved := (around.backend.keep world.saved consequences).saved }
            (failureTrace "Failed to persist choice effects" cause) := by
  simp only [perform, Backend.perform]
  split
  · rename_i safe
    simp [safe]
  · rename_i cause failed
    simp [failed]

theorem perform_keepUnlocks (world : World σ τ) (ledger : Ledger) :
    around.perform world (.keepUnlocks ledger) =
      match around.backend.saveUnlocks world.saved ledger with
      | (.ok (), saved) => { world with saved }
      | (.error cause, saved) =>
          around.hear { world with saved } (failureTrace "Failed to persist unlocks" cause) := by
  simp only [perform, Backend.perform]
  generalize around.backend.saveUnlocks world.saved ledger = outcome
  obtain ⟨cause | done, saved⟩ := outcome
  · rfl
  · rfl

theorem live_applyEffects (world : World σ τ) (step : Step) (choice : Choice) :
    around.live world (step.applyEffects choice) =
      around.applyEffects (around.live world step) choice := by
  simp only [Step.applyEffects, applyEffects]
  cases choice.effects with
  | none => rfl
  | some effects =>
      by_cases empty : effects.isEmpty = true
      · simp only [empty, if_true]
      · have applied : around.backend.applyEffects
            ⟨(around.live world step).teller.scope, (around.live world step).world.saved, none⟩
              effects.members =
            (around.backend.keep (around.live world step).world.saved
              (step.teller.scope.apply effects).2).applied (step.teller.scope.apply effects).1 :=
          around.backend.applyEffects_eq { saved := (around.live world step).world.saved }
            step.teller.scope effects.members
        simp only [empty, Bool.false_eq_true, if_false, Step.trace, live_leave, perform_keepEffects, applied]
        rfl

theorem live_unlock (world : World σ τ) (step : Step) (clock : Nat → Instant) (entry : Entry) :
    around.live world (step.unlock clock entry) = around.unlock (around.live world step) clock entry := by
  simp only [Step.unlock, unlock]
  by_cases empty : entry.unlocked.isEmpty = true
  · simp only [empty, if_true]
  · simp only [empty, Bool.false_eq_true, if_false]
    have same : (around.live world step).teller = step.teller := rfl
    rw [same]
    cases (step.teller.ledger.commit entry.unlocked (clock step.teller.readings)).2 with
    | true =>
        simp only [if_true, Step.trace, live_leave, perform_keepUnlocks]
        rfl
    | false => rfl

/-! ### Turns and runs -/

def ofTurn (world : World σ τ) : Playback.Turn → Turn σ τ
  | .onward stack step => .onward stack (around.live world step)
  | .rest stack step => .rest stack (around.live world step)

theorem live_reach (world : World σ τ) (step : Step) (clock : Nat → Instant) (entry : Entry) :
    around.live world (step.reach clock entry) = around.reach (around.live world step) clock entry := by
  rw [reach, ← live_unlock, ← around.live_of_adds (adds_emit fun teller => teller.scenery entry)]
  rfl

theorem live_pause? (world : World σ τ) (step : Step) (entry : Entry) (next : Option Peek) :
    (step.pause? entry next).map (around.live world) =
      around.pause? (around.live world step) entry next := by
  simp only [Step.pause?, pause?]
  cases entry.choices with
  | nil =>
      cases entry.line? with
      | none => rfl
      | some line => exact congrArg some (around.live_of_adds (adds_rest line next) world step)
  | cons first rest => exact congrArg some (around.live_of_adds (adds_offer _) world step)

theorem turn_live (clock : Nat → Instant) (world : World σ τ) (stack : Stack) (step : Step) :
    around.turn clock stack (around.live world step) =
      around.ofTurn world (Playback.turn clock stack step) := by
  cases stack with
  | nil => exact congrArg (Turn.rest []) (around.live_of_adds adds_finish world step).symm
  | cons context below =>
      simp only [turn, Playback.turn]
      cases context.next? with
      | none => exact congrArg (Turn.onward below) (around.live_of_adds (adds_exhaust _) world step).symm
      | some found =>
          obtain ⟨index, entry⟩ := found
          simp only [← live_reach]
          cases entry.branch with
          | some branch =>
              simp only [← around.live_of_adds (adds_judge branch _), ← around.live_of_adds (adds_suspend _)]
              cases judgement : (step.reach clock entry).judge branch (below.length + 1) with
              | mk taken judged =>
                  have verdict : (Condition.judge branch.condition
                      (around.live world (step.reach clock entry)).teller.scope.bindings).1 = taken :=
                    (Step.judge_eq judgement).1.symm
                  simp only [verdict]
                  split
                  · rfl
                  · by_cases root : below.length + 1 = 1 ∧
                        judged.teller.options.branchPacing = .awaitInputAtRoot
                    · rw [if_pos root]
                      exact if_pos root
                    · rw [if_neg root]
                      exact if_neg root
          | none =>
              simp only [← around.live_of_adds (adds_stage entry), ← live_pause?]
              cases (step.reach clock entry |>.stage entry).pause? entry
                (Stack.peek? (context.mark index :: below)) <;> rfl

theorem live_bare (now : Live σ τ) :
    around.live now.world ⟨now.teller, now.instructions, []⟩ = now := rfl

theorem turnsLeft_lt_of_turn {clock : Nat → Instant} {stack next : Stack} {now after : Live σ τ}
    (turned : around.turn clock stack now = .onward next after) : next.turnsLeft < stack.turnsLeft := by
  -- A step that is live is also one that has left nothing to be done.
  rw [← around.live_bare now, turn_live] at turned
  cases plain : Playback.turn clock stack ⟨now.teller, now.instructions, []⟩ with
  | onward other step =>
      rw [plain] at turned
      obtain ⟨rfl, _⟩ := Turn.onward.inj turned
      exact Stack.turnsLeft_lt_of_turn plain
  | rest other step =>
      rw [plain] at turned
      exact absurd turned (by simp [ofTurn])

def run (clock : Nat → Instant) (stack : Stack) (now : Live σ τ) : Stack × Live σ τ :=
  match _turned : around.turn clock stack now with
  | .onward next after => run clock next after
  | .rest stack now => (stack, now)
termination_by stack.turnsLeft
decreasing_by exact around.turnsLeft_lt_of_turn _turned

theorem run_live (clock : Nat → Instant) (world : World σ τ) (stack : Stack) (step : Step) :
    around.run clock stack (around.live world step) =
      ((Playback.run clock stack step).1, around.live world (Playback.run clock stack step).2) := by
  induction stack, step using Playback.run.induct clock with
  | case1 stack step next after turned ih =>
      have live := around.turn_live clock world stack step
      rw [turned] at live
      rw [run, live, Playback.run, turned]
      exact ih
  | case2 stack step last paused turned =>
      have live := around.turn_live clock world stack step
      rw [turned] at live
      rw [run, live, Playback.run, turned]
      rfl

/-! ## Calls -/

abbrev Result := Option (Except Rejection Outcome)

def resume (playback : Playback) (clock : Nat → Instant) (now : Live σ τ) :
    Playback × World σ τ × Result :=
  let (stack, now) := around.run clock playback.stack (around.act Step.underWay now)
  (⟨stack, now.teller⟩, now.world, some (.ok ⟨now.instructions, now.teller.wait⟩))

def reject (playback : Playback) (world : World σ τ) (cause : Rejection) : Playback × World σ τ × Result :=
  (playback, world, some (.error cause))

def ignore (playback : Playback) (world : World σ τ) (trace : Trace) : Playback × World σ τ × Result :=
  (playback, around.hear world trace, some (.ok ⟨[], playback.teller.wait⟩))

def chosen (playback : Playback) (world : World σ τ) (index : Nat) (choice : Choice) : Live σ τ :=
  around.act (fun step => step.emit (choice.toastText?.map .showToast).toList)
    (around.applyEffects ⟨{ playback.teller with pending := [] }, [.choiceSelected index choice.text], world⟩
      choice)

def advance (playback : Playback) (clock : Nat → Instant) (world : World σ τ) :
    Playback × World σ τ × Result :=
  match playback.teller.status with
  | .idle => reject playback world .notStarted
  | .ended => reject playback world .finished
  | .awaitingChoice => around.ignore playback world
      { category := .flow, message := "Ignoring advance while a choice is pending", data := .null }
  | .running | .awaitingInput | .awaitingTimer =>
      around.resume playback clock (around.live world playback.prompted)

def timerElapsed (playback : Playback) (clock : Nat → Instant) (world : World σ τ)
    (token : Playback.TimerToken) : Playback × World σ τ × Result :=
  let stale := around.ignore playback world
    { category := .engine
      message := "Ignoring stale autoplay timer"
      data := .object [("token", .ofNat token)] }
  match playback.teller.status with
  | .idle => reject playback world .notStarted
  | .awaitingTimer =>
      match playback.teller.timer.fire? token with
      | some timer => around.resume playback clock (around.live world (playback.elapsed timer))
      | none => stale
  | _ => stale

def choose (playback : Playback) (clock : Nat → Instant) (world : World σ τ) (index : Nat) :
    Playback × World σ τ × Result :=
  match playback.teller.status with
  | .idle => reject playback world .notStarted
  | .ended => reject playback world .finished
  | .awaitingChoice =>
      match playback.teller.pending[index]? with
      | none => reject playback world (.invalidChoice index playback.teller.pending.length)
      | some choice => around.resume playback clock (around.chosen playback world index choice)
  | _ => reject playback world .notAwaitingChoice

def ask (playback : Playback) (clock : Nat → Instant) (world : World σ τ) :
    Call → Playback × World σ τ × Result
  | .start =>
      if playback.teller.status ≠ .idle then reject playback world .alreadyStarted
      else around.resume playback clock (around.live world playback.opening)
  | .event .advance => around.advance playback clock world
  | .event (.timerElapsed token) => around.timerElapsed playback clock world token
  | .event (.choose index) => around.choose playback clock world index
  | .setAutoplay autoplay => (playback.setAutoplay autoplay, world, none)
  | .peek => (playback, world, none)

theorem resume_live (playback : Playback) (clock : Nat → Instant) (world : World σ τ) (step : Step) :
    around.resume playback clock (around.live world step) =
      ((playback.resume clock step).1, around.performAll world (playback.resume clock step).2.deeds,
        some (playback.resume clock step).2.result) := by
  rw [resume, ← around.live_of_adds adds_underWay, run_live]
  rfl

theorem chosen_live (playback : Playback) (world : World σ τ) (index : Nat) (choice : Choice) :
    around.chosen playback world index choice = around.live world (playback.chosen index choice) := by
  rw [chosen]
  have applied := around.live_applyEffects world
    ⟨{ playback.teller with pending := [] }, [.choiceSelected index choice.text], []⟩ choice
  have shown := around.live_of_adds (adds_emit fun _ => (choice.toastText?.map .showToast).toList) world
    (Step.applyEffects ⟨{ playback.teller with pending := [] }, [.choiceSelected index choice.text], []⟩ choice)
  rw [applied] at shown
  exact shown.symm

def carryOut (world : World σ τ) (answer : Playback × Option Playback.Reply) : Playback × World σ τ × Result :=
  (answer.1, around.performAll world ((answer.2.map (·.deeds)).getD []), answer.2.map (·.result))

theorem ask_live (playback : Playback) (clock : Nat → Instant) (world : World σ τ) (call : Call) :
    around.ask playback clock world call = around.carryOut world (playback.ask clock call) := by
  cases call with
  | start =>
      simp only [ask, Playback.ask, Playback.start]
      split
      · rfl
      · exact around.resume_live playback clock world _
  | event event =>
      cases event with
      | advance =>
          simp only [ask, advance, Playback.ask, Playback.handle, Playback.advance]
          cases playback.teller.status with
          | running | awaitingInput | awaitingTimer => exact around.resume_live playback clock world _
          | idle | ended | awaitingChoice => rfl
      | timerElapsed token =>
          simp only [ask, timerElapsed, Playback.ask, Playback.handle, Playback.timerElapsed]
          cases playback.teller.status with
          | awaitingTimer =>
              cases playback.teller.timer.fire? token with
              | some timer => exact around.resume_live playback clock world _
              | none => rfl
          | idle | running | awaitingInput | awaitingChoice | ended => rfl
      | choose index =>
          simp only [ask, choose, Playback.ask, Playback.handle, Playback.choose]
          cases playback.teller.status with
          | awaitingChoice =>
              cases playback.teller.pending[index]? with
              | some choice =>
                  simp only [chosen_live]
                  exact around.resume_live playback clock world _
              | none => rfl
          | idle | running | awaitingInput | awaitingTimer | ended => rfl
  | setAutoplay autoplay => rfl
  | peek => rfl

/-! ## Courses -/

/-- What a host sees call after call, and what has become of the surroundings in the end. -/
def course (playback : Playback) (clock : Nat → Instant) (world : World σ τ) :
    List Call → List (Call × Result × Playback) × World σ τ
  | [] => ([], world)
  | call :: later =>
      let (after, world, result) := around.ask playback clock world call
      let (exchanges, last) := course after clock world later
      ((call, result, after) :: exchanges, last)

theorem course_live (playback : Playback) (clock : Nat → Instant) (world : World σ τ) (calls : List Call) :
    around.course playback clock world calls =
      ((playback.transcript clock calls).map Exchange.seen,
        around.performAll world ((playback.transcript clock calls).flatMap Exchange.deeds)) := by
  induction calls generalizing playback world with
  | nil => rfl
  | cons call later ih =>
      rw [course, ask_live, carryOut]
      simp only [ih, Playback.transcript, List.map_cons, List.flatMap_cons, performAll_append]
      rfl

theorem foldl_hear (world : World σ τ) (traces : List Trace) :
    traces.foldl around.hear world = ⟨world.saved, traces.foldl around.listen world.heard⟩ := by
  induction traces generalizing world with
  | nil => rfl
  | cons first rest ih => exact ih _

theorem performAll_eq (world : World σ τ) (deeds : List Deed) :
    around.performAll world deeds =
      ⟨(around.backend.performAll world.saved deeds).1,
        (around.backend.performAll world.saved deeds).2.foldl around.listen world.heard⟩ := by
  induction deeds generalizing world with
  | nil => rfl
  | cons deed rest ih =>
      rw [performAll, List.foldl_cons]
      change around.performAll (around.perform world deed) rest = _
      have first : around.perform world deed = ⟨(around.backend.perform world.saved deed).1,
          (around.backend.perform world.saved deed).2.foldl around.listen world.heard⟩ :=
        around.foldl_hear _ _
      rw [ih, first]
      simp only [Backend.performAll, List.foldl_append]

end Surroundings

/-- Nothing that becomes of a write or a trace has a say in playback. In whatever surroundings, a host sees the
same of every call, and in the end everything that playback left to be done has been done. -/
theorem surroundings_have_no_say {σ τ σ' τ' : Type} (around : Surroundings σ τ)
    (other : Surroundings σ' τ') (playback : Playback) (clock : Nat → Instant) (world : World σ τ)
    (elsewhere : World σ' τ') (calls : List Call) :
    (around.course playback clock world calls).1 = (other.course playback clock elsewhere calls).1 ∧
      (around.course playback clock world calls).1 =
        (playback.transcript clock calls).map Exchange.seen ∧
      (around.course playback clock world calls).2.saved =
        (around.backend.performAll world.saved
          ((playback.transcript clock calls).flatMap Exchange.deeds)).1 ∧
      (around.course playback clock world calls).2.heard =
        (around.backend.performAll world.saved
          ((playback.transcript clock calls).flatMap Exchange.deeds)).2.foldl around.listen world.heard := by
  simp only [Surroundings.course_live, Surroundings.performAll_eq, and_self]

end Save
end BranchingStory
