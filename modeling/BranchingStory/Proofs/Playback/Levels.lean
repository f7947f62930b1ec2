import BranchingStory.Proofs.Json.Members
import BranchingStory.Proofs.Playback.Traces
import BranchingStory.Proofs.Save.Live

/-!
How playback changes affection levels. Only the effects of a choice that is picked change them, and each
change leaves all levels to be written as they stand then.
-/

namespace BranchingStory

/-! ## Changes of levels -/

namespace Variables

variable {scope other : Variables} {name : String} {value : Json}

def raise (scope : Variables) (change : String × Float) : Variables :=
  scope.setAffection change.1 (scope.affectionOf change.1 + change.2)

def levelsAfter (scope : Variables) : List (String × Float) → List Affection
  | [] => []
  | change :: rest => (scope.raise change).affection :: (scope.raise change).levelsAfter rest

theorem affection_congr (same : scope.get? affectionName = other.get? affectionName) :
    scope.affection = other.affection := by
  rw [affection, affection, same]

theorem get?_raise_congr (same : scope.get? affectionName = other.get? affectionName)
    (change : String × Float) :
    (scope.raise change).get? affectionName = (other.raise change).get? affectionName := by
  have before : scope.affectionOf change.1 = other.affectionOf change.1 := by
    rw [affectionOf, affectionOf, same]
  simp only [raise, setAffection, mergeInto, before, same]
  exact Members.get?_set_self.trans Members.get?_set_self.symm

theorem levelsAfter_congr (same : scope.get? affectionName = other.get? affectionName)
    (changes : List (String × Float)) : scope.levelsAfter changes = other.levelsAfter changes := by
  induction changes generalizing scope other with
  | nil => rfl
  | cons change rest ih =>
      have raised := get?_raise_congr same change
      rw [levelsAfter, levelsAfter, affection_congr raised, ih raised]

theorem get?_foldl_raise_congr (same : scope.get? affectionName = other.get? affectionName)
    (changes : List (String × Float)) :
    (changes.foldl raise scope).get? affectionName = (changes.foldl raise other).get? affectionName := by
  induction changes generalizing scope other with
  | nil => exact same
  | cons change rest ih => exact ih (get?_raise_congr same change)

theorem levelsAfter_append (first second : List (String × Float)) :
    scope.levelsAfter (first ++ second) =
      scope.levelsAfter first ++ (first.foldl raise scope).levelsAfter second := by
  induction first generalizing scope with
  | nil => rfl
  | cons change rest ih => exact congrArg (_ :: ·) ih

theorem getLast?_levelsAfter (changes : List (String × Float)) :
    (scope.levelsAfter changes).getLast?.getD scope.affection = (changes.foldl raise scope).affection := by
  induction changes generalizing scope with
  | nil => rfl
  | cons change rest ih => rw [levelsAfter, List.getLast?_cons, Option.getD_some, ih, List.foldl_cons]

end Variables

/-! ## What effects change and leave to be written -/

def Members.numeric (changes : Members) : List (String × Float) :=
  changes.filterMap fun (name, change) => change.float?.map fun change => (name, change)

def Json.levelChanges (name : String) (value : Json) : List (String × Float) :=
  match value with
  | .object changes => if name = affectionName then Members.numeric changes else []
  | _ => []

/-- The changes of levels that effects make, in the order of the script. -/
def Effects.levelChanges (effects : Effects) : List (String × Float) :=
  effects.members.flatMap fun (name, value) => value.levelChanges name

namespace Variables

def Consequence.levels? : Consequence → Option Affection
  | .changed levels => some levels
  | .ignored _ => none

variable {scope other : Variables}

theorem applyChanges_eq (scope : Variables) (changes : Members) :
    (scope.applyChanges changes).1 = changes.numeric.foldl raise scope ∧
      (scope.applyChanges changes).2.filterMap Consequence.levels? = scope.levelsAfter changes.numeric := by
  induction changes generalizing scope with
  | nil => exact ⟨rfl, rfl⟩
  | cons first rest ih =>
      obtain ⟨name, change⟩ := first
      cases numeric : change.float? with
      | none =>
          have skipped : Members.numeric ((name, change) :: rest) = Members.numeric rest := by
            simp [Members.numeric, numeric]
          simp only [applyChanges, applyChange, numeric, skipped]
          exact ih scope
      | some amount =>
          have counted : Members.numeric ((name, change) :: rest) = (name, amount) :: Members.numeric rest := by
            simp [Members.numeric, numeric]
          obtain ⟨after, written⟩ := ih (scope.raise (name, amount))
          simp only [applyChanges, applyChange, numeric, counted, List.foldl_cons, levelsAfter]
          exact ⟨after, congrArg (_ :: ·) written⟩

theorem applyEffect_eq (scope : Variables) (name : String) (value : Json) :
    (scope.applyEffect name value).1.get? affectionName =
        ((value.levelChanges name).foldl raise scope).get? affectionName ∧
      (scope.applyEffect name value).2.filterMap Consequence.levels? =
        scope.levelsAfter (value.levelChanges name) := by
  by_cases affects : name = affectionName
  · cases value with
    | object changes =>
        obtain ⟨after, written⟩ := applyChanges_eq scope changes
        simp only [applyEffect, Json.levelChanges, if_pos affects]
        exact ⟨congrArg (·.get? affectionName) after, written⟩
    | _ => simp [applyEffect, Json.levelChanges, affects, Consequence.levels?, levelsAfter]
  · have none : value.levelChanges name = [] := by
      cases value <;> simp [Json.levelChanges, affects]
    rw [none]
    simp only [applyEffect, if_neg affects]
    exact ⟨Members.get?_set_of_ne (Ne.symm affects), rfl⟩

theorem applyAll_eq (scope : Variables) (members : Members) :
    (scope.applyAll members).1.get? affectionName =
        ((Effects.levelChanges ⟨members⟩).foldl raise scope).get? affectionName ∧
      (scope.applyAll members).2.filterMap Consequence.levels? =
        scope.levelsAfter (Effects.levelChanges ⟨members⟩) := by
  induction members generalizing scope with
  | nil => exact ⟨rfl, rfl⟩
  | cons first rest ih =>
      obtain ⟨name, value⟩ := first
      obtain ⟨here, written⟩ := applyEffect_eq scope name value
      obtain ⟨there, more⟩ := ih (scope.applyEffect name value).1
      have split : Effects.levelChanges ⟨(name, value) :: rest⟩ =
          value.levelChanges name ++ Effects.levelChanges ⟨rest⟩ := rfl
      simp only [applyAll, split, List.foldl_append, levelsAfter_append, List.filterMap_append]
      refine ⟨there.trans (get?_foldl_raise_congr here _), ?_⟩
      rw [written, more, levelsAfter_congr here]

end Variables

/-! ## What playback changes and leaves to be written -/

namespace Playback

def Deed.levels : Deed → List Affection
  | .keepEffects consequences => consequences.filterMap Variables.Consequence.levels?
  | .trace _ => []
  | .keepUnlocks _ => []

def levelsOf (deeds : List Deed) : List Affection := deeds.flatMap Deed.levels

theorem levelsOf_append (deeds more : List Deed) : levelsOf (deeds ++ more) = levelsOf deeds ++ levelsOf more :=
  List.flatMap_append

theorem levelsOf_traces (traces : List Trace) : levelsOf (traces.map Deed.trace) = [] := by
  simp [levelsOf, List.flatMap_map, Deed.levels]

namespace Step

variable {step : Step}

def standing (step : Step) : Variables × List Affection := (step.teller.scope, levelsOf step.deeds)

@[simp] theorem standing_emit (instructions : List Instruction) :
    (step.emit instructions).standing = step.standing := rfl

theorem Traces.standing_eq {before after : Step} (traces : before.Traces after) : after.standing = before.standing := by
  obtain ⟨texts, deeds⟩ := traces.deeds
  rw [standing, standing, traces.scope, deeds, levelsOf_append, levelsOf_traces, List.append_nil]

theorem standing_trace (category : Trace.Category) (message : String) (data : Json) :
    (step.trace category message data).standing = step.standing :=
  (traces_trace category message data).standing_eq

theorem standing_hideTyping : step.hideTyping.standing = step.standing := traces_hideTyping.standing_eq

theorem standing_unlock (clock : Nat → Instant) (entry : Entry) :
    (step.unlock clock entry).standing = step.standing := by
  simp only [unlock]
  split
  · rfl
  · split
    · simp [standing, trace, leave, levelsOf, Deed.levels]
    · rfl

end Step

theorem standing_run (clock : Nat → Instant) (stack : Stack) (step : Step) :
    (run clock stack step).2.standing = step.standing := by
  have ahead : stack.Ahead fun _ => True := fun _ _ _ _ => trivial
  refine (run_of_entries (fun along => along.standing = step.standing) ?_ ?_ ahead rfl).2
  · exact fun traces same => traces.standing_eq.trans same
  · exact fun along entry _ same => (Step.standing_unlock clock entry).trans same

theorem standing_opening (playback : Playback) : playback.opening.standing = (playback.teller.scope, []) := by
  simp [opening, Step.standing, Step.trace, Step.leave, Step.emit, levelsOf, Deed.levels]

theorem standing_prompted (playback : Playback) : playback.prompted.standing = (playback.teller.scope, []) := by
  simp only [prompted, Step.standing_hideTyping]
  split
  · exact Step.standing_trace _ _ _
  · rfl

theorem standing_elapsed (playback : Playback) (timer : Timer) :
    (playback.elapsed timer).standing = (playback.teller.scope, []) :=
  Step.standing_hideTyping

theorem standing_chosen (playback : Playback) (index : Nat) (choice : Choice) :
    (playback.chosen index choice).standing =
      ((playback.teller.scope.apply (choice.effects.getD .empty)).1,
        (playback.teller.scope.apply (choice.effects.getD .empty)).2.filterMap
          Variables.Consequence.levels?) := by
  simp only [chosen, Step.standing_emit, Step.applyEffects]
  cases choice.effects with
  | none => rfl
  | some effects =>
      obtain ⟨members⟩ := effects
      cases members with
      | nil => rfl
      | cons first rest =>
          refine (Step.standing_trace _ _ _).trans (congrArg (Prod.mk _) ?_)
          exact List.append_nil _

/-! ## Calls -/

def Exchange.picked? (exchange : Exchange) : Option Choice :=
  exchange.pick?.bind fun index => exchange.before.teller.pending[index]?

def Exchange.levelChanges (exchange : Exchange) : List (String × Float) :=
  ((exchange.picked?.bind (·.effects)).getD .empty).levelChanges

def Exchange.levels (exchange : Exchange) : List Affection :=
  exchange.before.teller.scope.levelsAfter exchange.levelChanges

/-- A call changes the levels as the effects of the choice that it picks say, and has them written after each
change. -/
structure Exchange.Follows (exchange : Exchange) : Prop where
  written : levelsOf exchange.deeds = exchange.levels
  changed : exchange.after.teller.scope.get? affectionName =
    (exchange.levelChanges.foldl Variables.raise exchange.before.teller.scope).get? affectionName

theorem resume_standing (playback : Playback) (clock : Nat → Instant) (step : Step) :
    (playback.resume clock step).1.teller.scope = step.standing.1 ∧
      levelsOf (playback.resume clock step).2.deeds = step.standing.2 := by
  have kept := standing_run clock playback.stack step.underWay
  exact ⟨congrArg Prod.fst kept, congrArg Prod.snd kept⟩

theorem follows_resume {playback : Playback} {call : Call} {step : Step} (clock : Nat → Instant)
    (prepared : Prepares playback call step) :
    Exchange.Follows
      ⟨playback, call, (playback.resume clock step).1, some (playback.resume clock step).2⟩ := by
  obtain ⟨scope, written⟩ := resume_standing playback clock step
  cases prepared with
  | start idle =>
      rw [standing_opening] at scope written
      exact ⟨written, congrArg (·.get? affectionName) scope⟩
  | advance waits =>
      rw [standing_prompted] at scope written
      exact ⟨written, congrArg (·.get? affectionName) scope⟩
  | timerElapsed waits fires =>
      rw [standing_elapsed] at scope written
      exact ⟨written, congrArg (·.get? affectionName) scope⟩
  | @choose index choice waits offered =>
      have picked : Exchange.levelChanges ⟨playback, .event (.choose index),
          (playback.resume clock (playback.chosen index choice)).1,
          some (playback.resume clock (playback.chosen index choice)).2⟩ =
          (choice.effects.getD .empty).levelChanges := by
        change ((playback.teller.pending[index]?.bind (·.effects)).getD .empty).levelChanges = _
        rw [offered]
        rfl
      rw [standing_chosen] at scope written
      obtain ⟨changed, left⟩ :=
        Variables.applyAll_eq playback.teller.scope (choice.effects.getD .empty).members
      constructor
      · rw [Exchange.levels, picked]
        exact written.trans left
      · rw [picked, scope]
        exact changed

theorem follows_ask (playback : Playback) (clock : Nat → Instant) (call : Call) :
    Exchange.Follows
      ⟨playback, call, (playback.ask clock call).1, (playback.ask clock call).2⟩ := by
  have answers := answers_ask clock playback call
  generalize playback.ask clock call = answer at answers
  cases answers with
  | reject stays => exact ⟨rfl, rfl⟩
  | @ignore _ trace stays started unpicked =>
      have unchanged : Exchange.levelChanges
          ⟨playback, call, playback, some ⟨.ok ⟨[], playback.teller.wait⟩, [.trace trace]⟩⟩ = [] := by
        simp only [Exchange.levelChanges, Exchange.picked?, Exchange.pick?, unpicked]
        rfl
      constructor
      · rw [Exchange.levels, unchanged]
        rfl
      · rw [unchanged]
        rfl
  | resume prepared => exact follows_resume clock prepared
  | setAutoplay => exact ⟨rfl, rfl⟩
  | peek => exact ⟨rfl, rfl⟩

theorem follows_transcript {playback : Playback} {clock : Nat → Instant} {calls : List Call}
    {exchange : Exchange} (member : exchange ∈ playback.transcript clock calls) : exchange.Follows := by
  obtain ⟨_, asked⟩ := transcript_of_ask (fun _ => True) (fun _ _ _ => trivial) trivial member
  have follows := follows_ask exchange.before clock exchange.call
  rwa [← asked] at follows

theorem levelsOf_transcript (playback : Playback) (clock : Nat → Instant) (calls : List Call) :
    levelsOf ((playback.transcript clock calls).flatMap Exchange.deeds) =
      (playback.transcript clock calls).flatMap Exchange.levels := by
  rw [levelsOf, List.flatMap_assoc, List.flatMap_def, List.flatMap_def]
  exact congrArg List.flatten
    (List.map_congr_left fun exchange member => (follows_transcript member).written)

theorem levels_course (playback : Playback) (clock : Nat → Instant) (calls : List Call) :
    let changes := (playback.transcript clock calls).flatMap Exchange.levelChanges
    (playback.transcript clock calls).flatMap Exchange.levels = playback.teller.scope.levelsAfter changes ∧
      (playback.after clock calls).teller.scope.get? affectionName =
        (changes.foldl Variables.raise playback.teller.scope).get? affectionName := by
  induction calls generalizing playback with
  | nil => exact ⟨rfl, rfl⟩
  | cons call later ih =>
      have changed := (follows_ask playback clock call).changed
      obtain ⟨written, left⟩ := ih (playback.ask clock call).1
      simp only [transcript, List.flatMap_cons, Variables.levelsAfter_append, List.foldl_append]
      refine ⟨?_, left.trans (Variables.get?_foldl_raise_congr changed _)⟩
      rw [written, Variables.levelsAfter_congr changed]
      rfl

theorem getLast?_levels (playback : Playback) (clock : Nat → Instant) (calls : List Call) :
    ((playback.transcript clock calls).flatMap Exchange.levels).getLast?.getD playback.teller.scope.affection =
      (playback.after clock calls).teller.scope.affection := by
  obtain ⟨written, left⟩ := levels_course playback clock calls
  rw [written, Variables.getLast?_levelsAfter, Variables.affection_congr left]

end Playback
end BranchingStory
