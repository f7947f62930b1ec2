import BranchingStory.Playback.Instruction
import BranchingStory.Playback.Pacing
import BranchingStory.Asset
import BranchingStory.Condition.Judgement
import BranchingStory.Unlock.Ledger
import BranchingStory.Variables

/-!
A story walked from its first entry to its last. The walk knows no stack, no rests and no events: it is told
beforehand which choices will be picked, and a branch is walked where it stands.
-/

namespace BranchingStory
namespace Playback

/-- A story as far as it has been told, and the picks that are to be made from here on. -/
structure Tale where
  scope : Variables
  ledger : Ledger
  readings : Nat
  picks : List Nat
  told : List Instruction

namespace Tale

def tell (tale : Tale) (instructions : List Instruction) : Tale :=
  { tale with told := tale.told ++ instructions }

def unlock (tale : Tale) (clock : Nat → Instant) (entry : Entry) : Tale :=
  if entry.unlocked.isEmpty then tale
  else
    { tale with
      ledger := (tale.ledger.commit entry.unlocked (clock tale.readings)).1
      readings := tale.readings + 1 }

def make (tale : Tale) (index : Nat) (choice : Choice) : Tale :=
  { tale with
    scope := (tale.scope.apply (choice.effects.getD .empty)).1
    told := tale.told ++ .choiceSelected index choice.text :: (choice.toastText?.map .showToast).toList }

def pick? (tale : Tale) (choices : List Choice) : Option Tale :=
  match tale.picks with
  | [] => none
  | index :: picks => choices[index]?.map fun choice => { tale with picks }.make index choice

end Tale

/-! ## What is shown of an entry -/

def backdrop (mode : Mode) (assets : AssetBase) (entry : Entry) : List Instruction :=
  match mode with
  | .scene => (entry.background?.map fun key => .showBackground key (assets.background key)).toList
  | .texting => []

def sceneShown (assets : AssetBase) (scope : Variables) (entry : Entry) : List Instruction :=
  (entry.speaker?.map fun name =>
      if entry.placement = .exit then .exitCharacter name
      else .showCharacter name (assets.character name entry.outfit entry.state) entry.placement).toList ++
    (entry.line?.map fun line =>
      .showDialogue line entry.speaker? entry.placement (entry.speaker?.bind scope.speakerColor?)
        none).toList ++
    (entry.sfx?.map fun key => .playSfx key (assets.sfx key)).toList ++
    (entry.vfx?.map .playVfx).toList

def messageShown (assets : AssetBase) (scope : Variables) (entry : Entry) : List Instruction :=
  (entry.line?.map fun line =>
    .showDialogue line entry.speaker? entry.placement (entry.speaker?.bind scope.speakerColor?)
      (entry.speaker?.map assets.avatar)).toList

def shown : Mode → AssetBase → Variables → Entry → List Instruction
  | .scene => sceneShown
  | .texting => messageShown

/-! ## The walk -/

section

variable (mode : Mode) (assets : AssetBase) (clock : Nat → Instant)

/-- Tells every entry in turn. There is no tale where the picks run out, or name no choice. -/
def walk : Story → Tale → Option Tale
  | [], tale => some tale
  | entry :: rest, tale =>
      let tale := (tale.unlock clock entry).tell (backdrop mode assets entry)
      match _led : entry.branch with
      | some branch =>
          if (Condition.judge branch.condition tale.scope.bindings).1 then
            (walk branch.story tale).bind (walk rest)
          else walk rest tale
      | none =>
          let tale := tale.tell (shown mode assets tale.scope entry)
          match entry.choices with
          | [] => walk rest tale
          | choices => ((tale.tell [.showChoices (choiceViews choices)]).pick? choices).bind (walk rest)
termination_by story => storyWeight story
decreasing_by
  all_goals simp only [storyWeight]
  · have weight := Entry.weight_of_branch _led
    omega
  all_goals
    have weight := entry.weight_pos
    omega

end

variable {mode : Mode} {assets : AssetBase} {clock : Nat → Instant}

theorem walk_of_branch {entry : Entry} {branch : Branch} (rest : Story) (tale : Tale)
    (led : entry.branch = some branch) :
    let reached := (tale.unlock clock entry).tell (backdrop mode assets entry)
    walk mode assets clock (entry :: rest) tale =
      if (Condition.judge branch.condition reached.scope.bindings).1 then
        (walk mode assets clock branch.story reached).bind (walk mode assets clock rest)
      else walk mode assets clock rest reached := by
  rw [walk]
  split
  · rename_i other found
    obtain rfl := Option.some.inj (found.symm.trans led)
    rfl
  · rename_i plain
    simp [led] at plain

theorem walk_of_plain {entry : Entry} (rest : Story) (tale : Tale) (plain : entry.branch = none) :
    let reached := (tale.unlock clock entry).tell (backdrop mode assets entry)
    let staged := reached.tell (shown mode assets reached.scope entry)
    walk mode assets clock (entry :: rest) tale =
      match entry.choices with
      | [] => walk mode assets clock rest staged
      | choices =>
          ((staged.tell [.showChoices (choiceViews choices)]).pick? choices).bind
            (walk mode assets clock rest) := by
  rw [walk]
  split
  · rename_i branch led
    simp [plain] at led
  · rfl

/-! ## What was told before -/

def Tale.precede (tale : Tale) (earlier : List Instruction) : Tale :=
  { tale with told := earlier ++ tale.told }

@[simp] theorem Tale.precede_scope (tale : Tale) (earlier : List Instruction) :
    (tale.precede earlier).scope = tale.scope := rfl

theorem Tale.precede_tell (tale : Tale) (earlier instructions : List Instruction) :
    (tale.precede earlier).tell instructions = (tale.tell instructions).precede earlier := by
  simp [precede, tell]

theorem Tale.precede_unlock (tale : Tale) (earlier : List Instruction) (entry : Entry) :
    (tale.precede earlier).unlock clock entry = (tale.unlock clock entry).precede earlier := by
  simp only [unlock]
  split <;> rfl

theorem Tale.precede_pick? (tale : Tale) (earlier : List Instruction) (choices : List Choice) :
    (tale.precede earlier).pick? choices = (tale.pick? choices).map (·.precede earlier) := by
  obtain ⟨scope, ledger, readings, picks, told⟩ := tale
  cases picks with
  | nil => rfl
  | cons index picks =>
      cases found : choices[index]? <;> simp [precede, pick?, make, found]

theorem walk_precede (story : Story) (tale : Tale) (earlier : List Instruction) :
    walk mode assets clock story (tale.precede earlier) =
      (walk mode assets clock story tale).map (·.precede earlier) := by
  induction story, tale using walk.induct mode assets clock with
  | case1 tale => simp [walk]
  | case2 entry rest tale reached branch led taken inner outer =>
      simp only [walk_of_branch _ _ led, Tale.precede_unlock, Tale.precede_tell, Tale.precede_scope]
      rw [if_pos taken, if_pos taken, inner]
      simp only [Option.bind_map, Option.map_bind, Function.comp_def, outer]
      rfl
  | case3 entry rest tale reached branch led skipped ih =>
      simp only [walk_of_branch _ _ led, Tale.precede_unlock, Tale.precede_tell, Tale.precede_scope]
      rw [if_neg skipped, if_neg skipped, ih]
  | case4 entry rest tale reached plain staged choices ih =>
      simp only [walk_of_plain _ _ plain, Tale.precede_unlock, Tale.precede_tell, Tale.precede_scope, choices]
      exact ih
  | case5 entry rest tale plain choices ih =>
      simp only [walk_of_plain _ _ plain, Tale.precede_unlock, Tale.precede_tell, Tale.precede_scope]
      cases given : entry.choices with
      | nil => exact absurd given choices
      | cons first others =>
          simp only [Tale.precede_pick?, Option.bind_map, Option.map_bind, Function.comp_def, ih]

end Playback
end BranchingStory
