import BranchingStory.Affection
import BranchingStory.Decimal.Binary
import BranchingStory.Story.Entry

/-!
The variables of a playthrough: the constants of the story and what choices have set. Conditions see them by
name, and one of them holds the affection levels.
-/

namespace BranchingStory

structure Variables where
  bindings : Members

/-- A level as a JSON number. Whole levels of less than 64 bits are integers. -/
def levelJson (level : Float) : Json :=
  match wholeNumber? level with
  | some whole => if whole.natAbs < 9223372036854775808 then .number (.integer whole) else .ofFloat level
  | none => .ofFloat level

namespace Variables

def start : Variables := ⟨[(affectionName, .object [])]⟩

def withAffection (levels : Affection) : Variables :=
  ⟨[(affectionName, .object (levels.entries.map fun (name, level) => (name, levelJson level)))]⟩

def get? (scope : Variables) (name : String) : Option Json := scope.bindings.get? name

def set (scope : Variables) (name : String) (value : Json) : Variables :=
  ⟨scope.bindings.set name value⟩

def merge (scope : Variables) (constants : Members) : Variables :=
  ⟨Members.merge scope.bindings constants⟩

/-- Sets constants inside the object under a name. Anything else that stood there gives way to one. -/
def mergeInto (scope : Variables) (name : String) (constants : Members) : Variables :=
  let members := match scope.get? name with
    | some (.object members) => members
    | _ => []
  scope.set name (.object (Members.merge members constants))

def affection (scope : Variables) : Affection :=
  match scope.get? affectionName with
  | some (.object levels) =>
      Catalog.ofList (levels.filterMap fun (name, level) => level.float?.map fun level => (name, level))
  | _ => .empty

def affectionOf (scope : Variables) (name : String) : Float :=
  (((scope.get? affectionName).bind (·.member? name)).bind Json.float?).getD 0

def setAffection (scope : Variables) (name : String) (level : Float) : Variables :=
  scope.mergeInto affectionName [(name, levelJson level)]

/-- The color of the lines of a character; colors at the top level come before those of the constants. -/
def speakerColor? (scope : Variables) (name : String) : Option String :=
  let color (colors : Option Json) : Option String :=
    (colors.bind (·.member? name)).bind Json.string?
  (color (scope.get? "defaultColors")).or
    (color ((scope.get? "constants").bind (·.member? "defaultColors")))

inductive Consequence
  | ignored (warning : String)
  | changed (levels : Affection)

def applyChange (scope : Variables) (name : String) (change : Json) : Variables × Consequence :=
  match change.float? with
  | some change =>
      let scope := scope.setAffection name (scope.affectionOf name + change)
      (scope, .changed scope.affection)
  | none =>
      (scope,
        .ignored ("Ignoring non-numeric affection delta for " ++ name ++ ": " ++ change.compact))

def applyChanges : Variables → Members → Variables × List Consequence
  | scope, [] => (scope, [])
  | scope, (name, change) :: rest =>
      let (scope, first) := scope.applyChange name change
      let (scope, more) := applyChanges scope rest
      (scope, first :: more)

def applyEffect (scope : Variables) (name : String) (value : Json) :
    Variables × List Consequence :=
  if name = affectionName then
    match value with
    | .object changes => scope.applyChanges changes
    | other =>
        (scope,
          [.ignored ("Ignoring affection effect that is not an object: " ++ other.compact)])
  else (scope.set name value, [])

def applyAll : Variables → Members → Variables × List Consequence
  | scope, [] => (scope, [])
  | scope, (name, value) :: rest =>
      let (scope, first) := scope.applyEffect name value
      let (scope, more) := applyAll scope rest
      (scope, first ++ more)

def apply (scope : Variables) (effects : Effects) : Variables × List Consequence :=
  scope.applyAll effects.members

end Variables
end BranchingStory
