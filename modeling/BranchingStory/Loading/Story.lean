import BranchingStory.Loading.Directories
import BranchingStory.Loading.Name
import BranchingStory.Story.Codec
import BranchingStory.Variables

/-!
Loading a story: its document, and the constants shared with other stories if it names any. It is loaded as
a whole or not at all.
-/

namespace BranchingStory
namespace Loading

inductive Error
  | invalidName (name : String) (fault : NameFault)
  | missing (path : String)
  | io (path reason : String)
  | malformed (path : String) (cause : Json.Refusal)
  | invalidConstants (path : String)
  deriving DecidableEq, Repr

def Error.message : Error → String
  | .invalidName name fault => "Invalid document name '" ++ name ++ "': " ++ fault.reason
  | .missing path => "Document not found: " ++ path
  | .io path reason => "Failed to read " ++ path ++ ": " ++ reason
  | .malformed path cause => "Failed to parse " ++ path ++ ": " ++
      (match cause with
        | .grammar => "not a JSON text"
        | .shape => "not of the expected shape")
  | .invalidConstants path => "Constants document " ++ path ++ " is not a JSON object"

/-- A source of documents. It may give any of the errors of a load. -/
abbrev Fetch (m : Type → Type) := String → m (Except Error (List UInt8))

structure LoadedStory where
  kind : StoryKind
  document : Document
  shared : Option Members

def checkName (name : String) : Except Error Unit :=
  match nameFault? name with
  | some fault => .error (.invalidName name fault)
  | none => .ok ()

def constantsOfBytes (path : String) (bytes : List UInt8) : Except Error Members :=
  match Json.decodeBytes Json.Decoder.json bytes with
  | .ok (.object members) => .ok members
  | .ok _ => .error (.invalidConstants path)
  | .error cause => .error (.malformed path cause)

variable {m : Type → Type} [Monad m]

def fetchAs {α : Type} (fetch : Fetch m) (take : String → List UInt8 → Except Error α)
    (path : String) : ExceptT Error m α := do
  let bytes ← ExceptT.mk (fetch path)
  ExceptT.mk (pure (take path bytes))

def load (fetch : Fetch m) (directories : Directories) (kind : StoryKind) (name : String) :
    ExceptT Error m LoadedStory := do
  ExceptT.mk (pure (checkName name))
  let document ← fetchAs fetch
    (fun path bytes => (Document.ofBytes bytes).mapError (.malformed path))
    (directories.storyPath kind name)
  match document.sharedConstantsPath? with
  | none => return { kind, document, shared := none }
  | some path =>
      ExceptT.mk (pure (checkName path))
      let shared ← fetchAs fetch constantsOfBytes path
      return { kind, document, shared := some shared }

/-- The variables at the start of a playthrough. In a scene the shared constants go over those of the
story; in texting they stand under a name of their own. -/
def LoadedStory.variables (story : LoadedStory) (levels : Affection) : Variables :=
  let start := Variables.withAffection levels
  let own := story.document.constants.getD []
  match story.kind with
  | .event => (start.merge own).merge (story.shared.getD [])
  | .texting =>
      match story.shared with
      | some shared => (start.mergeInto "constants" shared).merge own
      | none => start.merge own

end Loading
end BranchingStory
