import BranchingStory.Json.Decode
import BranchingStory.Json.Printer
import BranchingStory.Text.Split

/-!
Where the documents of stories are kept.
-/

namespace BranchingStory

open Json (Draft Fault Decoder)

inductive StoryKind
  | event
  | texting
  deriving DecidableEq, Repr

namespace StoryKind

def word : StoryKind → String
  | .event => "event"
  | .texting => "texting"

def ofWord? (word : String) : Option StoryKind :=
  [.event, .texting].find? fun (kind : StoryKind) => kind.word == word

def decode : Decoder StoryKind := Decoder.name ofWord?

end StoryKind

structure Directories where
  events : String := "scripts/events"
  texting : String := "scripts/texting"

namespace Directories

def of (directories : Directories) : StoryKind → String
  | .event => directories.events
  | .texting => directories.texting

def storyPath (directories : Directories) (kind : StoryKind) (name : String) : String :=
  String.ofList (dropEnd '/' (directories.of kind).toList) ++ "/" ++ name

def encode (directories : Directories) : Json :=
  .object [("eventsDir", .string directories.events), ("textingDir", .string directories.texting)]

def decode : Decoder Directories :=
  let field (levels : Nat) (directories : Directories) (name : String) (value : Draft) :
      Except Fault Directories := do
    if name = "eventsDir" then return { directories with events := ← Decoder.text levels value }
    else return { directories with texting := ← Decoder.text levels value }
  Decoder.structured ["eventsDir", "textingDir"] field {}

end Directories
end BranchingStory
