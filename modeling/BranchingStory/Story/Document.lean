import BranchingStory.Story.Entry

/-!
Story documents: the story with its name and the constants that it brings.
-/

namespace BranchingStory

/-- What a document says about its story. Anything beside the name is kept as it is. -/
structure Metadata where
  storyName : Option String
  extra : Members

structure Document where
  metadata : Option Metadata := none
  constants : Option Members := none
  story : Story := []

instance : Inhabited Document := ⟨{}⟩

namespace Document

def name? (document : Document) : Option String :=
  present (document.metadata.bind (·.storyName))

def sharedConstantsPath? (document : Document) : Option String := do
  let constants ← document.constants
  let paths ← constants.get? "paths"
  let path ← paths.member? "predefinedConstants"
  present path.string?

end Document
end BranchingStory
