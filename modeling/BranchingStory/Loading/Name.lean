import BranchingStory.Text.Blank
import BranchingStory.Text.Split

/-!
Names of documents. A name is a path below the directory that it is looked up in, and may not lead out of it.
-/

namespace BranchingStory
namespace Loading

inductive NameFault
  | empty
  | absolute
  | leaving
  deriving DecidableEq, Repr

def NameFault.reason : NameFault → String
  | .empty => "name is empty"
  | .absolute => "name must be relative"
  | .leaving => "name must not leave its base directory"

/-- Both slashes part the names of folders. -/
def isSlash (c : Char) : Bool := c = '/' || c = '\\'

def nameFault? (name : String) : Option NameFault :=
  let text := name.toList
  if (trimBlanks text).isEmpty then some .empty
  else if text.head?.any isSlash then some .absolute
  else if (pieces isSlash text).contains ['.', '.'] then some .leaving
  else none

end Loading
end BranchingStory
