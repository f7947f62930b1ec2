import BranchingStory.Files.Disk
import BranchingStory.Loading.Story

/-!
Documents in a folder.
-/

namespace BranchingStory
namespace Loading

open Files (Disk)

def fetchFrom (disk : Disk) (folder : String) : Fetch Id := fun path =>
  let whole := joinPath folder path
  match disk.read whole with
  | .ok content => .ok content
  | .error .missing => .error (.missing whole)
  | .error trouble => .error (.io whole trouble.reason)

end Loading
end BranchingStory
