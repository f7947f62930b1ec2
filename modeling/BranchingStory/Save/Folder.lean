import BranchingStory.Files.Disk
import BranchingStory.Save.Basic
import BranchingStory.Text.Encoding

/-!
A save in a folder, with a file for each key.
-/

namespace BranchingStory
namespace Save

open Files (Disk)

def itemPath (folder key : String) : String := joinPath folder (key ++ ".json")

def readItem (folder : String) (disk : Disk) (key : String) : Except Error (Option String) :=
  match disk.read (itemPath folder key) with
  | .ok content =>
      match characters content with
      | (text, true) => .ok (some (String.ofList text))
      | (_, false) => .error (.io key "stream did not contain valid UTF-8")
  | .error .missing => .ok none
  | .error trouble => .error (.io key trouble.reason)

def writeItem (folder : String) (disk : Disk) (key text : String) : Except Error Unit × Disk :=
  match disk.makeFolders folder with
  | (.error trouble, disk) => (.error (.io key trouble.reason), disk)
  | (.ok (), disk) =>
      match disk.write (itemPath folder key) text.toUTF8.toList with
      | .error trouble => (.error (.io key trouble.reason), disk)
      | .ok disk => (.ok (), disk)

def folder (path : String) : Backend Disk := ⟨readItem path, writeItem path⟩

end Save
end BranchingStory
