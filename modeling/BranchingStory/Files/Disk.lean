import BranchingStory.Files.Tree

/-!
A tree of files as a program sees it: paths start at the folder that it works in, or at the root.
-/

namespace BranchingStory
namespace Files

structure Disk where
  root : Node := .empty
  folder : List String := []

def longestPath : Nat := 4095

def isPath (path : String) : Bool :=
  path.utf8ByteSize ≤ longestPath && !path.toList.contains (Char.ofNat 0)

def pathNames (path : String) : List String := (pathParts path).filter fun part => part ≠ "" ∧ part ≠ "."

namespace Disk

def blank (folder : List String) : Disk := { root := Node.empty.put folder .empty, folder }

def start (disk : Disk) (path : String) : List String :=
  if path.startsWith "/" then [] else disk.folder.reverse

def locate (disk : Disk) (path : String) : Except Trouble (List String) :=
  if !isPath path then .error .badName
  else if path = "" then .error .missing
  else disk.root.follow (disk.start path) (pathParts path)

def read (disk : Disk) (path : String) : Except Trouble (List UInt8) := do
  match disk.root.get? (← disk.locate path).reverse with
  | some (.file content) => return content
  | some (.folder _) => throw .isFolder
  | none => throw .missing

def write (disk : Disk) (path : String) (content : List UInt8) : Except Trouble Disk := do
  if !isPath path then throw .badName
  let parts := pathParts path
  let above ← disk.root.follow (disk.start path) parts.dropLast
  let entries ← disk.root.entriesAt above.reverse
  let name := parts.getLast?.getD ""
  if name = "" ∨ name = "." ∨ name = ".." then throw .isFolder
  else if !Node.isName name then throw .badName
  else
    match entries.lookup name with
    | some (.folder _) => throw .isFolder
    | _ => return { disk with root := disk.root.put (name :: above).reverse (.file content) }

/-- Makes the folder that a path leads to, and every folder above it that is missing. Dots and slashes at the
end of a path are no folders of their own. -/
def makeFolders (disk : Disk) (path : String) : Except Trouble Unit × Disk :=
  if path = "" then (.ok (), disk)
  else if !isPath path then (.error .badName, disk)
  else
    let (result, root) :=
      disk.root.makeFolders (disk.start path) (pathParts path) (pathNames path).dropLast.reverse
    (result, { disk with root })

/-- Writes a file and makes the folders above it. A path that ends in a slash stands for a folder. What
cannot be made is left out. -/
def place (disk : Disk) (path : String) (content : List UInt8) : Disk :=
  let made := (disk.makeFolders ("/".intercalate (pathParts path).dropLast)).2
  if path.endsWith "/" then made else (made.write path content).toOption.getD made

def files (disk : Disk) : List (String × List UInt8) :=
  match disk.root.get? disk.folder with
  | some node => node.files ""
  | none => []

end Disk
end Files
end BranchingStory
