import BranchingStory.Text.Split

/-!
Folders of files, and where the parts of a path lead in them. Every part but the last has to lead to a folder,
a dot stays where it is, and two dots go back.
-/

namespace BranchingStory

def joinPath (folder path : String) : String :=
  if folder = "" || path.startsWith "/" then path
  else if folder.endsWith "/" then folder ++ path
  else folder ++ "/" ++ path

def pathParts (path : String) : List String := (pieces (· = '/') path.toList).map String.ofList

namespace Files

inductive Node
  | file (content : List UInt8)
  | folder (entries : List (String × Node))

inductive Trouble
  | missing
  | notFolder
  | isFolder
  | taken
  | badName
  deriving DecidableEq, Repr

def Trouble.reason : Trouble → String
  | .missing => "No such file or directory (os error 2)"
  | .notFolder => "Not a directory (os error 20)"
  | .isFolder => "Is a directory (os error 21)"
  | .taken => "File exists (os error 17)"
  | .badName => "File name too long (os error 36)"

namespace Node

def empty : Node := .folder []

instance : Inhabited Node := ⟨empty⟩

def get? : Node → List String → Option Node
  | node, [] => some node
  | .folder entries, name :: rest => (entries.lookup name).bind fun node => node.get? rest
  | .file _, _ :: _ => none

/-- Puts an entry in the place of the one of its name, or after all others. -/
def setEntry (entries : List (String × Node)) (name : String) (node : Node) : List (String × Node) :=
  match entries with
  | [] => [(name, node)]
  | (other, old) :: rest =>
      if other = name then (name, node) :: rest else (other, old) :: setEntry rest name node

def put (node : Node) (names : List String) (new : Node) : Node :=
  match names with
  | [] => new
  | name :: rest =>
      let entries := match node with
        | .folder entries => entries
        | .file _ => []
      .folder (setEntry entries name (((entries.lookup name).getD empty).put rest new))

def isName (part : String) : Bool := part.utf8ByteSize ≤ 255

def entriesAt (node : Node) (names : List String) : Except Trouble (List (String × Node)) :=
  match node.get? names with
  | some (.folder entries) => .ok entries
  | some (.file _) => .error .notFolder
  | none => .error .missing

/-- Follows the parts of a path. `here` holds the names that lead to the current place, the last one
first. Two dots at the root stay there. -/
def follow (node : Node) (here : List String) : List String → Except Trouble (List String)
  | [] => .ok here
  | part :: rest => do
      let entries ← node.entriesAt here.reverse
      if part = "" ∨ part = "." then node.follow here rest
      else if part = ".." then node.follow here.tail rest
      else if !isName part then .error .badName
      else if (entries.lookup part).isSome then node.follow (part :: here) rest
      else .error .missing

def isFolder (node : Node) (here parts : List String) : Bool :=
  match node.follow here parts with
  | .ok names => (node.entriesAt names.reverse).isOk
  | .error _ => false

def makeFolder (node : Node) (here parts : List String) : Except Trouble Node := do
  let parts := (parts.reverse.dropWhile (· = "")).reverse
  let above ← node.follow here parts.dropLast
  let entries ← node.entriesAt above.reverse
  let name := parts.getLast?.getD "."
  if name = "." ∨ name = ".." then throw .taken
  else if !isName name then throw .badName
  else if (entries.lookup name).isSome then throw .taken
  else return node.put (name :: above).reverse empty

def ensureFolder (node : Node) (here parts : List String) : Except Trouble Unit × Node :=
  match node.makeFolder here parts with
  | .ok made => (.ok (), made)
  | .error trouble => (if node.isFolder here parts then .ok () else .error trouble, node)

/-- Makes the folder that the parts of a path lead to, after the folders above it if they are missing. The
names of these come last one first. They stay even if the folder itself cannot be made. -/
def makeFolders (node : Node) (here parts : List String) : List String → Except Trouble Unit × Node
  | [] => node.ensureFolder here parts
  | name :: further =>
      match node.ensureFolder here parts with
      | (.error .missing, _) =>
          match node.makeFolders here (name :: further).reverse further with
          | (.ok (), made) => made.ensureFolder here parts
          | failed => failed
      | outcome => outcome

mutual

def files (path : String) : Node → List (String × List UInt8)
  | .file content => [(path, content)]
  | .folder entries => filesIn path entries

def filesIn (path : String) : List (String × Node) → List (String × List UInt8)
  | [] => []
  | (name, node) :: rest => node.files (joinPath path name) ++ filesIn path rest

end

end Node
end Files
end BranchingStory
