import BranchingStory.Files.Tree
import BranchingStory.Loading.Directories

/-!
The arguments of the player. Options may stand anywhere; two arguments are no options, the directory of the
game and the name of the story.
-/

namespace BranchingStory
namespace Player

structure Arguments where
  gameDirectory : String
  story : String
  kind : StoryKind
  autoplay : Bool
  debug : Bool
  saveDirectory? : Option String
  deriving DecidableEq, Repr

inductive ArgumentFault
  | missingDirectory
  | unknownOption (option : String)
  | tooFew
  | tooMany
  deriving DecidableEq, Repr

def ArgumentFault.message : ArgumentFault → String
  | .missingDirectory => "--save-dir requires a directory"
  | .unknownOption option => "Unknown option '" ++ option ++ "'"
  | .tooFew => "Missing game directory or story name"
  | .tooMany => "Too many arguments"

namespace Arguments

structure Gathered where
  plain : List String := []
  kind : StoryKind := .event
  autoplay : Bool := false
  debug : Bool := false
  saveDirectory? : Option String := none
  deriving DecidableEq, Repr

def gather (gathered : Gathered) : List String → Except ArgumentFault Gathered
  | [] => .ok gathered
  | argument :: rest =>
      if argument = "--texting" then gather { gathered with kind := .texting } rest
      else if argument = "--autoplay" then gather { gathered with autoplay := true } rest
      else if argument = "--debug" then gather { gathered with debug := true } rest
      else if argument = "--save-dir" then
        match rest with
        | [] => .error .missingDirectory
        | directory :: rest => gather { gathered with saveDirectory? := some directory } rest
      else if ['-', '-'].isPrefixOf argument.toList then .error (.unknownOption argument)
      else gather { gathered with plain := gathered.plain ++ [argument] } rest

def ofList (arguments : List String) : Except ArgumentFault Arguments := do
  let gathered ← gather {} arguments
  match gathered.plain with
  | [gameDirectory, story] =>
      return { gathered with gameDirectory, story }
  | [] | [_] => throw .tooFew
  | _ => throw .tooMany

def saveDirectory (arguments : Arguments) : String :=
  arguments.saveDirectory?.getD (joinPath arguments.gameDirectory "save")

end Arguments
end Player
end BranchingStory
