import BranchingStory.Json.Decode
import BranchingStory.Text.Split
import BranchingStory.Trace.Basic

/-!
Which traces are written, and where to. Tracing is off unless a query or the environment turns it on.
-/

namespace BranchingStory
namespace Trace

open Json (Draft Fault Decoder)

inductive Output
  | log
  | standardError
  deriving DecidableEq, Repr

structure Config where
  enabled : Bool := false
  categories : List Category := Category.all
  output : Output := .log

def Output.word : Output → String
  | .log => "Log"
  | .standardError => "Stderr"

def Output.ofWord? (word : String) : Option Output :=
  [.log, .standardError].find? fun (output : Output) => output.word == word

def padRight (width : Nat) (text : String) : String :=
  text ++ String.ofList (List.replicate (width - text.toList.length) ' ')

namespace Config

def on : Config := { enabled := true }

def allows (config : Config) (category : Category) : Bool :=
  config.enabled && config.categories.contains category

/-- The name and the value of a pair; a pair without an equals sign has neither. -/
def pair? (pair : List Char) : Option (List Char × List Char) :=
  match pair.dropWhile (· ≠ '=') with
  | [] => none
  | _ :: value => some (pair.takeWhile (· ≠ '='), value)

def turnsOn (pair : List Char) : Bool :=
  match pair? pair with
  | some (name, value) => name = "debug".toList && (value = ['1'] || value = "true".toList)
  | none => false

def ofQuery (query : String) : Config :=
  { enabled := (pieces (· = '&') (query.toList.dropWhile (· = '?'))).any turnsOn }

def ofEnvironment (value : Option String) : Config :=
  { enabled := match value with
      | some value => value != "0"
      | none => false
    output := .standardError }

def line? (config : Config) (trace : Trace) : Option String :=
  if config.allows trace.category then
    some (match config.output with
      | .log => "[" ++ trace.category.word ++ "] " ++ trace.body
      | .standardError => "[DEBUG] " ++ padRight 10 trace.category.word ++ " " ++ trace.body)
  else none

def lines (config : Config) (output : Output) (traces : List Trace) : List String :=
  if config.output = output then traces.filterMap config.line? else []

def decode : Decoder Config := fun levels draft => do
  let field (levels : Nat) (record : Option Bool × Option (List Category) × Option Output)
      (name : String) (value : Draft) : Except Fault (Option Bool × Option (List Category) × Option Output) := do
    if name = "enabled" then return (some (← Decoder.bool levels value), record.2)
    else if name = "categories" then
      return (record.1, some (← Decoder.list (Decoder.name Category.ofWord?) levels value), record.2.2)
    else return (record.1, record.2.1, some (← Decoder.name Output.ofWord? levels value))
  let (enabled, categories, output) ←
    Decoder.structured ["enabled", "categories", "output"] field (none, none, none) levels draft
  return { enabled := ← Decoder.required enabled
           categories := ← Decoder.required categories
           output := ← Decoder.required output }

end Config
end Trace
end BranchingStory
