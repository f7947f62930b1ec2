import BranchingStory.Json.Printer

/-!
Traces of playback: what happened, under one of a few categories.
-/

namespace BranchingStory

namespace Trace

inductive Category
  | engine
  | flow
  | values
  | conditions
  | storage
  deriving DecidableEq, Repr

namespace Category

def all : List Category := [.engine, .flow, .values, .conditions, .storage]

def word : Category → String
  | .engine => "Engine"
  | .flow => "Flow"
  | .values => "Variables"
  | .conditions => "Conditions"
  | .storage => "Storage"

def ofWord? (word : String) : Option Category := all.find? fun category => category.word == word

end Category
end Trace

structure Trace where
  category : Trace.Category
  message : String
  data : Json

def Trace.body (trace : Trace) : String :=
  match trace.data with
  | .null => trace.message
  | data => trace.message ++ " " ++ data.compact

end BranchingStory
