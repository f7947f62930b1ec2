import BranchingStory.Unlock.Codec
import BranchingStory.Variables

/-!
What outlives a playthrough: affection levels, unlocks and preferences. They are kept as JSON texts under
fixed keys in whatever can hold texts by key.
-/

namespace BranchingStory
namespace Save

inductive Error
  | io (key reason : String)
  | malformed (key : String) (cause : Json.Refusal)
  | unavailable (reason : String)
  deriving DecidableEq, Repr

def Error.message : Error → String
  | .io key reason => "IO error for '" ++ key ++ "': " ++ reason
  | .malformed key cause => "Stored value for '" ++ key ++ "' is malformed: " ++
      (match cause with
        | .grammar => "not a JSON text"
        | .shape => "not of the expected shape")
  | .unavailable reason => "Storage unavailable: " ++ reason

structure Backend (σ : Type) where
  read : σ → String → Except Error (Option String)
  write : σ → String → String → Except Error Unit × σ

def memory : Backend (Catalog String String) where
  read texts key := .ok (texts.get? key)
  write texts key text := (.ok (), texts.insert key text)

def affectionKey : String := "affectionLevels"

def unlocksKey : String := "unlocks"

def autoplayKey : String := "autoplay"

/-- The keys under which anything is ever kept. -/
def keys : List String := [affectionKey, unlocksKey, autoplayKey]

namespace Backend

variable {σ : Type} (backend : Backend σ)

def load {α : Type} (decode : Json.Decoder α) (missing : α) (saved : σ) (key : String) : Except Error α := do
  match ← backend.read saved key with
  | some text => (Json.decodeText decode text).mapError (.malformed key)
  | none => return missing

def loadAffection (saved : σ) : Except Error Affection :=
  backend.load Affection.decode .empty saved affectionKey

def loadUnlocks (saved : σ) : Except Error Ledger :=
  backend.load Ledger.decode .empty saved unlocksKey

/-- A preference is on only if the very word `true` is kept for it. -/
def preference (saved : σ) (key : String) : Except Error Bool := do
  return (← backend.read saved key) = some "true"

def saveAffection (saved : σ) (levels : Affection) : Except Error Unit × σ :=
  backend.write saved affectionKey levels.encode.compact

def saveUnlocks (saved : σ) (ledger : Ledger) : Except Error Unit × σ :=
  backend.write saved unlocksKey ledger.encode.compact

def setPreference (saved : σ) (key : String) (on : Bool) : Except Error Unit × σ :=
  backend.write saved key (if on then "true" else "false")

end Backend

inductive Notice
  | warning (text : String)
  | error (text : String)

structure Kept (σ : Type) where
  saved : σ
  failure : Option Error := none
  notices : List Notice := []

/-- Follows one consequence. A failed write does not stop those after it. -/
def Backend.follow {σ : Type} (backend : Backend σ) (kept : Kept σ) : Variables.Consequence → Kept σ
  | .ignored warning => { kept with notices := kept.notices ++ [.warning warning] }
  | .changed levels =>
      match backend.saveAffection kept.saved levels with
      | (.ok (), saved) => { kept with saved }
      | (.error cause, saved) =>
          { saved
            failure := kept.failure.or (some cause)
            notices :=
              kept.notices ++ [.error ("Failed to persist affection levels: " ++ cause.message)] }

def Backend.keep {σ : Type} (backend : Backend σ) (saved : σ)
    (consequences : List Variables.Consequence) : Kept σ :=
  consequences.foldl backend.follow { saved }

end Save
end BranchingStory
