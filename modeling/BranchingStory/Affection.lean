import BranchingStory.Json.Decode
import BranchingStory.Json.Printer

/-!
How fond each character is of the player.
-/

namespace BranchingStory

abbrev Affection := Catalog String Float

namespace Affection

def encode (levels : Affection) : Json :=
  .object (levels.entries.map fun (name, level) => (name, .ofFloat level))

def decode : Json.Decoder Affection := Json.Decoder.catalog Json.Decoder.float

end Affection
end BranchingStory
