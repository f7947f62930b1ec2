import BranchingStory.Story.Entry
import BranchingStory.Text.Split

/-!
Where the pictures and sounds of a story lie.
-/

namespace BranchingStory

structure AssetBase where
  base : String := ""

namespace AssetBase

/-- A path under the base; slashes at the end of the base are not doubled. -/
def join (assets : AssetBase) (path : String) : String :=
  if assets.base = "" then path
  else String.ofList (dropEnd '/' assets.base.toList) ++ "/" ++ path

def character (assets : AssetBase) (name : String) (outfit state : Option String) : String :=
  let outfit := (present outfit).getD "default"
  let state := (present state).getD "neutral"
  assets.join ("assets/characters/" ++ name ++ "/" ++ outfit ++ "/" ++ state ++ ".png")

def background (assets : AssetBase) (key : String) : String := assets.join ("assets/backgrounds/" ++ key)

def sfx (assets : AssetBase) (key : String) : String := assets.join ("sfx/" ++ key)

def avatar (assets : AssetBase) (name : String) : String :=
  assets.join ("assets/characters/" ++ name ++ "/texting.png")

end AssetBase
end BranchingStory
