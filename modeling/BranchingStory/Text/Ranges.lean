/-!
Classes of characters given as ranges of code points.
-/

namespace BranchingStory

def inRanges (ranges : List (Nat × Nat)) (code : Nat) : Bool :=
  ranges.any fun range => range.1 ≤ code && code ≤ range.2

def rangeCount (ranges : List (Nat × Nat)) : Nat :=
  ranges.foldr (fun range count => range.2 + 1 - range.1 + count) 0

end BranchingStory
