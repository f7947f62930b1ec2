/-!
Text cut into pieces at separators.
-/

namespace BranchingStory

/-- The pieces between separators; there is one more of them than there are separators. -/
def pieces (separates : Char → Bool) : List Char → List (List Char)
  | [] => [[]]
  | c :: rest =>
      match separates c, pieces separates rest with
      | true, found => [] :: found
      | false, piece :: more => (c :: piece) :: more
      | false, [] => [[c]]

theorem pieces_ne_nil (separates : Char → Bool) (text : List Char) : pieces separates text ≠ [] := by
  cases text with
  | nil => simp [pieces]
  | cons c rest => simp only [pieces]; split <;> simp

def dropEnd (c : Char) (text : List Char) : List Char :=
  (text.reverse.dropWhile (· = c)).reverse

end BranchingStory
