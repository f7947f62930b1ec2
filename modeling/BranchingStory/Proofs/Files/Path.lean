import BranchingStory.Proofs.Files.Disk

/-!
Paths that are joined, and where they lead. A path below a folder has the parts of the folder before its own.
-/

namespace BranchingStory

theorem pieces_append {separates : Char → Bool} {separator : Char} (apart : separates separator = true)
    (left right : List Char) :
    pieces separates (left ++ separator :: right) = pieces separates left ++ pieces separates right := by
  induction left with
  | nil => simp [pieces, apart]
  | cons first rest ih =>
      obtain ⟨piece, more, found⟩ := List.exists_cons_of_ne_nil (pieces_ne_nil separates rest)
      rw [List.cons_append, pieces, pieces, ih, found]
      cases separates first <;> rfl

theorem pathParts_ne_nil (path : String) : pathParts path ≠ [] := by
  simp [pathParts, pieces_ne_nil]

theorem pathParts_slash {path above below : String} (spelled : path.toList = above.toList ++ '/' :: below.toList) :
    pathParts path = pathParts above ++ pathParts below := by
  rw [pathParts, spelled, pieces_append (by decide), List.map_append]
  rfl

theorem startsWith_slash_iff {path : String} : path.startsWith "/" = true ↔ path.toList.head? = some '/' := by
  rw [String.startsWith_string_iff]
  cases path.toList with
  | nil => simp
  | cons first rest => simp [List.cons_prefix_cons, eq_comm]

theorem parts_joinPath (folder : String) {path : String} (relative : path.startsWith "/" = false) :
    ∃ above ended, (ended = [] ∨ ended = [""]) ∧ pathParts folder = above ++ ended ∧
      pathParts (joinPath folder path) = above ++ pathParts path := by
  by_cases none : folder = ""
  · subst none
    exact ⟨[], [""], .inr rfl, rfl, rfl⟩
  · by_cases slash : folder.endsWith "/" = true
    · have whole : joinPath folder path = folder ++ path := by simp [joinPath, none, relative, slash]
      rw [String.endsWith_eq_endsWith_toSlice, String.Slice.endsWith_string_iff, String.copy_toSlice] at slash
      obtain ⟨above, spelled⟩ := slash
      have spelled : folder.toList = (String.ofList above).toList ++ '/' :: "".toList := by
        rw [String.toList_ofList]
        exact spelled.symm
      refine ⟨pathParts (String.ofList above), [""], .inr rfl, pathParts_slash spelled, pathParts_slash ?_⟩
      rw [whole, String.toList_append, spelled, List.append_assoc]
      rfl
    · have whole : joinPath folder path = folder ++ "/" ++ path := by simp [joinPath, none, relative, slash]
      exact ⟨pathParts folder, [], .inl rfl, (List.append_nil _).symm, pathParts_slash (by simp [whole])⟩

namespace Files
namespace Disk

variable {disk : Disk} {path : String}

theorem start_congr {path other : String} (same : path.toList.head? = other.toList.head?) :
    disk.start path = disk.start other := by
  simp only [start, startsWith_slash_iff, same]

theorem start_joinPath {folder : String} (relative : path.startsWith "/" = false) :
    disk.start (joinPath folder path) = disk.start folder := by
  by_cases none : folder = ""
  · subst none
    have whole : joinPath "" path = path := rfl
    rw [whole, start, relative]
    rfl
  · obtain ⟨first, rest, letters⟩ := List.exists_cons_of_ne_nil (mt String.toList_eq_nil_iff.mp none)
    refine start_congr ?_
    by_cases slash : folder.endsWith "/" = true
    · simp [joinPath, none, relative, slash, letters]
    · simp [joinPath, none, relative, slash, letters]

end Disk

namespace Node

variable {node : Node} {here there : List String}

theorem follow_of_append {parts more : List String} (led : node.follow here (parts ++ more) = .ok there) :
    ∃ between, node.follow here parts = .ok between ∧ node.follow between more = .ok there := by
  induction parts generalizing here with
  | nil => exact ⟨here, rfl, led⟩
  | cons part rest ih =>
      rw [List.cons_append, follow_cons] at led
      obtain ⟨entries, opened, led⟩ := bind_eq_ok.mp led
      obtain ⟨onward, first, led⟩ := bind_eq_ok.mp led
      obtain ⟨between, before, after⟩ := ih led
      refine ⟨between, ?_, after⟩
      rw [follow_cons]
      exact bind_eq_ok.mpr ⟨entries, opened, bind_eq_ok.mpr ⟨onward, first, before⟩⟩

theorem follow_blank {part : String} {rest : List String} (led : node.follow here (part :: rest) = .ok there) :
    node.follow here [""] = .ok here := by
  rw [follow_cons] at led ⊢
  obtain ⟨entries, opened, _⟩ := bind_eq_ok.mp led
  exact bind_eq_ok.mpr ⟨entries, opened, rfl⟩

end Node
end Files
end BranchingStory
