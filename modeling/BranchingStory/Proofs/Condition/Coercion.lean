import BranchingStory.Proofs.Condition.Display
import BranchingStory.Proofs.Decimal.Unsigned

/-!
Texts as numbers. Blanks around it apart, a text is a number only if it is empty, one of three names of infinities or a
numeral. The other names that readers of floats know are none, in whatever letter case.
-/

namespace BranchingStory

/-! ## Blanks around a text -/

structure Trims (text trimmed : List Char) : Prop where
  around : ∃ before after, text = before ++ (trimmed ++ after) ∧ ∀ c ∈ before ++ after, isBlank c = true
  first : ∀ c ∈ trimmed.head?, isBlank c = false
  last : ∀ c ∈ trimmed.getLast?, isBlank c = false

theorem isBlank_head?_dropWhile (text : List Char) : ∀ c ∈ (text.dropWhile isBlank).head?, isBlank c = false := by
  intro c first
  have stops := List.head?_dropWhile_not isBlank text
  rw [Option.mem_def.mp first] at stops
  exact stops

theorem trims_trimBlanks (text : List Char) : Trims text (trimBlanks text) := by
  obtain ⟨after, rest, blank⟩ : ∃ after, text.dropWhile isBlank = trimBlanks text ++ after ∧
      ∀ c ∈ after, isBlank c = true := by
    refine ⟨((text.dropWhile isBlank).reverse.takeWhile isBlank).reverse, ?_, fun c member => ?_⟩
    · rw [trimBlanks, ← List.reverse_append, List.takeWhile_append_dropWhile, List.reverse_reverse]
    · exact List.mem_takeWhile_imp (List.mem_reverse.mp member)
  constructor
  · refine ⟨text.takeWhile isBlank, after, ?_, List.forall_mem_append.mpr ⟨fun c => List.mem_takeWhile_imp, blank⟩⟩
    rw [← rest, List.takeWhile_append_dropWhile]
  · intro c first
    refine isBlank_head?_dropWhile text c ?_
    rw [rest]
    exact List.mem_head?_append_of_mem_head? first
  · rw [trimBlanks, List.getLast?_reverse]
    exact isBlank_head?_dropWhile _

namespace Condition

/-! ## Names of floats -/

def floatNames : List (List Char) := ["inf".toList, "infinity".toList, "nan".toList]

def namedFloat? (text : List Char) : Option Float :=
  let (negative, word) := Numeral.takeSign text
  let name := word.map Char.toLower
  if name ∈ floatNames then
    if name = "nan".toList then some (0 / 0) else if negative then some (-1 / 0) else some (1 / 0)
  else none

def float? (text : List Char) : Option Float :=
  (namedFloat? text).or ((Numeral.ofText? text).map Numeral.toFloat)

theorem isForeignLetter_of_toLower {c : Char} (same : c.toLower = 'n') : isForeignLetter c = true := by
  have letter : c.isAlpha = true := by
    rw [← Char.isAlpha_toLower_eq_isAlpha, same]
    rfl
  have mark {d : Char} (other : d.toLower ≠ 'n') : (c != d) = true := by
    rw [bne_iff_ne]
    rintro rfl
    exact other same
  rw [isForeignLetter, letter, mark (by decide), mark (by decide)]
  rfl

theorem exists_foreign_of_name {word : List Char} (name : word.map Char.toLower ∈ floatNames) :
    ∃ c ∈ word, isForeignLetter c = true := by
  have letter : 'n' ∈ word.map Char.toLower := by
    simp only [floatNames, List.mem_cons, List.not_mem_nil, or_false] at name
    rcases name with same | same | same <;> rw [same] <;> decide
  obtain ⟨c, member, lower⟩ := List.mem_map.mp letter
  exact ⟨c, member, isForeignLetter_of_toLower lower⟩

theorem namedFloat?_eq_none {text : List Char} (plain : ¬ text.any isForeignLetter = true) : namedFloat? text = none := by
  obtain ⟨⟨negative, word⟩, signed⟩ : ∃ parts, Numeral.takeSign text = parts := ⟨_, rfl⟩
  obtain ⟨sign, -, rfl⟩ := Numeral.takeSign_cases signed
  simp only [namedFloat?, signed]
  refine if_neg fun name => plain ?_
  obtain ⟨c, member, foreign⟩ := exists_foreign_of_name name
  exact List.any_eq_true.mpr ⟨c, List.mem_append_right sign member, foreign⟩

/-! ## Texts as numbers -/

def infinityNames : List (List Char) := ["Infinity".toList, "+Infinity".toList, "-Infinity".toList]

/-- The number of a text, if what is left of it is read by a reader that knows names of floats as well. -/
def readFloat (text : String) : Float :=
  let trimmed := trimBlanks text.toList
  if trimmed.isEmpty then 0
  else if trimmed = "Infinity".toList ∨ trimmed = "+Infinity".toList then 1 / 0
  else if trimmed = "-Infinity".toList then -1 / 0
  else if trimmed.any isForeignLetter then 0 / 0
  else (float? trimmed).getD (0 / 0)

theorem readNumber_eq_readFloat (text : String) : readNumber text = readFloat text := by
  rw [readNumber, readFloat]
  refine if_congr Iff.rfl rfl (if_congr Iff.rfl rfl (if_congr Iff.rfl rfl ?_))
  split
  · rfl
  · rename_i plain
    rw [float?, namedFloat?_eq_none plain, Option.none_or]
    cases Numeral.ofText? (trimBlanks text.toList) <;> rfl

variable {text : String}

theorem readNumber_of_infinityName (name : trimBlanks text.toList ∈ infinityNames) :
    readNumber text = 1 / 0 ∨ readNumber text = -1 / 0 := by
  simp only [infinityNames, List.mem_cons, List.not_mem_nil, or_false] at name
  rcases name with same | same | same
  · left
    simp [readNumber, same]
  · left
    simp [readNumber, same]
  · right
    simp [readNumber, same]

theorem readNumber_of_other (filled : trimBlanks text.toList ≠ []) (unnamed : trimBlanks text.toList ∉ infinityNames)
    (unread : ∀ numeral, ¬ Numeral.Denotes numeral (trimBlanks text.toList)) : readNumber text = 0 / 0 := by
  have none : Numeral.ofText? (trimBlanks text.toList) = none :=
    Option.eq_none_iff_forall_ne_some.mpr fun numeral read => unread numeral (Numeral.ofText?_eq_some_iff.mp read)
  simp only [infinityNames, List.mem_cons, List.not_mem_nil, or_false, not_or] at unnamed
  obtain ⟨plain, plus, minus⟩ := unnamed
  simp only [readNumber, List.isEmpty_iff, if_neg filled, if_neg (not_or.mpr ⟨plain, plus⟩), if_neg minus, none, ite_self]

theorem readNumber_of_blank (none : trimBlanks text.toList = []) : readNumber text = 0 := by
  rw [readNumber, if_pos (List.isEmpty_iff.mpr none)]

theorem isNaN_readNumber_iff : (readNumber text).isNaN = false ↔
    trimBlanks text.toList = [] ∨ trimBlanks text.toList ∈ infinityNames ∨
      ∃ numeral, Numeral.Denotes numeral (trimBlanks text.toList) := by
  constructor
  · intro definite
    by_contra other
    rw [not_or, not_or, not_exists] at other
    obtain ⟨filled, unnamed, unread⟩ := other
    rw [readNumber_of_other filled unnamed unread] at definite
    exact absurd definite (by decide +kernel)
  · rintro (none | name | ⟨numeral, denotes⟩)
    · rw [readNumber_of_blank none]
      decide +kernel
    · rcases readNumber_of_infinityName name with same | same
      · rw [same]
        decide +kernel
      · rw [same]
        decide +kernel
    · rw [readNumber_of_denotes denotes]
      exact isNaN_eq_false_iff.mpr numeral.toFloat_ne_notANumber

theorem isNaN_readNumber_of_name {before word : List Char} (name : word.map Char.toLower ∈ floatNames)
    (shape : trimBlanks text.toList = before ++ word) (unnamed : trimBlanks text.toList ∉ infinityNames) :
    (readNumber text).isNaN = true := by
  obtain ⟨c, member, foreign⟩ := exists_foreign_of_name name
  have inside : c ∈ trimBlanks text.toList := shape ▸ List.mem_append_right before member
  rw [← Bool.not_eq_false, isNaN_readNumber_iff]
  rintro (none | infinite | ⟨numeral, denotes⟩)
  · rw [none] at inside
    cases inside
  · exact unnamed infinite
  · rw [(plain_of_inNumeral (denotes.inNumeral c inside)).2] at foreign
    cases foreign

/-- A text is a number just if, without the blanks around it, it is empty, which is zero, or the name of an infinity, or
a numeral. Other names are no numbers, however they are written and whatever sign is before them, although the reader
of floats that comes last may know them. -/
theorem texts_that_are_numbers (text : String) :
    let trimmed := trimBlanks text.toList
    Trims text.toList trimmed ∧
      ((Operand.text text).toNumber.isNaN = false ↔
        trimmed = [] ∨ trimmed ∈ infinityNames ∨ ∃ numeral, Numeral.Denotes numeral trimmed) ∧
      (trimmed = [] → (Operand.text text).toNumber = 0) ∧
      (∀ before word, word.map Char.toLower ∈ floatNames → trimmed = before ++ word → trimmed ∉ infinityNames →
        (Operand.text text).toNumber.isNaN = true) ∧
      (Operand.text text).toNumber = readFloat text := by
  intro trimmed
  refine ⟨trims_trimBlanks _, isNaN_readNumber_iff, readNumber_of_blank, ?_, readNumber_eq_readFloat text⟩
  intro before word name shape unnamed
  exact isNaN_readNumber_of_name name shape unnamed

theorem numeral_between_blanks_is_number :
    (Operand.text "\u00a0-12.e+3\n").toNumber.isNaN = false ∧ (Operand.text " +iNfinity ").toNumber.isNaN = true ∧
      (Operand.text "\t\u3000").toNumber = 0 := by
  refine ⟨?_, ?_, ?_⟩
  · have trimmed : trimBlanks "\u00a0-12.e+3\n".toList = "-12.e+3".toList := by decide
    have denotes : Numeral.Denotes ⟨true, "12".toList, [], 3⟩ "-12.e+3".toList :=
      Numeral.ofText?_eq_some_iff.mp (by decide)
    exact (texts_that_are_numbers _).2.1.mpr (.inr (.inr ⟨_, trimmed ▸ denotes⟩))
  · have trimmed : trimBlanks " +iNfinity ".toList = ['+'] ++ "iNfinity".toList := by decide
    exact (texts_that_are_numbers _).2.2.2.1 _ _ (by decide) trimmed (by decide)
  · exact (texts_that_are_numbers "\t\u3000").2.2.1 (by decide)

end Condition
end BranchingStory
