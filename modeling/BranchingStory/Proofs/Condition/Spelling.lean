import BranchingStory.Proofs.Condition.Numerals
import BranchingStory.Proofs.Results

/-!
How tokens are spelled, said without a reader. The first token of a text is read from the longest start of it that is
spelled like any token at all, and where no token is read, the text does not start with any. No text is spelled like
two tokens, and no token starts like a blank.
-/

namespace BranchingStory.Condition

open Numeral (isDigit)
open Lexeme (startsName inName unescape startsNumeral)

inductive SpellsQuoted (quote : Char) : List Char → List Char → Prop
  | close : SpellsQuoted quote [] [quote]
  | escaped {c : Char} {value text : List Char} (behind : SpellsQuoted quote value text) :
      SpellsQuoted quote (unescape c :: value) ('\\' :: c :: text)
  | plain {c : Char} {value text : List Char} (inside : c ≠ quote) (unescaped : c ≠ '\\')
      (behind : SpellsQuoted quote value text) : SpellsQuoted quote (c :: value) (c :: text)

inductive Spells : Token → List Char → Prop
  | number {numeral : Numeral} {text : List Char} (spelled : numeral.Spells text) :
      Spells (.number numeral.toFloat) text
  | text {quote : Char} {value text : List Char} (quotes : quote = '\'' ∨ quote = '"')
      (spelled : SpellsQuoted quote value text) : Spells (.text (String.ofList value)) (quote :: text)
  | name {first : Char} {rest : List Char} (starts : startsName first = true) (goes_on : ∀ c ∈ rest, inName c = true)
      (free : ∀ word : Keyword, word.source.toList ≠ first :: rest) :
      Spells (.name (String.ofList (first :: rest))) (first :: rest)
  | keyword (word : Keyword) : Spells (.keyword word) word.source.toList
  | mark (sign : Mark) : Spells (.mark sign) sign.source

/-! ## Quoted texts -/

section

variable {quote : Char} {text value body rest : List Char}

theorem spellsQuoted_of_quoted (read : Lexeme.quoted quote text = some (value, body, rest)) :
    SpellsQuoted quote value body ∧ text = body ++ rest := by
  fun_induction Lexeme.quoted quote text generalizing value body rest with
  | case1 => cases read
  | case2 rest =>
      cases read
      exact ⟨.close, rfl⟩
  | case3 => cases read
  | case4 other escaped rest ih =>
      obtain ⟨⟨value, body, behind⟩, found, same⟩ := Option.map_eq_some_iff.mp read
      obtain ⟨spelled, rfl⟩ := ih found
      cases same
      exact ⟨.escaped spelled, rfl⟩
  | case5 c rest other unescaped ih =>
      obtain ⟨⟨value, body, behind⟩, found, same⟩ := Option.map_eq_some_iff.mp read
      obtain ⟨spelled, rfl⟩ := ih found
      cases same
      exact ⟨.plain other unescaped spelled, rfl⟩

theorem SpellsQuoted.quoted_eq (spelled : SpellsQuoted quote value body) (other : quote ≠ '\\') (rest : List Char) :
    Lexeme.quoted quote (body ++ rest) = some (value, body, rest) := by
  induction spelled with
  | close => simp [Lexeme.quoted.eq_def]
  | escaped behind ih => simp [Lexeme.quoted, other.symm, ih]
  | plain inside unescaped behind ih => simp [Lexeme.quoted.eq_def quote (_ :: _), inside, unescaped, ih]

theorem SpellsQuoted.quoted_of_prefix {c : Char} (spelled : SpellsQuoted quote value body) (quotes : c = '\'' ∨ c = '"')
    (leads : quote :: body <+: c :: rest) :
    quote = c ∧ ∃ left, Lexeme.quoted c rest = some (value, body, left) := by
  obtain ⟨left, joined⟩ := leads
  obtain ⟨rfl, rfl⟩ := List.cons.inj joined
  have unescaped : quote ≠ '\\' := by rcases quotes with rfl | rfl <;> decide
  exact ⟨rfl, left, spelled.quoted_eq unescaped left⟩

end

/-! ## Names and keywords -/

theorem Keyword.ofName?_eq_some_iff {name : String} {word : Keyword} :
    ofName? name = some word ↔ word.source = name := by
  constructor
  · intro found
    have same := List.find?_some found
    exact beq_iff_eq.mp same
  · rintro rfl
    cases word <;> rfl

theorem inName_of_startsName {c : Char} (starts : startsName c = true) : inName c = true := by
  simp only [startsName, inName, isAlphanumeric, Bool.or_eq_true] at starts ⊢
  tauto

theorem Keyword.source_spelled (word : Keyword) :
    ∃ first rest, word.source.toList = first :: rest ∧ startsName first = true ∧ ∀ c ∈ rest, inName c = true := by
  cases word <;> exact ⟨_, _, rfl, by decide, List.all_eq_true.mp rfl⟩

theorem spells_wordToken {first : Char} {rest : List Char} (starts : startsName first = true)
    (goes_on : ∀ c ∈ rest, inName c = true) : Spells (Lexeme.wordToken (first :: rest)) (first :: rest) := by
  rw [Lexeme.wordToken]
  cases found : Keyword.ofName? (String.ofList (first :: rest)) with
  | some word =>
      have same := Keyword.ofName?_eq_some_iff.mp found
      have spelled : word.source.toList = first :: rest := by rw [same, String.toList_ofList]
      exact spelled ▸ .keyword word
  | none =>
      refine .name starts goes_on fun word same => ?_
      have named : word.source = String.ofList (first :: rest) := by rw [← same, String.ofList_toList]
      rw [Keyword.ofName?_eq_some_iff.mpr named] at found
      cases found

/-! ## Marks -/

theorem prefix_of_mark? {text : List Char} {sign : Mark} (read : Lexeme.mark? text = some sign) :
    sign.source <+: text := by
  rw [Lexeme.mark?.eq_def] at read
  split at read <;> cases read <;> exact ⟨_, rfl⟩

theorem exists_mark? (sign : Mark) (rest : List Char) :
    ∃ longer, Lexeme.mark? (sign.source ++ rest) = some longer ∧ sign.source <+: longer.source := by
  have same : Lexeme.mark? (sign.source ++ rest) = some sign →
      ∃ longer, Lexeme.mark? (sign.source ++ rest) = some longer ∧ sign.source <+: longer.source :=
    fun read => ⟨sign, read, List.prefix_rfl⟩
  by_cases equals : ∃ more, rest = '=' :: more
  · obtain ⟨more, rfl⟩ := equals
    cases sign with
    | less => exact ⟨.atMost, rfl, by decide⟩
    | greater => exact ⟨.atLeast, rfl, by decide⟩
    | equal => exact ⟨.identical, rfl, by decide⟩
    | unequal => exact ⟨.distinct, rfl, by decide⟩
    | not =>
        by_cases again : ∃ behind, more = '=' :: behind
        · obtain ⟨behind, rfl⟩ := again
          exact ⟨.distinct, rfl, by decide⟩
        · refine ⟨.unequal, ?_, by decide⟩
          simp [Mark.source, Lexeme.mark?, not_exists.mp again]
    | _ => exact same rfl
  · cases sign with
    | less | greater | equal | unequal | not =>
        exact same (by simp [Mark.source, Lexeme.mark?, not_exists.mp equals])
    | _ => exact same rfl

/-! ## What tokens start with -/

theorem startsName_of_isDigit {c : Char} (digit : isDigit c = true) : startsName c = false := by
  have range : ∀ code ∈ List.range' 0x30 10, startsName (Char.ofNat code) = false := by decide
  rw [isDigit, Bool.and_eq_true, decide_eq_true_eq, decide_eq_true_eq] at digit
  have low : 0x30 ≤ c.toNat := digit.1
  have high : c.toNat ≤ 0x39 := digit.2
  rw [← Char.ofNat_toNat c]
  exact range c.toNat (by rw [List.mem_range'_1]; omega)

theorem plain_of_isBlank {c : Char} (blank : isBlank c = true) :
    isDigit c = false ∧ startsName c = false ∧ c ≠ '.' ∧ ¬ (c = '\'' ∨ c = '"') := by
  let codes := blankRanges.flatMap fun range => List.range' range.1 (range.2 + 1 - range.1)
  have all : ∀ code ∈ codes, isDigit (Char.ofNat code) = false ∧ startsName (Char.ofNat code) = false ∧
      Char.ofNat code ≠ '.' ∧ ¬ (Char.ofNat code = '\'' ∨ Char.ofNat code = '"') := by
    decide +kernel
  obtain ⟨range, listed, inside⟩ := List.any_eq_true.mp blank
  rw [Bool.and_eq_true, decide_eq_true_eq, decide_eq_true_eq] at inside
  have member : c.toNat ∈ codes :=
    List.mem_flatMap.mpr ⟨range, listed, List.mem_range'_1.mpr ⟨inside.1, by omega⟩⟩
  have found := all c.toNat member
  rwa [Char.ofNat_toNat] at found

theorem Mark.source_head (sign : Mark) :
    ∃ first rest, sign.source = first :: rest ∧ isDigit first = false ∧ startsName first = false ∧ first ≠ '\'' ∧
      first ≠ '"' ∧ isBlank first = false := by
  cases sign <;> exact ⟨_, _, rfl, by decide⟩

theorem startsNumeral_of_spells {numeral : Numeral} {text : List Char} (spells : numeral.Spells text)
    (rest : List Char) : startsNumeral (text ++ rest) = true := by
  cases spells with
  | @parts whole fraction point power exponent all behind some scaled =>
      cases whole with
      | cons first more => simp [startsNumeral, all first List.mem_cons_self]
      | nil =>
          cases behind with
          | absent => simp at some
          | point decimal filled =>
              simp [startsNumeral, Lexeme.startsWithDigit_append decimal filled (power ++ rest)]

/-- What a text starts with if it starts with a token of the same kind. -/
def StartsLike (c : Char) (rest : List Char) : Token → Prop
  | .number _ => startsNumeral (c :: rest) = true
  | .text _ => c = '\'' ∨ c = '"'
  | .name _ | .keyword _ => startsName c = true
  | .mark sign => sign.source <+: c :: rest

theorem Spells.start {token : Token} {text rest : List Char} {c : Char} (spells : Spells token text)
    (leads : text <+: c :: rest) : StartsLike c rest token := by
  obtain ⟨behind, whole⟩ := leads
  cases spells with
  | number spelled =>
      rw [StartsLike, ← whole]
      exact startsNumeral_of_spells spelled behind
  | text quotes spelled =>
      obtain rfl := (List.cons.inj whole).1
      exact quotes
  | name starts =>
      obtain rfl := (List.cons.inj whole).1
      exact starts
  | keyword word =>
      obtain ⟨first, more, source, starts, -⟩ := word.source_spelled
      rw [source] at whole
      obtain rfl := (List.cons.inj whole).1
      exact starts
  | mark sign => exact ⟨behind, whole⟩

theorem not_startsName_of_startsNumeral {c : Char} {rest : List Char} (starts : startsNumeral (c :: rest) = true) :
    ¬ startsName c = true ∧ ¬ (c = '\'' ∨ c = '"') := by
  simp only [startsNumeral, Bool.or_eq_true, Bool.and_eq_true, beq_iff_eq] at starts
  obtain digit | ⟨rfl, -⟩ := starts
  · refine ⟨Bool.eq_false_iff.mp (startsName_of_isDigit digit), not_or.mpr ⟨?_, ?_⟩⟩
    · exact Numeral.ne_of_isDigit digit (by decide)
    · exact Numeral.ne_of_isDigit digit (by decide)
  · decide

theorem not_startsName_of_quote {c : Char} (quotes : c = '\'' ∨ c = '"') : ¬ startsName c = true := by
  rcases quotes with rfl | rfl <;> decide

theorem source_of_startsNumeral {c : Char} {rest : List Char} {sign : Mark}
    (starts : startsNumeral (c :: rest) = true) (leads : sign.source <+: c :: rest) : sign.source = [c] := by
  obtain ⟨first, more, source, no_digit, -⟩ := sign.source_head
  rw [source, List.cons_prefix_cons] at leads
  obtain ⟨rfl, -⟩ := leads
  simp only [startsNumeral, no_digit, Bool.false_or, Bool.and_eq_true, beq_iff_eq] at starts
  obtain ⟨rfl, -⟩ := starts
  cases sign <;> simp_all [Mark.source]

theorem not_prefix_source {c : Char} {rest : List Char} {sign : Mark} (leads : sign.source <+: c :: rest) :
    ¬ startsName c = true ∧ ¬ (c = '\'' ∨ c = '"') := by
  obtain ⟨first, more, source, -, no_name, apostrophe, quote, -⟩ := sign.source_head
  rw [source, List.cons_prefix_cons] at leads
  obtain ⟨rfl, -⟩ := leads
  exact ⟨Bool.eq_false_iff.mp no_name, not_or.mpr ⟨apostrophe, quote⟩⟩

theorem Spells.filled {token : Token} {text rest : List Char} {c : Char} (spells : Spells token text)
    (leads : text <+: c :: rest) : isBlank c = false := by
  have start := spells.start leads
  rw [← Bool.not_eq_true]
  intro blank
  obtain ⟨no_digit, no_name, no_point, no_quote⟩ := plain_of_isBlank blank
  cases spells with
  | number => simp [StartsLike, startsNumeral, no_digit, no_point] at start
  | text => exact no_quote start
  | name | keyword => exact Bool.eq_false_iff.mp no_name start
  | mark sign =>
      obtain ⟨first, more, source, -, -, -, -, solid⟩ := sign.source_head
      rw [source, List.cons_prefix_cons] at leads
      rw [leads.1, blank] at solid
      cases solid

/-! ## The longest token -/

/-- A text that is spelled like a token, and what follows it. Nothing longer is spelled like a token there. -/
structure Longest (token : Token) (text rest : List Char) : Prop where
  spells : Spells token text
  longest : ∀ other more, Spells other more → more <+: text ++ rest → more <+: text

section

variable {c : Char} {rest text behind value : List Char}

theorem longest_numeral (starts : startsNumeral (c :: rest) = true)
    (split : Lexeme.numeral (c :: rest) = (text, behind)) :
    ∃ numeral, Numeral.ofText? text = some numeral ∧ Longest (.number numeral.toFloat) text behind ∧
      c :: rest = text ++ behind := by
  obtain ⟨numeral, spelled⟩ : ∃ numeral : Numeral, numeral.Spells text := by
    simpa only [split] using Lexeme.numeral_spells starts
  have whole := Lexeme.numeral_parts split
  refine ⟨numeral, spelled.ofText?_eq, ⟨.number spelled, fun other more spells leads => ?_⟩, whole⟩
  rw [← whole] at leads
  have start := spells.start leads
  obtain ⟨no_name, no_quote⟩ := not_startsName_of_startsNumeral starts
  cases spells with
  | number shorter =>
      obtain ⟨left, joined⟩ := leads
      have longer := Lexeme.prefix_numeral shorter left
      rwa [joined, split] at longer
  | text quotes => exact absurd start no_quote
  | name | keyword => exact absurd start no_name
  | mark sign =>
      rw [source_of_startsNumeral starts start]
      cases text with
      | nil => exact absurd (startsNumeral_of_spells spelled []) (by decide)
      | cons first digits =>
          obtain rfl := (List.cons.inj whole).1
          simp

theorem longest_quoted (quotes : c = '\'' ∨ c = '"') (read : Lexeme.quoted c rest = some (value, text, behind)) :
    Longest (.text (String.ofList value)) (c :: text) behind ∧ c :: rest = c :: text ++ behind := by
  obtain ⟨spelled, rfl⟩ := spellsQuoted_of_quoted read
  refine ⟨⟨.text quotes spelled, fun other more spells leads => ?_⟩, rfl⟩
  rw [List.cons_append] at leads
  have start := spells.start leads
  have no_name := not_startsName_of_quote quotes
  cases spells with
  | number => exact absurd quotes (not_startsName_of_startsNumeral start).2
  | text _ shorter =>
      obtain ⟨rfl, left, again⟩ := shorter.quoted_of_prefix quotes leads
      rw [read] at again
      cases again
      exact List.prefix_rfl
  | name | keyword => exact absurd start no_name
  | mark => exact absurd quotes (not_prefix_source start).2

theorem longest_word (starts : startsName c = true) :
    Longest (Lexeme.wordToken ((c :: rest).takeWhile inName)) ((c :: rest).takeWhile inName)
      ((c :: rest).dropWhile inName) where
  spells := by
    rw [List.takeWhile_cons_of_pos (inName_of_startsName starts)]
    exact spells_wordToken starts fun d => List.mem_takeWhile_imp
  longest := by
    intro other more spells leads
    rw [List.takeWhile_append_dropWhile] at leads
    have start := spells.start leads
    obtain ⟨left, joined⟩ := leads
    rw [← joined]
    refine Lexeme.prefix_takeWhile ?_ left
    cases spells with
    | number => exact absurd starts (not_startsName_of_startsNumeral start).1
    | text => exact absurd starts (not_startsName_of_quote start)
    | name first goes_on => exact List.forall_mem_cons.mpr ⟨inName_of_startsName first, goes_on⟩
    | keyword word =>
        obtain ⟨first, more, source, begins, goes_on⟩ := word.source_spelled
        rw [source]
        exact List.forall_mem_cons.mpr ⟨inName_of_startsName begins, goes_on⟩
    | mark => exact absurd starts (not_prefix_source start).1

theorem longest_mark {sign : Mark} (no_numeral : startsNumeral (c :: rest) = false)
    (read : Lexeme.mark? (c :: rest) = some sign) :
    Longest (.mark sign) sign.source ((c :: rest).drop sign.source.length) ∧
      c :: rest = sign.source ++ (c :: rest).drop sign.source.length := by
  have source := prefix_of_mark? read
  have whole := List.prefix_iff_eq_append.mp source
  refine ⟨⟨.mark sign, fun other more spells leads => ?_⟩, whole.symm⟩
  rw [whole] at leads
  have start := spells.start leads
  cases spells with
  | number => exact absurd start (Bool.eq_false_iff.mp no_numeral)
  | text => exact absurd start (not_prefix_source source).2
  | name | keyword => exact absurd start (not_prefix_source source).1
  | mark shorter =>
      obtain ⟨left, joined⟩ := leads
      obtain ⟨longer, read_longer, extends_it⟩ := exists_mark? shorter left
      rw [joined, read] at read_longer
      cases read_longer
      exact extends_it

end

/-! ## The first token of a text -/

open Lexeme (first)

section

variable {offset : Nat} {c : Char} {rest : List Char}

theorem longest_of_first {lexeme : Lexeme} (read : first offset c rest = .ok lexeme) :
    Longest lexeme.token lexeme.text lexeme.rest ∧ c :: rest = lexeme.text ++ lexeme.rest := by
  rw [first] at read
  split at read
  · rename_i starts
    obtain ⟨⟨text, behind⟩, split⟩ : ∃ parts, Lexeme.numeral (c :: rest) = parts := ⟨_, rfl⟩
    obtain ⟨numeral, taken, longest⟩ := longest_numeral starts split
    simp only [split, taken] at read
    cases read
    exact longest
  · rename_i no_numeral
    split at read
    · rename_i quotes
      split at read
      · rename_i value text behind quoted
        cases read
        exact longest_quoted quotes quoted
      · cases read
    · split at read
      · rename_i starts
        cases read
        exact ⟨longest_word starts, (List.takeWhile_append_dropWhile).symm⟩
      · split at read
        · rename_i sign marked
          cases read
          exact longest_mark (Bool.eq_false_iff.mpr no_numeral) marked
        · cases read

theorem none_of_unquoted (quotes : c = '\'' ∨ c = '"') (unquoted : Lexeme.quoted c rest = none) (token : Token)
    (text : List Char) (spells : Spells token text) : ¬ text <+: c :: rest := by
  intro leads
  have start := spells.start leads
  cases spells with
  | number => exact (not_startsName_of_startsNumeral start).2 quotes
  | text _ spelled =>
      obtain ⟨-, left, read⟩ := spelled.quoted_of_prefix quotes leads
      rw [unquoted] at read
      cases read
  | name | keyword => exact not_startsName_of_quote quotes start
  | mark => exact (not_prefix_source start).2 quotes

theorem none_of_unmarked (no_numeral : ¬ startsNumeral (c :: rest) = true) (no_quote : ¬ (c = '\'' ∨ c = '"'))
    (no_name : ¬ startsName c = true) (unmarked : Lexeme.mark? (c :: rest) = none) (token : Token) (text : List Char)
    (spells : Spells token text) : ¬ text <+: c :: rest := by
  intro leads
  have start := spells.start leads
  cases spells with
  | number => exact no_numeral start
  | text => exact no_quote start
  | name | keyword => exact no_name start
  | mark sign =>
      obtain ⟨left, joined⟩ := leads
      obtain ⟨longer, read, -⟩ := exists_mark? sign left
      rw [joined, unmarked] at read
      cases read

theorem none_of_first {cause : Error} (failed : first offset c rest = .error cause) :
    (∀ token text, Spells token text → ¬ text <+: c :: rest) ∧
      cause = if c = '\'' ∨ c = '"' then .unterminatedText offset else .unexpectedCharacter c offset := by
  rw [first] at failed
  split at failed
  · rename_i starts
    obtain ⟨⟨text, behind⟩, split⟩ : ∃ parts, Lexeme.numeral (c :: rest) = parts := ⟨_, rfl⟩
    obtain ⟨numeral, taken, -⟩ := longest_numeral starts split
    simp only [split, taken] at failed
    cases failed
  · rename_i no_numeral
    split at failed
    · rename_i quotes
      split at failed
      · cases failed
      · rename_i unquoted
        cases failed
        exact ⟨none_of_unquoted quotes unquoted, (if_pos quotes).symm⟩
    · rename_i no_quote
      split at failed
      · cases failed
      · rename_i no_name
        split at failed
        · cases failed
        · rename_i unmarked
          cases failed
          exact ⟨none_of_unmarked no_numeral no_quote no_name unmarked, (if_neg no_quote).symm⟩

theorem first_of_spells {token : Token} (spells : Spells token (c :: rest)) :
    first offset c rest = .ok ⟨token, c :: rest, []⟩ := by
  have start := spells.start List.prefix_rfl
  generalize shape : c :: rest = text at spells
  cases spells with
  | number spelled =>
      have numeric : (isDigit c || (c == '.' && Lexeme.startsWithDigit rest)) = true := start
      obtain ⟨⟨literal, behind⟩, split⟩ : ∃ parts, Lexeme.numeral (c :: rest) = parts := ⟨_, rfl⟩
      have parts := Lexeme.numeral_parts split
      have longer := Lexeme.prefix_numeral spelled []
      simp only [List.append_nil, ← shape, split] at longer
      obtain rfl : c :: rest = literal := longer.eq_of_length_le (parts ▸ List.prefix_append literal behind).length_le
      obtain rfl : behind = [] := List.self_eq_append_right.mp parts
      rw [first, if_pos numeric, split, ← shape]
      simp only [(shape ▸ spelled).ofText?_eq]
  | @text quote value body quotes spelled =>
      obtain ⟨rfl, rfl⟩ := List.cons.inj shape
      have unescaped : c ≠ '\\' := by rcases quotes with rfl | rfl <;> decide
      have read := spelled.quoted_eq unescaped []
      rw [List.append_nil] at read
      have no_numeral : ¬ (isDigit c || (c == '.' && Lexeme.startsWithDigit rest)) = true := fun numeric =>
        (not_startsName_of_startsNumeral numeric).2 quotes
      rw [first, if_neg no_numeral, if_pos quotes, read]
  | @name head tail starts goes_on free =>
      obtain ⟨rfl, rfl⟩ := List.cons.inj shape
      have no_numeral : ¬ (isDigit c || (c == '.' && Lexeme.startsWithDigit rest)) = true := fun numeric =>
        (not_startsName_of_startsNumeral numeric).1 starts
      have no_quote : ¬ (c = '\'' ∨ c = '"') := fun quotes => not_startsName_of_quote quotes starts
      have all : ∀ d ∈ c :: rest, inName d = true := List.forall_mem_cons.mpr ⟨inName_of_startsName starts, goes_on⟩
      have unlisted : Keyword.ofName? (String.ofList (c :: rest)) = none := by
        by_contra listed
        obtain ⟨word, found⟩ := Option.ne_none_iff_exists'.mp listed
        exact free word (by rw [Keyword.ofName?_eq_some_iff.mp found, String.toList_ofList])
      rw [first, if_neg no_numeral, if_neg no_quote, if_pos starts]
      simp only [List.takeWhile_eq_self_iff.mpr all, List.dropWhile_eq_nil_iff.mpr all, Lexeme.wordToken, unlisted]
  | keyword word => cases word <;> cases shape <;> rfl
  | mark sign => cases sign <;> cases shape <;> rfl

theorem Spells.ne_nil {token : Token} {text : List Char} (spells : Spells token text) : text ≠ [] := by
  rintro rfl
  generalize none : ([] : List Char) = text at spells
  cases spells with
  | number spelled =>
      subst none
      exact absurd (startsNumeral_of_spells spelled []) (by decide)
  | text | name => cases none
  | keyword word => cases word <;> cases none
  | mark sign => cases sign <;> cases none

theorem Spells.unique {token other : Token} {text : List Char} (spells : Spells token text)
    (again : Spells other text) : token = other := by
  obtain ⟨c, rest, rfl⟩ := List.exists_cons_of_ne_nil spells.ne_nil
  have read := @first_of_spells 0 c rest token spells
  rw [first_of_spells again] at read
  cases read
  rfl

theorem first_of_longest {token : Token} {text behind : List Char} (longest : Longest token text behind)
    (whole : c :: rest = text ++ behind) : first offset c rest = .ok ⟨token, text, behind⟩ := by
  have leads : text <+: c :: rest := whole ▸ List.prefix_append text behind
  cases read : first offset c rest with
  | error cause => exact absurd leads ((none_of_first read).1 token text longest.spells)
  | ok lexeme =>
      obtain ⟨found, parts⟩ := longest_of_first read
      have longer := found.longest token text longest.spells (parts ▸ leads)
      have shorter := longest.longest lexeme.token lexeme.text found.spells
        (by rw [← whole, parts]; exact List.prefix_append _ _)
      obtain ⟨other, same, left⟩ := lexeme
      obtain rfl : text = same := longer.eq_of_length_le shorter.length_le
      obtain rfl := found.spells.unique longest.spells
      rw [whole] at parts
      obtain rfl := List.append_cancel_left parts
      rfl

theorem tokensWithin_of_first {steps : Nat} {lexeme : Lexeme} (filled : ¬ isBlank c = true)
    (read : first offset c rest = .ok lexeme) :
    tokensWithin (steps + 1) offset (c :: rest) =
      (tokensWithin steps (offset + byteCount lexeme.text) lexeme.rest).map (⟨lexeme.token, offset⟩ :: ·) := by
  rw [tokensWithin, if_neg filled, read, ok_bind]
  generalize tokensWithin steps (offset + byteCount lexeme.text) lexeme.rest = result
  cases result <;> rfl

end

end BranchingStory.Condition
