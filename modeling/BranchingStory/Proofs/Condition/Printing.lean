import BranchingStory.Proofs.Condition.Display
import BranchingStory.Proofs.Condition.Lexing
import BranchingStory.Proofs.Decimal.Unsigned

/-!
Tokens that are written down and read again. A blank is enough to part any two of them, and a backslash before each
quote and each backslash is enough to write any text between quotes.
-/

namespace BranchingStory.Condition

open Numeral (inNumeral)
open Lexeme (startsName inName unescape)

inductive Quote
  | single
  | double
  deriving DecidableEq, Repr

namespace Quote

def mark : Quote → Char
  | single => '\''
  | double => '"'

def escape (quote : Quote) (c : Char) : List Char := if c = quote.mark ∨ c = '\\' then ['\\', c] else [c]

def write (quote : Quote) (value : String) : List Char :=
  quote.mark :: (value.toList.flatMap quote.escape ++ [quote.mark])

end Quote

namespace Token

def write (render : Float → List Char) (quote : Quote) : Token → List Char
  | number value => render value
  | text value => quote.write value
  | name value => value.toList
  | keyword word => word.source.toList
  | mark sign => sign.source

/-- Numbers are written without a sign, and names are what is read as names. -/
def Writable : Token → Prop
  | number value => value.isFinite = true ∧ 0 ≤ value
  | name value => (∃ first rest, value.toList = first :: rest ∧ startsName first = true ∧ ∀ c ∈ rest, inName c = true) ∧
      ∀ word : Keyword, word.source ≠ value
  | _ => True

def Same : Token → Token → Prop
  | number left, number right => (left == right) = true
  | left, right => left = right

end Token

def print (render : Float → List Char) (written : List (Quote × Token)) : List Char :=
  [' '].intercalate (written.map fun (quote, token) => token.write render quote)

/-- Every number that can be written is rendered as a numeral that is read as it. -/
def Renders (render : Float → List Char) : Prop :=
  ∀ value : Float, value.isFinite = true → 0 ≤ value →
    ∃ numeral : Numeral, numeral.Spells (render value) ∧ (numeral.toFloat == value) = true

/-! ## A rendering of numbers -/

def plainDigits (value : Float) : List Char :=
  match Binary.ofFloat? value with
  | some binary => displayLayout.plain (Decimal.shortest displayLayout.tie binary)
  | none => []

theorem negative_of_le {x : Float} {binary : Binary} (found : Binary.ofFloat? x = some binary)
    (some : binary.significand ≠ 0) (least : 0 ≤ x) : binary.negative = false := by
  obtain ⟨canonical, unpacked⟩ := Binary.unpack_canonical found some
  rw [Binary.sign] at unpacked
  by_contra negative
  rw [if_pos (by simpa using negative)] at unpacked
  have compared : (0 : Float).toModel.unpack.le x.toModel.unpack = true := of_decide_eq_true least
  rw [unpacked] at compared
  cases compared

theorem renders_plainDigits : Renders plainDigits := by
  intro value finite least
  obtain ⟨binary, found⟩ := Binary.exists_of_isFinite finite
  simp only [plainDigits, found]
  by_cases none : binary.significand = 0
  · have zero : Decimal.shortest displayLayout.tie binary = ⟨0, 0⟩ := if_pos none
    have bits := Binary.bits_of_ofFloat?_zero found none
    rw [zero]
    refine ⟨_, Numeral.spells_toDigits 0, ?_⟩
    rw [Numeral.toFloat_toDigits false (by decide)]
    split at bits
    · obtain rfl : value = -0 := congrArg Float.ofModel (Binary.model_eq_of_bits (bits.trans (by decide +kernel)))
      decide
    · obtain rfl : value = 0 := congrArg Float.ofModel (Binary.model_eq_of_bits (bits.trans (by decide +kernel)))
      decide
  · obtain ⟨whole, fraction, spelled, same⟩ := Decimal.plain_reads displayLayout found
    rw [negative_of_le found none least] at same
    exact ⟨_, spelled, same.symm ▸ beq_self_of_isFinite finite⟩

/-! ## How written tokens are spelled -/

section

variable {render : Float → List Char} {token other : Token} {text rest more : List Char}

theorem Quote.mark_cases (quote : Quote) : quote.mark = '\'' ∨ quote.mark = '"' := by
  cases quote
  · exact .inl rfl
  · exact .inr rfl

theorem Quote.spellsQuoted (quote : Quote) (value : List Char) :
    SpellsQuoted quote.mark value (value.flatMap quote.escape ++ [quote.mark]) := by
  induction value with
  | nil => exact .close
  | cons c value ih =>
      rw [List.flatMap_cons, Quote.escape]
      split
      · rename_i special
        have kept : unescape c = c := by
          rcases special with rfl | rfl
          · cases quote <;> rfl
          · rfl
        have escaped := SpellsQuoted.escaped (c := c) ih
        rwa [kept] at escaped
      · rename_i plain
        exact .plain (fun same => plain (.inl same)) (fun same => plain (.inr same)) ih

theorem Quote.spells (quote : Quote) (value : String) : Spells (.text value) (quote.write value) := by
  have spelled := Spells.text quote.mark_cases (quote.spellsQuoted value.toList)
  rwa [String.ofList_toList] at spelled

/-- What is written is spelled like the token, but for the sign of a zero. -/
theorem Token.Writable.spells (writable : token.Writable) (renders : Renders render) (quote : Quote) :
    ∃ found, Spells found (token.write render quote) ∧ token.Same found ∧ (token ≠ .number (-0) → found = token) := by
  cases token with
  | number value =>
      obtain ⟨numeral, spelled, same⟩ := renders value writable.1 writable.2
      refine ⟨_, .number spelled, BEq.symm same, fun signless => ?_⟩
      have unsigned := Numeral.unsigned_toFloat spelled.negative_eq
      exact congrArg Token.number
        (eq_of_beq_of_unsigned same unsigned fun zero => signless (congrArg Token.number zero))
  | text value => exact ⟨_, quote.spells value, rfl, fun _ => rfl⟩
  | name value =>
      obtain ⟨⟨first, rest, letters, starts, goes_on⟩, free⟩ := writable
      have named : String.ofList (first :: rest) = value := by rw [← letters, String.ofList_toList]
      have spelled : Spells (.name (String.ofList (first :: rest))) (first :: rest) := by
        refine .name starts goes_on fun word same => free word ?_
        rw [← String.ofList_toList (s := word.source), same, named]
      rw [named, ← letters] at spelled
      exact ⟨_, spelled, rfl, fun _ => rfl⟩
  | keyword word => exact ⟨_, .keyword word, rfl, fun _ => rfl⟩
  | mark sign => exact ⟨_, .mark sign, rfl, fun _ => rfl⟩

/-! ## Where written tokens end -/

theorem Spells.blank_not_mem (spells : Spells token text) (no_text : ∀ value, token ≠ .text value) : ' ' ∉ text := by
  cases spells with
  | number spelled => exact fun member => absurd (spelled.inNumeral ' ' member) (by decide)
  | text => exact absurd rfl (no_text _)
  | name starts goes_on =>
      intro member
      rcases List.mem_cons.mp member with rfl | later
      · exact absurd starts (by decide)
      · exact absurd (goes_on ' ' later) (by decide)
  | keyword word => cases word <;> decide
  | mark sign => cases sign <;> decide

theorem prefix_of_blank_not_mem (leads : more <+: text ++ rest) (parted : ∀ c ∈ rest.head?, c = ' ')
    (solid : ' ' ∉ more) : more <+: text := by
  rcases List.prefix_or_prefix_of_prefix leads (List.prefix_append text rest) with shorter | ⟨extra, rfl⟩
  · exact shorter
  · rw [List.prefix_append_right_inj] at leads
    cases extra with
    | nil => simp
    | cons c extra =>
        obtain ⟨behind, rfl⟩ := leads
        obtain rfl := parted c rfl
        simp at solid

theorem Spells.text_of_prefix {value : String} (spells : Spells token text) (again : Spells (.text value) more)
    (leads : more <+: text ++ rest) : more = text := by
  obtain ⟨c, others, rfl⟩ := List.exists_cons_of_ne_nil spells.ne_nil
  have start := spells.start (List.prefix_append (c :: others) rest)
  cases again with
  | @text quote value body quotes spelled =>
      obtain rfl : quote = c := (List.cons_prefix_cons.mp leads).1
      generalize shape : quote :: others = text at spells
      cases spells with
      | number => exact absurd quotes (not_startsName_of_startsNumeral start).2
      | name | keyword => exact absurd start (not_startsName_of_quote quotes)
      | mark => exact absurd quotes (not_prefix_source start).2
      | text _ longer =>
          obtain ⟨rfl, rfl⟩ := List.cons.inj shape
          obtain ⟨-, left, read⟩ := spelled.quoted_of_prefix quotes leads
          have unescaped : quote ≠ '\\' := by rcases quotes with rfl | rfl <;> decide
          cases (longer.quoted_eq unescaped rest).symm.trans read
          rfl

theorem Spells.longest (spells : Spells token text) (parted : ∀ c ∈ rest.head?, c = ' ') : Longest token text rest := by
  refine ⟨spells, fun other more again leads => ?_⟩
  by_cases textual : ∃ value, other = .text value
  · obtain ⟨value, rfl⟩ := textual
    exact (spells.text_of_prefix again leads) ▸ List.prefix_rfl
  · exact prefix_of_blank_not_mem leads parted (again.blank_not_mem (not_exists.mp textual))

/-! ## Written lists -/

variable {written : List (Quote × Token)}

theorem print_cons (first : Quote × Token) (rest : List (Quote × Token)) :
    print render (first :: rest) =
      first.2.write render first.1 ++ (if rest = [] then [] else ' ' :: print render rest) := by
  cases rest with
  | nil => simp [print]
  | cons next rest => simp [print, List.intercalate_cons_cons]

theorem segments_print (renders : Renders render) (writable : ∀ one ∈ written, one.2.Writable) (offset : Nat) :
    ∃ placed, Segments offset (print render written) placed [] ∧
      List.Forall₂ (fun one found => one.2.Same found.token ∧ (one.2 ≠ .number (-0) → found.token = one.2))
        written placed := by
  induction written generalizing offset with
  | nil => exact ⟨[], .stop, .nil⟩
  | cons first rest ih =>
      obtain ⟨here, later⟩ := List.forall_mem_cons.mp writable
      obtain ⟨found, spelled, same, signless⟩ := here.spells renders first.1
      rw [print_cons]
      by_cases last : rest = []
      · subst last
        have longest : Longest found (first.2.write render first.1) [] := spelled.longest (fun _ => nofun)
        exact ⟨[⟨found, offset⟩], .token longest .stop, .cons ⟨same, signless⟩ .nil⟩
      · have longest : Longest found (first.2.write render first.1) (' ' :: print render rest) :=
          spelled.longest fun c head => (Option.some.inj head).symm
        obtain ⟨placed, segments, pairs⟩ :=
          ih later (offset + byteCount (first.2.write render first.1) + byteCount [' '])
        rw [if_neg last]
        exact ⟨⟨found, offset⟩ :: placed, .token longest (.blank (by decide) segments), .cons ⟨same, signless⟩ pairs⟩

end

/-- Tokens that are written with a blank between them are read as these tokens again, whichever quotes are put around
the texts. So any text at all can be written. -/
theorem printing_is_lossless {render : Float → List Char} (renders : Renders render) {written : List (Quote × Token)}
    (writable : ∀ one ∈ written, one.2.Writable) :
    (∃ placed, tokens (print render written) = .ok placed ∧
      List.Forall₂ (fun one found => one.2.Same found.token) written placed ∧
      ((∀ one ∈ written, one.2 ≠ .number (-0)) → placed.map (·.token) = written.map (·.2))) ∧
      ∀ (quote : Quote) (value : String), tokens (quote.write value) = .ok [⟨.text value, 0⟩] := by
  have ends (source : List Char) (placed : List Placed) : tokens source = .ok placed ↔ Segments 0 source placed [] :=
    tokensWithin_eq_iff (Nat.le_refl source.length)
  constructor
  · obtain ⟨placed, segments, pairs⟩ := segments_print renders writable 0
    refine ⟨placed, (ends _ _).mpr segments, pairs.imp fun _ _ both => both.1, fun signless => ?_⟩
    clear segments
    induction pairs with
    | nil => rfl
    | cons both _ ih =>
        obtain ⟨here, later⟩ := List.forall_mem_cons.mp signless
        have rest := ih (fun one listed => writable one (List.mem_cons_of_mem _ listed)) later
        rw [List.map_cons, List.map_cons, both.2 here, rest]
  · intro quote value
    have longest : Longest (.text value) (quote.write value) [] := (quote.spells value).longest fun _ => nofun
    have segments : Segments 0 (quote.write value ++ []) [⟨.text value, 0⟩] [] := .token longest .stop
    rw [List.append_nil] at segments
    exact (ends _ _).mpr segments

theorem mixed_tokens_are_read_again :
    let written : List (Quote × Token) := [(.single, .number 1), (.single, .mark .dot), (.double, .number 0.5),
      (.double, .text "it's \\ \"so\"\n"), (.single, .name "yes"), (.single, .keyword .yes), (.single, .mark .equal),
      (.double, .mark .identical)]
    Renders plainDigits ∧ (∀ one ∈ written, one.2.Writable) ∧ (∀ one ∈ written, one.2 ≠ .number (-0)) ∧
      ∃ placed, tokens (print plainDigits written) = .ok placed ∧ placed.map (·.token) = written.map (·.2) := by
  intro written
  have writable : ∀ one ∈ written, one.2.Writable := by
    simp only [written, List.forall_mem_cons, Token.Writable]
    have named : Token.Writable (.name "yes") :=
      ⟨⟨'y', ['e', 's'], rfl, by decide, List.all_eq_true.mp rfl⟩, fun word => by cases word <;> decide⟩
    exact ⟨by decide, trivial, by decide, trivial, named, trivial, trivial, trivial, fun _ => nofun⟩
  have signless : ∀ one ∈ written, one.2 ≠ .number (-0) := by
    have apart {value : Float} (bits : value.toBits ≠ (-0 : Float).toBits) : Token.number value ≠ .number (-0) :=
      fun same => bits (congrArg Float.toBits (Token.number.inj same))
    simp only [written, List.forall_mem_cons]
    exact ⟨apart (by decide), nofun, apart (by decide), nofun, nofun, nofun, nofun, nofun, fun _ => nofun⟩
  obtain ⟨⟨placed, read, -, same⟩, -⟩ := printing_is_lossless renders_plainDigits writable
  exact ⟨renders_plainDigits, writable, signless, placed, read, same signless⟩

end BranchingStory.Condition
