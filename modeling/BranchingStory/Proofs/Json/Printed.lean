import BranchingStory.Proofs.Decimal.Digits
import BranchingStory.Proofs.Json.Quoted
import BranchingStory.Proofs.Json.Sameness

/-!
Printed values that are read again. What is printed falls into the tokens it is made of, whatever follows it,
and they build up the value again.
-/

namespace BranchingStory

open Numeral (isDigit takeSign Stops)

namespace Json

/-! ## Number literals -/

structure Delimits (rest : List Char) : Prop where
  stops : Stops rest
  unpointed : '.' ∉ rest.head?
  unscaled : 'e' ∉ rest.head? ∧ 'E' ∉ rest.head?

section

variable {text rest after : List Char}

theorem takeWhile_append_of_stops (text : List Char) (stops : Stops rest) :
    (text ++ rest).takeWhile isDigit = text.takeWhile isDigit := by
  induction text with
  | nil =>
      cases rest with
      | nil => rfl
      | cons c rest => simp [stops c rfl]
  | cons c text ih =>
      rw [List.cons_append, List.takeWhile_cons, List.takeWhile_cons, ih]

theorem dropWhile_append_of_stops (text : List Char) (stops : Stops rest) :
    (text ++ rest).dropWhile isDigit = text.dropWhile isDigit ++ rest := by
  induction text with
  | nil =>
      cases rest with
      | nil => rfl
      | cons c rest => simp [stops c rfl]
  | cons c text ih =>
      rw [List.cons_append, List.dropWhile_cons, List.dropWhile_cons, ih]
      split <;> rfl

theorem whole?_append {whole : List Char} (stops : Stops rest) (found : whole? text = some (whole, after)) :
    whole? (text ++ rest) = some (whole, after ++ rest) := by
  simp only [whole?, takeWhile_append_of_stops text stops, dropWhile_append_of_stops text stops] at found ⊢
  split at found
  · simp at found
  · rename_i usual
    cases found
    rw [if_neg usual]

theorem fraction?_append {fraction : Option (List Char)} (delimits : Delimits rest)
    (found : fraction? text = some (fraction, after)) :
    fraction? (text ++ rest) = some (fraction, after ++ rest) := by
  have plain : ∀ text, '.' ∉ text.head? → fraction? text = some (none, text) := by
    intro text unpointed
    unfold fraction?
    split
    · simp at unpointed
    · rfl
  cases text with
  | nil =>
      cases found
      exact plain rest delimits.unpointed
  | cons c text =>
      by_cases point : c = '.'
      · subst point
        simp only [fraction?, List.cons_append, takeWhile_append_of_stops text delimits.stops,
          dropWhile_append_of_stops text delimits.stops] at found ⊢
        split at found
        · simp at found
        · rename_i usual
          cases found
          rw [if_neg usual]
      · have unpointed : '.' ∉ (c :: text).head? := fun same => point (Option.some.inj same)
        rw [plain _ unpointed] at found
        cases found
        exact plain _ unpointed

theorem takeSign_append (text rest : List Char) (digits : (takeSign text).2.takeWhile isDigit ≠ []) :
    takeSign (text ++ rest) = ((takeSign text).1, (takeSign text).2 ++ rest) := by
  cases text with
  | nil => simp [takeSign] at digits
  | cons c text =>
      by_cases minus : c = '-'
      · subst minus
        rfl
      · by_cases plus : c = '+'
        · subst plus
          rfl
        · simp [takeSign, minus, plus]

theorem exponent?_append {exponent : Option (Bool × List Char)} (delimits : Delimits rest)
    (found : exponent? text = some (exponent, after)) :
    exponent? (text ++ rest) = some (exponent, after ++ rest) := by
  cases text with
  | nil =>
      cases found
      cases rest with
      | nil => rfl
      | cons c rest =>
          have unscaled : ¬ (c = 'e' ∨ c = 'E') := by
            rintro (rfl | rfl)
            · exact delimits.unscaled.1 rfl
            · exact delimits.unscaled.2 rfl
          simp [exponent?, unscaled]
  | cons mark text =>
      by_cases scaled : mark = 'e' ∨ mark = 'E'
      · simp only [exponent?, if_pos scaled, List.cons_append] at found ⊢
        by_cases none : (takeSign text).2.takeWhile isDigit = []
        · simp [none] at found
        · rw [takeSign_append text rest none]
          simp only [takeWhile_append_of_stops _ delimits.stops, dropWhile_append_of_stops _ delimits.stops]
          split at found
          · simp at found
          · rename_i usual
            cases found
            rw [if_neg usual]
      · simp only [exponent?, if_neg scaled, List.cons_append] at found ⊢
        cases found
        rfl

theorem takeMinus_append {whole : List Char × List Char} (rest : List Char)
    (found : whole? (takeMinus text).2 = some whole) :
    takeMinus (text ++ rest) = ((takeMinus text).1, (takeMinus text).2 ++ rest) := by
  cases text with
  | nil => simp [takeMinus, whole?] at found
  | cons c text =>
      by_cases minus : c = '-'
      · subst minus
        rfl
      · simp [takeMinus, minus]

theorem literal?_append {literal : NumberLiteral} (delimits : Delimits rest)
    (found : literal? text = some (literal, after)) :
    literal? (text ++ rest) = some (literal, after ++ rest) := by
  simp only [literal?, Option.bind_eq_bind, Option.bind_eq_some_iff, Prod.exists, pure, Option.some.injEq,
    Prod.mk.injEq] at found ⊢
  obtain ⟨whole, afterWhole, first, fraction, afterFraction, second, exponent, last, third, rfl, rfl⟩ := found
  rw [takeMinus_append rest first]
  exact ⟨whole, afterWhole ++ rest, whole?_append delimits.stops first, fraction, afterFraction ++ rest,
    fraction?_append delimits second, exponent, last ++ rest, exponent?_append delimits third, rfl, rfl⟩

end

end Json

namespace Json

theorem head?_toDigits (number : Nat) : ∃ first rest, Nat.toDigits 10 number = first :: rest ∧ isDigit first = true := by
  cases digits : Nat.toDigits 10 number with
  | nil => exact absurd digits Nat.toDigits_ne_nil
  | cons first rest =>
      exact ⟨first, rest, rfl, Numeral.isDigit_of_mem_toDigits (digits ▸ List.mem_cons_self)⟩

theorem whole?_of_digits {whole : List Char} (some : whole ≠ []) (all : ∀ c ∈ whole, isDigit c = true)
    (usual : whole.length = 1 ∨ whole.head? ≠ Option.some '0') : whole? whole = Option.some (whole, []) := by
  have ends : Stops [] := by simp [Stops]
  have taken := Numeral.takeWhile_digits all ends
  have dropped := Numeral.dropWhile_digits all ends
  rw [List.append_nil] at taken dropped
  simp only [whole?, taken, dropped]
  refine if_neg ?_
  rcases usual with single | nonzero
  · simp [single, some]
  · simp [nonzero, some]

theorem whole?_toDigits (number : Nat) :
    whole? (Nat.toDigits 10 number) = some (Nat.toDigits 10 number, []) := by
  refine whole?_of_digits Nat.toDigits_ne_nil (fun c => Numeral.isDigit_of_mem_toDigits) ?_
  by_cases zero : number = 0
  · subst zero
    exact .inl rfl
  · exact .inr (Numeral.head?_toDigits_ne (Nat.pos_of_ne_zero zero))

theorem literal?_toDigits (number : Nat) :
    literal? (Nat.toDigits 10 number) = some (⟨false, Nat.toDigits 10 number, none, none⟩, []) := by
  have unsigned : takeMinus (Nat.toDigits 10 number) = (false, Nat.toDigits 10 number) := by
    obtain ⟨first, rest, digits, digit⟩ := head?_toDigits number
    rw [digits]
    have plain : first ≠ '-' := by
      rintro rfl
      exact absurd digit (by decide)
    simp [takeMinus, plain]
  rw [literal?, unsigned]
  simp [whole?_toDigits, fraction?, exponent?]

theorem literal?_minus_toDigits (number : Nat) :
    literal? ('-' :: Nat.toDigits 10 number) = some (⟨true, Nat.toDigits 10 number, none, none⟩, []) := by
  simp [literal?, takeMinus, whole?_toDigits, fraction?, exponent?]

theorem accumulate_toDigits {number : Nat} (small : number ≤ NumberLiteral.significandLimit) :
    NumberLiteral.accumulate 0 (Nat.toDigits 10 number) = (number, 0) := by
  have digits : (Nat.toDigits 10 number).foldl (fun total digit => 10 * total + (digit.toNat - '0'.toNat)) 0 =
      number := Numeral.value_toDigits number
  have read := NumberLiteral.accumulate_of_le (digits.le.trans small)
  rwa [digits] at read

theorem value_toDigits {number : Nat} (small : number ≤ NumberLiteral.significandLimit) :
    (NumberLiteral.mk false (Nat.toDigits 10 number) none none).value = some (.integer number) := by
  simp [NumberLiteral.value, accumulate_toDigits small]

theorem value_minus_toDigits {number : Nat} (positive : 0 < number) (small : number ≤ 9223372036854775808) :
    (NumberLiteral.mk true (Nat.toDigits 10 number) none none).value = some (.integer (-number)) := by
  have fits : number ≤ NumberLiteral.significandLimit := small.trans (by decide)
  have kept : ¬ (number = 0 ∨ 9223372036854775808 < number) := by omega
  simp only [NumberLiteral.value, accumulate_toDigits fits, if_neg kept]
  rfl

end Json

def Number.reread (number : Number) : Option Number :=
  (Json.literal? (Json.printNumber number)).bind fun (literal, _) => literal.value

/-- A number whose text is read as a number, and to the end. -/
def Number.Legible (number : Number) : Prop :=
  ∃ literal read, Json.literal? (Json.printNumber number) = some (literal, []) ∧ literal.value = some read

instance (number : Number) : Decidable number.Legible :=
  decidable_of_iff
    (∃ result ∈ Json.literal? (Json.printNumber number), result.2 = [] ∧ result.1.value.isSome) <| by
      simp [Number.Legible, Option.isSome_iff_exists]

def Number.Lossless (number : Number) : Prop :=
  ∃ literal, Json.literal? (Json.printNumber number) = some (literal, []) ∧ literal.value = some number

theorem Number.Lossless.legible {number : Number} (lossless : number.Lossless) : number.Legible := by
  obtain ⟨literal, found, value⟩ := lossless
  exact ⟨literal, number, found, value⟩

theorem Number.Lossless.reread_eq {number : Number} (lossless : number.Lossless) : number.reread = some number := by
  obtain ⟨literal, found, value⟩ := lossless
  rw [Number.reread, found]
  exact value

theorem Number.Lossless.finite {number : Number} (lossless : number.Lossless) : number.Finite := by
  obtain ⟨literal, -, value⟩ := lossless
  exact NumberLiteral.finite_of_value value

def Number.Whole : Number → Prop
  | .integer value => -2 ^ 63 ≤ value ∧ value < 2 ^ 64
  | .real _ => False

instance : (number : Number) → Decidable number.Whole
  | .integer value => inferInstanceAs (Decidable (-2 ^ 63 ≤ value ∧ value < 2 ^ 64))
  | .real _ => inferInstanceAs (Decidable False)

theorem Number.Whole.finite {number : Number} (whole : number.Whole) : number.Finite := by
  cases number with
  | integer value =>
      simp only [Number.Whole] at whole
      change value.natAbs < 2 ^ 64
      omega
  | real value => exact whole.elim

theorem Number.Whole.lossless {number : Number} (whole : number.Whole) : number.Lossless := by
  cases number with
  | real value => exact whole.elim
  | integer value =>
      simp only [Number.Whole] at whole
      by_cases negative : value < 0
      · have same : -(value.natAbs : Int) = value := by omega
        have positive : 0 < value.natAbs := by omega
        have small : value.natAbs ≤ 9223372036854775808 := by omega
        have read := Json.value_minus_toDigits positive small
        rw [same] at read
        refine ⟨_, ?_, read⟩
        rw [Json.printNumber, if_pos negative]
        exact Json.literal?_minus_toDigits value.natAbs
      · have same : (value.natAbs : Int) = value := by omega
        have small : value.natAbs ≤ NumberLiteral.significandLimit := by
          have limit : NumberLiteral.significandLimit = 2 ^ 64 - 1 := rfl
          omega
        have read := Json.value_toDigits small
        rw [same] at read
        refine ⟨_, ?_, read⟩
        rw [Json.printNumber, if_neg negative]
        exact Json.literal?_toDigits value.natAbs

namespace Json

/-! ## Tokens -/

def keyOf (name : String) : Key := ⟨some name, name.toList.flatMap escape⟩

mutual

def tokensOf : Json → List Token
  | .null => [.null]
  | .bool value => [.bool value]
  | .number value => [.number value.reread]
  | .string text => [.string (some text) (text.toList.flatMap escape)]
  | .array [] => [.openArray, .closeArray]
  | .array (first :: rest) => .openArray :: first.tokensOf ++ tokensOfItems rest
  | .object [] => [.openObject, .closeObject]
  | .object ((key, value) :: rest) =>
      .openObject :: .string (some key) (key.toList.flatMap escape) :: .colon :: value.tokensOf ++
        tokensOfMembers rest

def tokensOfItems : List Json → List Token
  | [] => [.closeArray]
  | item :: rest => .comma :: item.tokensOf ++ tokensOfItems rest

def tokensOfMembers : List (String × Json) → List Token
  | [] => [.closeObject]
  | (key, value) :: rest =>
      .comma :: .string (some key) (key.toList.flatMap escape) :: .colon :: value.tokensOf ++
        tokensOfMembers rest

end

/-- A text falls into tokens, and leaves what follows it with enough rounds to be read. -/
def Reads (text : List Char) (tokens : List Token) (rest : List Char) : Prop :=
  ∀ rounds, (text ++ rest).length ≤ rounds → ∃ left, rest.length ≤ left ∧
    tokensWithin rounds (text ++ rest) = tokens ++ tokensWithin left rest

section

variable {text more rest : List Char} {tokens others : List Token}

theorem Reads.append (first : Reads text tokens (more ++ rest)) (second : Reads more others rest) :
    Reads (text ++ more) (tokens ++ others) rest := by
  intro rounds enough
  rw [List.append_assoc] at enough ⊢
  obtain ⟨left, remaining, read⟩ := first rounds enough
  obtain ⟨last, spare, follow⟩ := second left remaining
  exact ⟨last, spare, by rw [read, follow, List.append_assoc]⟩

theorem reads_token {first : Char} {token : Token} (visible : isSpace first = false)
    (found : token? first (text ++ rest) = some (token, rest)) : Reads (first :: text) [token] rest := by
  intro rounds enough
  cases rounds with
  | zero => simp at enough
  | succ rounds =>
      refine ⟨rounds, ?_, ?_⟩
      · simp only [List.cons_append, List.length_cons, List.length_append] at enough
        omega
      · rw [List.cons_append, tokensWithin, visible, found]
        rfl

theorem Reads.tokens_eq (reads : Reads text tokens []) : Json.tokens text = tokens := by
  obtain ⟨left, _, read⟩ := reads text.length (by simp)
  rw [List.append_nil] at read
  rw [Json.tokens, read]
  cases left <;> simp [tokensWithin]

theorem reads_quote (text rest : List Char) :
    Reads (quote text) [.string (some (String.ofList text)) (text.flatMap escape)] rest := by
  refine reads_token (by decide) ?_
  have pieces := pieces?_escaped text rest
  have written := quoted_escaped text rest
  simp [token?, pieces, written, join?_pieces]

theorem token?_of_literal? {first : Char} {literal : NumberLiteral}
    (found : literal? (first :: text) = some (literal, rest)) :
    isSpace first = false ∧ token? first text = some (.number literal.value, rest) := by
  have starts : first = '-' ∨ isDigit first = true := by
    by_contra neither
    obtain ⟨unsigned, nondigit⟩ := not_or.mp neither
    simp [literal?, takeMinus, unsigned, whole?, nondigit] at found
  have apart : first ≠ '[' ∧ first ≠ ']' ∧ first ≠ '\x7b' ∧ first ≠ '\x7d' ∧ first ≠ ',' ∧ first ≠ ':' ∧
      first ≠ '"' ∧ first ≠ 'n' ∧ first ≠ 't' ∧ first ≠ 'f' ∧ first ≠ ' ' ∧ first ≠ '\n' ∧ first ≠ '\t' ∧
      first ≠ '\r' := by
    refine ⟨?_, ?_, ?_, ?_, ?_, ?_, ?_, ?_, ?_, ?_, ?_, ?_, ?_, ?_⟩ <;> (rintro rfl; revert starts; decide)
  simp [isSpace, token?, apart, found]

theorem reads_number {number : Number} (legible : number.Legible) (delimits : Delimits rest) :
    Reads (printNumber number) [.number number.reread] rest := by
  obtain ⟨literal, read, found, value⟩ := legible
  have reread : number.reread = literal.value := by rw [Number.reread, found]; rfl
  have extended := literal?_append delimits found
  rw [reread]
  cases printed : printNumber number with
  | nil => simp [printed, literal?, takeMinus, whole?] at found
  | cons first others =>
      rw [printed] at extended
      obtain ⟨visible, token⟩ := token?_of_literal? extended
      exact reads_token visible token

theorem reads_mark {mark : Char} {token : Token} (rest : List Char) (visible : isSpace mark = false)
    (found : ∀ rest, token? mark rest = some (token, rest)) : Reads [mark] [token] rest :=
  reads_token visible (found rest)

def printMember (member : String × Json) : List Char := quote member.1.toList ++ ':' :: member.2.print

theorem reads_printMember (key : String) {value : Json} (reads : Reads value.print value.tokensOf rest) :
    Reads (printMember (key, value))
      (.string (some key) (key.toList.flatMap escape) :: .colon :: value.tokensOf) rest := by
  have name := reads_quote key.toList (':' :: value.print ++ rest)
  rw [String.ofList_toList] at name
  have colon : Reads [':'] [.colon] (value.print ++ rest) := reads_mark _ (by decide) fun _ => rfl
  exact name.append (colon.append reads)

theorem delimits_printItems (items : List Json) (rest : List Char) : Delimits (printItems items ++ rest) := by
  cases items <;>
    exact ⟨by simp [Stops, printItems, isDigit], by simp [printItems], by simp [printItems], by simp [printItems]⟩

theorem delimits_printMembers (members : Members) (rest : List Char) :
    Delimits (printMembers members ++ rest) := by
  cases members <;>
    exact ⟨by simp [Stops, printMembers, isDigit], by simp [printMembers], by simp [printMembers],
      by simp [printMembers]⟩

end

mutual

theorem reads_print : ∀ {value : Json} {rest : List Char}, (∀ number ∈ value.numbers, number.Legible) →
    Delimits rest → Reads value.print value.tokensOf rest
  | .null, rest, _, _ => reads_token (by decide) (by simp [token?, afterWord?])
  | .bool true, rest, _, _ => reads_token (by decide) (by simp [token?, afterWord?])
  | .bool false, rest, _, _ => reads_token (by decide) (by simp [token?, afterWord?])
  | .number value, rest, legible, delimits => reads_number (legible value List.mem_cons_self) delimits
  | .string text, rest, _, _ => by
      have quoted := reads_quote text.toList rest
      rwa [String.ofList_toList] at quoted
  | .array [], rest, _, _ =>
      (reads_mark (']' :: rest) (by decide) fun _ => rfl).append (reads_mark rest (by decide) fun _ => rfl)
  | .array (first :: items), rest, legible, _ => by
      obtain ⟨here, there⟩ := List.forall_mem_append.mp legible
      have bracket : Reads ['['] [.openArray] (first.print ++ printItems items ++ rest) :=
        reads_mark _ (by decide) fun _ => rfl
      have inside := (reads_print here (delimits_printItems items rest)).append (reads_printItems there)
      exact bracket.append inside
  | .object [], rest, _, _ =>
      (reads_mark ('\x7d' :: rest) (by decide) fun _ => rfl).append (reads_mark rest (by decide) fun _ => rfl)
  | .object ((key, value) :: members), rest, legible, _ => by
      obtain ⟨here, there⟩ := List.forall_mem_append.mp legible
      have bracket : Reads ['\x7b'] [.openObject] (printMember (key, value) ++ printMembers members ++ rest) :=
        reads_mark _ (by decide) fun _ => rfl
      have inside := (reads_printMember key (reads_print here (delimits_printMembers members rest))).append
        (reads_printMembers there)
      exact bracket.append inside

theorem reads_printItems : ∀ {items : List Json} {rest : List Char},
    (∀ number ∈ numbersOfItems items, number.Legible) → Reads (printItems items) (tokensOfItems items) rest
  | [], rest, _ => reads_mark rest (by decide) fun _ => rfl
  | first :: items, rest, legible => by
      obtain ⟨here, there⟩ := List.forall_mem_append.mp legible
      have comma : Reads [','] [.comma] (first.print ++ printItems items ++ rest) :=
        reads_mark _ (by decide) fun _ => rfl
      exact comma.append ((reads_print here (delimits_printItems items rest)).append (reads_printItems there))

theorem reads_printMembers : ∀ {members : Members} {rest : List Char},
    (∀ number ∈ numbersOfMembers members, number.Legible) →
      Reads (printMembers members) (tokensOfMembers members) rest
  | [], rest, _ => reads_mark rest (by decide) fun _ => rfl
  | (key, value) :: members, rest, legible => by
      obtain ⟨here, there⟩ := List.forall_mem_append.mp legible
      have comma : Reads [','] [.comma] (printMember (key, value) ++ printMembers members ++ rest) :=
        reads_mark _ (by decide) fun _ => rfl
      have inside := (reads_printMember key (reads_print here (delimits_printMembers members rest))).append
        (reads_printMembers there)
      exact comma.append inside

end

/-! ## Drafts -/

mutual

def redraft : Json → Draft
  | .null => .null
  | .bool value => .bool value
  | .number value => .number value.reread
  | .string text => .string (some text)
  | .array items => .array (redraftItems items) true
  | .object members => .object (redraftMembers members) true

def redraftItems : List Json → List Draft
  | [] => []
  | item :: rest => item.redraft :: redraftItems rest

def redraftMembers : List (String × Json) → List (Key × Draft)
  | [] => []
  | (key, value) :: rest => (keyOf key, value.redraft) :: redraftMembers rest

end

def Progress.follow (progress : Progress) (rest : List Token) : Draft × List Token :=
  match progress with
  | .inside frames place => build rest frames place
  | .finished draft => (draft, rest)

section

variable {frames : List Frame} {place : Place} {progress : Progress} {rest : List Token}

theorem build_of_step {token : Token} (stepped : step frames token place = some progress) :
    build (token :: rest) frames place = progress.follow rest := by
  rw [build, stepped]
  cases progress <;> rfl

theorem build_inside {token : Token} {onward : List Frame} {next : Place}
    (stepped : step frames token place = some (.inside onward next)) :
    build (token :: rest) frames place = build rest onward next :=
  build_of_step stepped

theorem step_of_startValue {token : Token} (asks : place = .value ∨ place = .firstItem)
    (started : startValue frames token = some progress) : step frames token place = some progress := by
  rcases asks with rfl | rfl
  · exact started
  · rw [step, started]
    rfl

end

mutual

theorem build_tokensOf : ∀ (value : Json) {frames : List Frame} {place : Place} {progress : Progress}
    (rest : List Token), place = .value ∨ place = .firstItem → supply value.redraft frames = some progress →
      build (value.tokensOf ++ rest) frames place = progress.follow rest
  | .null, _, _, _, _, asks, supplied => build_of_step (step_of_startValue asks supplied)
  | .bool _, _, _, _, _, asks, supplied => build_of_step (step_of_startValue asks supplied)
  | .number _, _, _, _, _, asks, supplied => build_of_step (step_of_startValue asks supplied)
  | .string _, _, _, _, _, asks, supplied => build_of_step (step_of_startValue asks supplied)
  | .array [], frames, place, progress, rest, asks, supplied => by
      calc build (.openArray :: .closeArray :: rest) frames place
          = Progress.follow (.inside (.array [] :: frames) .firstItem) (.closeArray :: rest) :=
            build_of_step (step_of_startValue asks rfl)
        _ = progress.follow rest := build_of_step supplied
  | .array (first :: items), frames, place, progress, rest, asks, supplied => by
      rw [tokensOf, List.cons_append, List.cons_append, List.append_assoc]
      calc build (.openArray :: (first.tokensOf ++ (tokensOfItems items ++ rest))) frames place
          = build (first.tokensOf ++ (tokensOfItems items ++ rest)) (.array [] :: frames) .firstItem :=
            build_inside (step_of_startValue asks rfl)
        _ = Progress.follow (.inside (.array [first.redraft] :: frames) .separator) (tokensOfItems items ++ rest) :=
            build_tokensOf first _ (.inr rfl) rfl
        _ = progress.follow rest := build_tokensOfItems items [first.redraft] rest supplied
  | .object [], frames, place, progress, rest, asks, supplied => by
      calc build (.openObject :: .closeObject :: rest) frames place
          = Progress.follow (.inside (.object [] :: frames) .firstKey) (.closeObject :: rest) :=
            build_of_step (step_of_startValue asks rfl)
        _ = progress.follow rest := build_of_step supplied
  | .object ((key, value) :: members), frames, place, progress, rest, asks, supplied => by
      rw [tokensOf, List.cons_append, List.cons_append, List.cons_append, List.cons_append, List.append_assoc]
      calc build (.openObject :: .string (some key) _ :: .colon ::
              (value.tokensOf ++ (tokensOfMembers members ++ rest))) frames place
          = build (.string (some key) _ :: .colon :: (value.tokensOf ++ (tokensOfMembers members ++ rest)))
              (.object [] :: frames) .firstKey := build_inside (step_of_startValue asks rfl)
        _ = build (.colon :: (value.tokensOf ++ (tokensOfMembers members ++ rest)))
              (.member [] (keyOf key) :: frames) .colon := build_inside rfl
        _ = build (value.tokensOf ++ (tokensOfMembers members ++ rest))
              (.member [] (keyOf key) :: frames) .value := build_inside rfl
        _ = Progress.follow (.inside (.object [(keyOf key, value.redraft)] :: frames) .separator)
              (tokensOfMembers members ++ rest) :=
            build_tokensOf value _ (.inl rfl) rfl
        _ = progress.follow rest := build_tokensOfMembers members [(keyOf key, value.redraft)] rest supplied

theorem build_tokensOfItems : ∀ (items : List Json) (read : List Draft) {frames : List Frame}
    {progress : Progress} (rest : List Token),
    supply (.array (read.reverse ++ redraftItems items) true) frames = some progress →
      build (tokensOfItems items ++ rest) (.array read :: frames) .separator = progress.follow rest
  | [], read, frames, progress, rest, supplied => by
      rw [redraftItems, List.append_nil] at supplied
      have closed : step (.array read :: frames) .closeArray .separator = some progress := supplied
      exact build_of_step closed
  | item :: items, read, frames, progress, rest, supplied => by
      have further : supply (.array ((item.redraft :: read).reverse ++ redraftItems items) true) frames =
          some progress := by
        rwa [List.reverse_cons, List.append_assoc]
      rw [tokensOfItems, List.cons_append, List.cons_append, List.append_assoc]
      calc build (.comma :: (item.tokensOf ++ (tokensOfItems items ++ rest))) (.array read :: frames) .separator
          = build (item.tokensOf ++ (tokensOfItems items ++ rest)) (.array read :: frames) .value :=
            build_inside rfl
        _ = Progress.follow (.inside (.array (item.redraft :: read) :: frames) .separator)
              (tokensOfItems items ++ rest) :=
            build_tokensOf item _ (.inl rfl) rfl
        _ = progress.follow rest := build_tokensOfItems items (item.redraft :: read) rest further

theorem build_tokensOfMembers : ∀ (members : Members) (read : List (Key × Draft)) {frames : List Frame}
    {progress : Progress} (rest : List Token),
    supply (.object (read.reverse ++ redraftMembers members) true) frames = some progress →
      build (tokensOfMembers members ++ rest) (.object read :: frames) .separator = progress.follow rest
  | [], read, frames, progress, rest, supplied => by
      rw [redraftMembers, List.append_nil] at supplied
      have closed : step (.object read :: frames) .closeObject .separator = some progress := supplied
      exact build_of_step closed
  | (key, value) :: members, read, frames, progress, rest, supplied => by
      have further : supply (.object (((keyOf key, value.redraft) :: read).reverse ++ redraftMembers members) true)
          frames = some progress := by
        rwa [List.reverse_cons, List.append_assoc]
      rw [tokensOfMembers, List.cons_append, List.cons_append, List.cons_append, List.cons_append,
        List.append_assoc]
      calc build (.comma :: .string (some key) _ :: .colon ::
              (value.tokensOf ++ (tokensOfMembers members ++ rest))) (.object read :: frames) .separator
          = build (.string (some key) _ :: .colon :: (value.tokensOf ++ (tokensOfMembers members ++ rest)))
              (.object read :: frames) .key := build_inside rfl
        _ = build (.colon :: (value.tokensOf ++ (tokensOfMembers members ++ rest)))
              (.member read (keyOf key) :: frames) .colon := build_inside rfl
        _ = build (value.tokensOf ++ (tokensOfMembers members ++ rest))
              (.member read (keyOf key) :: frames) .value := build_inside rfl
        _ = Progress.follow (.inside (.object ((keyOf key, value.redraft) :: read) :: frames) .separator)
              (tokensOfMembers members ++ rest) := build_tokensOf value _ (.inl rfl) rfl
        _ = progress.follow rest :=
            build_tokensOfMembers members ((keyOf key, value.redraft) :: read) rest further

end

theorem draft_print {value : Json} (legible : ∀ number ∈ value.numbers, number.Legible) :
    draft value.print = (value.redraft, true) := by
  have delimits : Delimits [] := ⟨by simp [Stops], by simp, by simp, by simp⟩
  have tokens := (reads_print legible delimits).tokens_eq
  have built : build (value.tokensOf ++ []) [] .value = Progress.follow (.finished value.redraft) [] :=
    build_tokensOf value [] (.inl rfl) rfl
  rw [List.append_nil] at built
  rw [draft, tokens, built]
  rfl

/-! ## Reading again -/

mutual

def reread : Json → Json
  | .null => .null
  | .bool value => .bool value
  | .number value => (value.reread.map Json.number).getD .null
  | .string text => .string text
  | .array items => .array (rereadItems items)
  | .object members => .object (Members.ofList (rereadMembers members))

def rereadItems : List Json → List Json
  | [] => []
  | item :: rest => item.reread :: rereadItems rest

def rereadMembers : List (String × Json) → List (String × Json)
  | [] => []
  | (key, value) :: rest => (key, value.reread) :: rereadMembers rest

end

mutual

theorem read_redraft : ∀ {value : Json} {levels : Nat}, (∀ number ∈ value.numbers, number.Legible) →
    value.depth ≤ levels → value.redraft.read levels = .ok value.reread
  | .null, _, _, _ => by simp [redraft, reread, Draft.read]
  | .bool _, _, _, _ => by simp [redraft, reread, Draft.read]
  | .number value, _, legible, _ => by
      obtain ⟨literal, read, found, known⟩ := legible value List.mem_cons_self
      have again : value.reread = some read := by rw [Number.reread, found]; exact known
      simp [redraft, reread, again, Draft.read]
  | .string _, _, _, _ => by simp [redraft, reread, Draft.read]
  | .array items, 0, _, shallow => absurd shallow (Nat.not_succ_le_zero _)
  | .array items, levels + 1, legible, shallow =>
      Draft.read_array_eq_ok.mpr
        ⟨rereadItems items, readItems_redraftItems legible (Nat.le_of_succ_le_succ shallow), rfl, rfl⟩
  | .object members, 0, _, shallow => absurd shallow (Nat.not_succ_le_zero _)
  | .object members, levels + 1, legible, shallow =>
      Draft.read_object_eq_ok.mpr
        ⟨rereadMembers members, readMembers_redraftMembers legible (Nat.le_of_succ_le_succ shallow), rfl, rfl⟩

theorem readItems_redraftItems : ∀ {items : List Json} {levels : Nat},
    (∀ number ∈ numbersOfItems items, number.Legible) → depthOfItems items ≤ levels →
      Draft.readItems levels (redraftItems items) = .ok (rereadItems items)
  | [], _, _, _ => rfl
  | item :: rest, _, legible, shallow => by
      obtain ⟨here, there⟩ := List.forall_mem_append.mp legible
      obtain ⟨first, later⟩ := Nat.max_le.mp shallow
      exact Draft.readItems_cons_eq_ok.mpr
        ⟨item.reread, read_redraft here first, rereadItems rest, readItems_redraftItems there later, rfl⟩

theorem readMembers_redraftMembers : ∀ {members : Members} {levels : Nat},
    (∀ number ∈ numbersOfMembers members, number.Legible) → depthOfMembers members ≤ levels →
      Draft.readMembers levels (redraftMembers members) = .ok (rereadMembers members)
  | [], _, _, _ => rfl
  | (key, value) :: rest, _, legible, shallow => by
      obtain ⟨here, there⟩ := List.forall_mem_append.mp legible
      obtain ⟨first, later⟩ := Nat.max_le.mp shallow
      exact Draft.readMembers_cons_eq_ok.mpr
        ⟨key, rfl, value.reread, read_redraft here first, rereadMembers rest,
          readMembers_redraftMembers there later, rfl⟩

end

mutual

theorem reread_eq_self : ∀ {value : Json}, value.Proper → (∀ number ∈ value.numbers, number.reread = some number) →
    value.reread = value
  | .null, _, _ => rfl
  | .bool _, _, _ => rfl
  | .number value, _, same => by rw [reread, same value List.mem_cons_self]; rfl
  | .string _, _, _ => rfl
  | .array items, proper, same => by rw [reread, rereadItems_eq_self proper same]
  | .object members, proper, same => by
      rw [reread, rereadMembers_eq_self proper.2 same, Members.ofList_of_nodup proper.1]

theorem rereadItems_eq_self : ∀ {items : List Json}, ProperItems items →
    (∀ number ∈ numbersOfItems items, number.reread = some number) → rereadItems items = items
  | [], _, _ => rfl
  | item :: rest, proper, same => by
      obtain ⟨here, there⟩ := List.forall_mem_append.mp same
      rw [rereadItems, reread_eq_self proper.1 here, rereadItems_eq_self proper.2 there]

theorem rereadMembers_eq_self : ∀ {members : Members}, ProperMembers members →
    (∀ number ∈ numbersOfMembers members, number.reread = some number) → rereadMembers members = members
  | [], _, _ => rfl
  | (key, value) :: rest, proper, same => by
      obtain ⟨here, there⟩ := List.forall_mem_append.mp same
      rw [rereadMembers, reread_eq_self proper.1 here, rereadMembers_eq_self proper.2 there]

end

end Json
end BranchingStory
