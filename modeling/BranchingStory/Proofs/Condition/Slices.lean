import BranchingStory.Proofs.Condition.Spelling

/-!
The same reading by bytes. A number may be read with an index that counts bytes, with looks at what follows a byte of
the source and a slice of it for the number itself. All these bytes are ones that characters of the source start at or
that it ends at, and what is read is the same.
-/

namespace BranchingStory.Condition

open Numeral (isDigit)
open Lexeme (startsWithDigit)

/-! ## Bytes of a text -/

@[simp] theorem byteCount_nil : byteCount [] = 0 := rfl

@[simp] theorem byteCount_cons (c : Char) (text : List Char) :
    byteCount (c :: text) = c.utf8Size + byteCount text := rfl

@[simp] theorem byteCount_append (text more : List Char) :
    byteCount (text ++ more) = byteCount text + byteCount more := by
  induction text with
  | nil => simp
  | cons c text ih => simp [ih, Nat.add_assoc]

theorem byteCount_eq_utf8ByteSize (text : List Char) : byteCount text = (String.ofList text).utf8ByteSize := by
  induction text with
  | nil => rfl
  | cons c text ih =>
      rw [byteCount_cons, String.ofList_cons, String.utf8ByteSize_append, String.utf8ByteSize_singleton, ih]

/-- What a text goes on with from a byte, if a character starts at it or the text ends there. -/
def fromByte? : List Char → Nat → Option (List Char)
  | text, 0 => some text
  | [], _ + 1 => none
  | c :: rest, count + 1 => if count + 1 < c.utf8Size then none else fromByte? rest (count + 1 - c.utf8Size)

def uptoByte? : List Char → Nat → Option (List Char)
  | _, 0 => some []
  | [], _ + 1 => none
  | c :: rest, count + 1 =>
      if count + 1 < c.utf8Size then none else (uptoByte? rest (count + 1 - c.utf8Size)).map (c :: ·)

def slice? (text : List Char) (start finish : Nat) : Option (List Char) :=
  if finish < start then none else (fromByte? text start).bind fun rest => uptoByte? rest (finish - start)

theorem fromByte?_append (before rest : List Char) : fromByte? (before ++ rest) (byteCount before) = some rest := by
  induction before with
  | nil => cases rest <;> rfl
  | cons c before ih =>
      have wide := c.utf8Size_pos
      obtain ⟨count, same⟩ := Nat.exists_eq_add_one_of_ne_zero (by omega : c.utf8Size + byteCount before ≠ 0)
      rw [List.cons_append, byteCount_cons, same, fromByte?, if_neg (by omega), ← same, Nat.add_sub_cancel_left, ih]

theorem uptoByte?_append (text rest : List Char) : uptoByte? (text ++ rest) (byteCount text) = some text := by
  induction text with
  | nil => cases rest <;> rfl
  | cons c text ih =>
      have wide := c.utf8Size_pos
      obtain ⟨count, same⟩ := Nat.exists_eq_add_one_of_ne_zero (by omega : c.utf8Size + byteCount text ≠ 0)
      rw [List.cons_append, byteCount_cons, same, uptoByte?, if_neg (by omega), ← same, Nat.add_sub_cancel_left, ih]
      rfl

theorem slice?_append (before text rest : List Char) :
    slice? (before ++ (text ++ rest)) (byteCount before) (byteCount before + byteCount text) = some text := by
  rw [slice?, if_neg (by omega), fromByte?_append, Option.bind_some, Nat.add_sub_cancel_left, uptoByte?_append]

/-! ## Reading with an index -/

namespace Sliced

variable (source : List Char)

def digits : (pointed : Bool) → (finish index : Nat) → List Char → Option (Nat × Nat × List Char)
  | _, finish, index, [] => some (finish, index, [])
  | pointed, finish, index, c :: rest => do
      let point ← if c = '.' ∧ pointed = false then (fromByte? source (index + 1)).map startsWithDigit else some false
      if isDigit c || point then digits (pointed || c == '.') (index + 1) (index + c.utf8Size) rest
      else some (finish, index, c :: rest)

def moreDigits : (finish index : Nat) → List Char → Nat × List Char
  | finish, _, [] => (finish, [])
  | finish, index, c :: rest =>
      if isDigit c then moreDigits (index + 1) (index + c.utf8Size) rest else (finish, c :: rest)

def power (finish index : Nat) : List Char → Option (Nat × List Char)
  | [] => some (finish, [])
  | mark :: rest =>
      if mark = 'e' ∨ mark = 'E' then do
        let behind ← fromByte? source (index + 1)
        let (_, unsigned) := Lexeme.sign behind
        if startsWithDigit unsigned then
          match rest with
          | signed :: digits =>
              if byteCount unsigned < byteCount behind
              then some (moreDigits finish (index + mark.utf8Size + signed.utf8Size) digits)
              else some (moreDigits finish (index + mark.utf8Size) rest)
          | [] => some (finish, [])
        else some (finish, mark :: rest)
      else some (finish, mark :: rest)

def number (start : Nat) (text : List Char) : Option (Except Error Lexeme) := do
  let (finish, index, rest) ← digits source false start start text
  let (finish, rest) ← power source finish index rest
  let literal ← slice? source start finish
  match Numeral.ofText? literal with
  | some value => return .ok ⟨.number value.toFloat, literal, rest⟩
  | none => return .error (.invalidNumber (String.ofList literal) start)

def first (offset : Nat) (c : Char) (rest : List Char) : Option (Except Error Lexeme) := do
  let numeric ← if isDigit c then some true
    else if c = '.' then (fromByte? source (offset + 1)).map startsWithDigit
    else some false
  if numeric then number source offset (c :: rest) else return Lexeme.first offset c rest

def tokensWithin : Nat → Nat → List Char → Option (Except Error (List Placed))
  | _, _, [] => some (.ok [])
  | 0, _, _ => some (.ok [])
  | steps + 1, offset, c :: rest =>
      if isBlank c then tokensWithin steps (offset + c.utf8Size) rest
      else do
        match ← first source offset c rest with
        | .error cause => return .error cause
        | .ok lexeme =>
            let more ← tokensWithin steps (offset + byteCount lexeme.text) lexeme.rest
            return more.map (⟨lexeme.token, offset⟩ :: ·)

/-- The tokens of a text, or nothing if there is no slice where one is taken. -/
def tokens : Option (Except Error (List Placed)) := tokensWithin source source.length 0 source

/-! ## The same tokens -/

section

variable {source : List Char} {index : Nat} {c : Char} {before text rest : List Char}

theorem utf8Size_of_isDigit (digit : isDigit c = true) : c.utf8Size = 1 := by
  rw [isDigit, Bool.and_eq_true, decide_eq_true_eq, decide_eq_true_eq] at digit
  have high : c.val ≤ 0x39 := digit.2
  rw [Char.utf8Size, if_pos (UInt32.le_trans high (by decide))]

theorem moreDigits_eq (index : Nat) (text : List Char) :
    moreDigits index index text = (index + byteCount (text.takeWhile isDigit), text.dropWhile isDigit) := by
  induction text generalizing index with
  | nil => rfl
  | cons c rest ih =>
      rw [moreDigits]
      split
      · rename_i digit
        rw [utf8Size_of_isDigit digit, ih, List.takeWhile_cons_of_pos digit, List.dropWhile_cons_of_pos digit,
          byteCount_cons, utf8Size_of_isDigit digit, Nat.add_assoc]
      · rename_i other
        rw [List.takeWhile_cons_of_neg other, List.dropWhile_cons_of_neg other]
        rfl

theorem moreDigits_of_starts (finish index : Nat) (starts : startsWithDigit text = true) :
    moreDigits finish index text = (index + byteCount (text.takeWhile isDigit), text.dropWhile isDigit) := by
  cases text with
  | nil => cases starts
  | cons c rest =>
      have digit : isDigit c = true := starts
      simp [moreDigits, digit, utf8Size_of_isDigit digit, moreDigits_eq, Nat.add_assoc]

theorem digits_of_pointed (index : Nat) (text : List Char) :
    digits source true index index text =
      some (index + byteCount (text.takeWhile isDigit), index + byteCount (text.takeWhile isDigit),
        text.dropWhile isDigit) := by
  induction text generalizing index with
  | nil => rfl
  | cons c rest ih =>
      cases digit : isDigit c with
      | true =>
          simp [digits, digit, utf8Size_of_isDigit digit, ih, Nat.add_assoc]
      | false => simp [digits, digit]

theorem fromByte?_next (whole : source = before ++ c :: rest) (narrow : c.utf8Size = 1) :
    fromByte? source (byteCount before + 1) = some rest := by
  have found := fromByte?_append (before ++ [c]) rest
  rwa [byteCount_append, byteCount_cons, byteCount_nil, narrow, List.append_assoc, List.singleton_append,
    ← whole] at found

theorem digits_of_unpointed {point : List Char} (whole : source = before ++ text)
    (split : Lexeme.fraction (text.dropWhile isDigit) = (point, rest)) :
    let finish := byteCount (before ++ (text.takeWhile isDigit ++ point))
    digits source false (byteCount before) (byteCount before) text = some (finish, finish, rest) := by
  induction text generalizing before with
  | nil =>
      obtain ⟨rfl, rfl⟩ := Prod.mk.inj split
      simp [digits]
  | cons c text ih =>
      cases digit : isDigit c with
      | true =>
          have narrow := utf8Size_of_isDigit digit
          rw [List.dropWhile_cons_of_pos digit] at split
          have later := @ih (before ++ [c]) (by simpa using whole) split
          have onward : c ≠ '.' := Numeral.ne_of_isDigit digit (by decide)
          have plain : (c == '.') = false := beq_eq_false_iff_ne.mpr onward
          simpa [digits, digit, narrow, onward, plain, Nat.add_assoc] using later
      | false =>
          rw [List.dropWhile_cons_of_neg (by simp [digit])] at split
          by_cases point : c = '.'
          · subst point
            have behind := fromByte?_next whole rfl
            rw [Lexeme.fraction] at split
            cases starts : startsWithDigit text with
            | true =>
                rw [if_pos starts] at split
                obtain ⟨rfl, rfl⟩ := Prod.mk.inj split
                have narrow : Char.utf8Size '.' = 1 := rfl
                simp [digits, digit, behind, starts, narrow, digits_of_pointed, Nat.add_assoc]
            | false =>
                rw [if_neg (by simp [starts])] at split
                obtain ⟨rfl, rfl⟩ := Prod.mk.inj split
                simp [digits, digit, behind, starts]
          · rw [Lexeme.fraction_of_ne point] at split
            obtain ⟨rfl, rfl⟩ := Prod.mk.inj split
            simp [digits, digit, point]

theorem narrow_of_sign {negative : Bool} {signed : List Char}
    (allowed : (negative, signed) ∈ [(false, []), (false, ['+']), (true, ['-'])]) :
    signed = [] ∨ ∃ c, signed = [c] ∧ c.utf8Size = 1 := by
  simp only [List.mem_cons, List.not_mem_nil, or_false, Prod.mk.injEq] at allowed
  obtain ⟨-, same⟩ | ⟨-, same⟩ | ⟨-, same⟩ := allowed
  · exact .inl same
  · exact .inr ⟨_, same, rfl⟩
  · exact .inr ⟨_, same, rfl⟩

theorem power_eq {scaled : List Char} (whole : source = before ++ text)
    (split : Lexeme.exponent text = (scaled, rest)) :
    power source (byteCount before) (byteCount before) text = some (byteCount (before ++ scaled), rest) := by
  cases text with
  | nil =>
      obtain ⟨rfl, rfl⟩ := Prod.mk.inj split
      simp [power]
  | cons mark text =>
      by_cases marks : mark = 'e' ∨ mark = 'E'
      · have narrow : mark.utf8Size = 1 := by rcases marks with rfl | rfl <;> rfl
        obtain ⟨⟨signed, unsigned⟩, signs⟩ : ∃ parts, Lexeme.sign text = parts := ⟨_, rfl⟩
        obtain ⟨⟨negative, allowed⟩, parted⟩ := Lexeme.sign_cases signs
        simp only [Lexeme.exponent, signs] at split
        cases starts : startsWithDigit unsigned with
        | false =>
            rw [if_neg (by simp [starts])] at split
            obtain ⟨rfl, rfl⟩ := Prod.mk.inj split
            simp [power, marks, fromByte?_next whole narrow, signs, starts]
        | true =>
            rw [if_pos ⟨marks, starts⟩] at split
            obtain ⟨rfl, rfl⟩ := Prod.mk.inj split
            simp only [power, if_pos marks, fromByte?_next whole narrow, signs, if_pos starts, narrow,
              Option.bind_eq_bind, Option.bind_some]
            rcases narrow_of_sign allowed with rfl | ⟨c, rfl, thin⟩
            · obtain rfl : text = unsigned := parted
              cases text with
              | nil => cases starts
              | cons first digits => simp [narrow, moreDigits_of_starts _ _ starts, Nat.add_assoc]
            · obtain rfl : text = c :: unsigned := parted
              have less : byteCount unsigned < 1 + byteCount unsigned := by omega
              simp only [byteCount_append, byteCount_cons, thin, narrow, if_pos less, moreDigits_of_starts _ _ starts,
                List.cons_append, List.nil_append, Nat.add_assoc]
      · simp only [Lexeme.exponent] at split
        rw [if_neg (fun both => marks both.1)] at split
        obtain ⟨rfl, rfl⟩ := Prod.mk.inj split
        simp [power, marks]

theorem number_eq (whole : source = before ++ c :: rest) (starts : Lexeme.startsNumeral (c :: rest) = true) :
    number source (byteCount before) (c :: rest) = some (Lexeme.first (byteCount before) c rest) := by
  obtain ⟨⟨point, behind⟩, pointed⟩ : ∃ parts, Lexeme.fraction ((c :: rest).dropWhile isDigit) = parts := ⟨_, rfl⟩
  obtain ⟨⟨scaled, left⟩, scales⟩ : ∃ parts, Lexeme.exponent behind = parts := ⟨_, rfl⟩
  have split : Lexeme.numeral (c :: rest) = ((c :: rest).takeWhile isDigit ++ point ++ scaled, left) := by
    simp only [Lexeme.numeral, pointed, scales]
  have taken := digits_of_unpointed whole pointed
  have onward : source = before ++ ((c :: rest).takeWhile isDigit ++ point) ++ behind := by
    rw [whole, List.append_assoc, List.append_assoc, ← (Lexeme.fraction_spells pointed).2,
      List.takeWhile_append_dropWhile]
  have sliced := slice?_append before ((c :: rest).takeWhile isDigit ++ point ++ scaled) left
  rw [← Lexeme.numeral_parts split, ← whole, ← byteCount_append, ← List.append_assoc] at sliced
  obtain ⟨numeral, read, -⟩ := longest_numeral starts split
  have numeric : (isDigit c || (c == '.' && startsWithDigit rest)) = true := starts
  rw [Lexeme.first, if_pos numeric]
  simp only [number, taken, power_eq onward scales, sliced, split, read, Option.bind_eq_bind, Option.bind_some]
  rfl

theorem first_eq (whole : source = before ++ c :: rest) :
    first source (byteCount before) c rest = some (Lexeme.first (byteCount before) c rest) := by
  have number := number_eq whole
  cases digit : isDigit c with
  | true => simp [first, digit, number (by simp [Lexeme.startsNumeral, digit])]
  | false =>
      by_cases point : c = '.'
      · subst point
        cases starts : startsWithDigit rest with
        | true =>
            simp [first, digit, fromByte?_next whole rfl, starts, number (by simp [Lexeme.startsNumeral, starts])]
        | false => simp [first, digit, fromByte?_next whole rfl, starts]
      · simp [first, digit, point]

theorem tokensWithin_eq (steps : Nat) (whole : source = before ++ text) :
    tokensWithin source steps (byteCount before) text =
      some (Condition.tokensWithin steps (byteCount before) text) := by
  induction steps generalizing before text with
  | zero => cases text <;> rfl
  | succ steps ih =>
      cases text with
      | nil => rfl
      | cons c rest =>
          rw [tokensWithin]
          split
          · rename_i blank
            have behind := @ih (before ++ [c]) rest (by simpa using whole)
            rw [Condition.tokensWithin, if_pos blank]
            simpa using behind
          · rename_i filled
            rw [first_eq whole]
            cases read : Lexeme.first (byteCount before) c rest with
            | error cause => rw [Condition.tokensWithin, if_neg filled, read]; rfl
            | ok lexeme =>
                have parts := (longest_of_first read).2
                have behind := @ih (before ++ lexeme.text) lexeme.rest (by rw [whole, parts, List.append_assoc])
                rw [byteCount_append] at behind
                simp only [Option.bind_eq_bind, Option.bind_some, behind, tokensWithin_of_first filled read]
                rfl

theorem tokens_eq (source : List Char) : tokens source = some (Condition.tokens source) :=
  tokensWithin_eq source.length (List.nil_append source).symm

end

end Sliced
end BranchingStory.Condition
