import BranchingStory.Proofs.Condition.Slices

/-!
How a condition falls into tokens. Blanks apart, each of its characters belongs to the token that it is read for, each
token is read from the longest text that can stand for one, and where there is none the reading ends with an error that
says where.
-/

namespace BranchingStory.Condition

/-- A text that starts at an offset falls into blanks and the longest tokens up to a rest of it. -/
inductive Segments : Nat → List Char → List Placed → List Char → Prop
  | stop {offset : Nat} {rest : List Char} : Segments offset rest [] rest
  | blank {offset : Nat} {c : Char} {text rest : List Char} {placed : List Placed} (blank : isBlank c = true)
      (more : Segments (offset + byteCount [c]) text placed rest) : Segments offset (c :: text) placed rest
  | token {offset : Nat} {token : Token} {text behind rest : List Char} {placed : List Placed}
      (longest : Longest token text behind) (more : Segments (offset + byteCount text) behind placed rest) :
      Segments offset (text ++ behind) (⟨token, offset⟩ :: placed) rest

structure Stuck (c : Char) (rest : List Char) : Prop where
  filled : isBlank c = false
  none : ∀ token text, Spells token text → ¬ text <+: c :: rest

section

variable {offset : Nat} {token : Token} {text rest : List Char} {placed : List Placed}

theorem Spells.byteCount_pos (spells : Spells token text) : 0 < byteCount text := by
  obtain ⟨c, more, rfl⟩ := List.exists_cons_of_ne_nil spells.ne_nil
  have wide := c.utf8Size_pos
  rw [byteCount_cons]
  omega

theorem Segments.located (segments : Segments offset text placed rest) :
    ∀ one ∈ placed, ∃ before lexeme after, text = before ++ (lexeme ++ after) ∧
      one.offset = offset + byteCount before ∧ Longest one.token lexeme after := by
  induction segments with
  | stop => exact List.forall_mem_nil _
  | @blank offset c text rest placed _ _ ih =>
      intro one listed
      obtain ⟨before, lexeme, after, rfl, there, longest⟩ := ih one listed
      refine ⟨c :: before, lexeme, after, rfl, ?_, longest⟩
      rw [there]
      simp [Nat.add_assoc]
  | @token offset token lexeme behind rest placed longest _ ih =>
      refine List.forall_mem_cons.mpr ⟨⟨[], lexeme, behind, rfl, rfl, longest⟩, fun one listed => ?_⟩
      obtain ⟨before, other, after, rfl, there, long⟩ := ih one listed
      refine ⟨lexeme ++ before, other, after, by simp, ?_, long⟩
      rw [there]
      simp [Nat.add_assoc]

theorem Segments.sorted (segments : Segments offset text placed rest) : placed.Pairwise (·.offset < ·.offset) := by
  induction segments with
  | stop => exact .nil
  | blank _ _ ih => exact ih
  | token longest more ih =>
      refine .cons (fun one listed => ?_) ih
      obtain ⟨before, _, _, _, there, _⟩ := more.located one listed
      have wide := longest.spells.byteCount_pos
      simp only [there]
      omega

/-- What a reading ends with: the tokens of the whole text, or an error about a place that no token can be read at after
the tokens before it. -/
def Lexes (offset : Nat) (text : List Char) : Except Error (List Placed) → Prop
  | .ok placed => Segments offset text placed []
  | .error cause => ∃ placed before c rest, text = before ++ c :: rest ∧ Segments offset text placed (c :: rest) ∧
      Stuck c rest ∧ cause = if c = '\'' ∨ c = '"' then .unterminatedText (offset + byteCount before)
        else .unexpectedCharacter c (offset + byteCount before)

theorem Lexes.after_blank {c : Char} {result : Except Error (List Placed)} (blank : isBlank c = true)
    (more : Lexes (offset + byteCount [c]) text result) : Lexes offset (c :: text) result := by
  cases result with
  | ok placed => exact Segments.blank blank more
  | error cause =>
      obtain ⟨placed, before, stop, rest, rfl, segments, stuck, same⟩ := more
      refine ⟨placed, c :: before, stop, rest, rfl, .blank blank segments, stuck, ?_⟩
      simpa [Nat.add_assoc] using same

theorem Lexes.after_token {lexeme behind : List Char} {result : Except Error (List Placed)}
    (longest : Longest token lexeme behind) (more : Lexes (offset + byteCount lexeme) behind result) :
    Lexes offset (lexeme ++ behind) (result.map (⟨token, offset⟩ :: ·)) := by
  cases result with
  | ok placed => exact Segments.token longest more
  | error cause =>
      obtain ⟨placed, before, stop, rest, rfl, segments, stuck, same⟩ := more
      refine ⟨_, lexeme ++ before, stop, rest, by simp, .token longest segments, stuck, ?_⟩
      simpa [Nat.add_assoc] using same

theorem lexes_tokensWithin {steps : Nat} (enough : text.length ≤ steps) :
    Lexes offset text (tokensWithin steps offset text) := by
  induction steps generalizing offset text with
  | zero =>
      obtain rfl := List.eq_nil_of_length_eq_zero (Nat.le_zero.mp enough)
      exact .stop
  | succ steps ih =>
      cases text with
      | nil => exact .stop
      | cons c rest =>
          have shorter : rest.length ≤ steps := Nat.le_of_succ_le_succ enough
          by_cases blank : isBlank c = true
          · rw [tokensWithin, if_pos blank]
            exact .after_blank blank (ih shorter)
          · cases read : Lexeme.first offset c rest with
            | error cause =>
                obtain ⟨none, rfl⟩ := none_of_first read
                rw [tokensWithin, if_neg blank, read]
                exact ⟨[], [], c, rest, rfl, .stop, ⟨Bool.eq_false_iff.mpr blank, none⟩, rfl⟩
            | ok lexeme =>
                obtain ⟨longest, parts⟩ := longest_of_first read
                have taken := List.length_pos_of_ne_nil longest.spells.ne_nil
                have lengths := congrArg List.length parts
                rw [List.length_cons, List.length_append] at lengths
                have step := Lexes.after_token longest (@ih (offset + byteCount lexeme.text) lexeme.rest (by omega))
                rw [tokensWithin_of_first blank read, parts]
                exact step

theorem tokensWithin_of_segments (segments : Segments offset text placed rest) {steps : Nat}
    (enough : text.length ≤ steps) :
    ∃ before left, text = before ++ rest ∧ rest.length ≤ left ∧
      tokensWithin steps offset text = (tokensWithin left (offset + byteCount before) rest).map (placed ++ ·) := by
  induction segments generalizing steps with
  | @stop offset rest =>
      refine ⟨[], steps, rfl, enough, ?_⟩
      exact (congrFun Except.map_id (tokensWithin steps offset rest)).symm
  | @blank offset c text rest placed blank more ih =>
      cases steps with
      | zero => exact absurd enough (by simp)
      | succ steps =>
          obtain ⟨before, left, rfl, last, read⟩ := ih (Nat.le_of_succ_le_succ enough)
          refine ⟨c :: before, left, rfl, last, ?_⟩
          rw [tokensWithin, if_pos blank]
          simpa [Nat.add_assoc] using read
  | @token offset token text behind rest placed longest more ih =>
      obtain ⟨c, others, shape⟩ := List.exists_cons_of_ne_nil longest.spells.ne_nil
      have whole : c :: (others ++ behind) = text ++ behind := by rw [shape, List.cons_append]
      have filled := longest.spells.filled (whole ▸ List.prefix_append text behind)
      rw [← whole] at enough ⊢
      cases steps with
      | zero => exact absurd enough (by simp)
      | succ steps =>
          rw [List.length_cons, List.length_append] at enough
          obtain ⟨before, left, rfl, last, read⟩ := @ih steps (by omega)
          refine ⟨text ++ before, left, by rw [whole, List.append_assoc], last, ?_⟩
          rw [tokensWithin_of_first (Bool.eq_false_iff.mp filled) (first_of_longest longest whole), read,
            byteCount_append, Nat.add_assoc]
          cases tokensWithin left (offset + (byteCount text + byteCount before)) rest <;> rfl

theorem tokensWithin_nil (steps offset : Nat) : tokensWithin steps offset [] = .ok [] := by
  cases steps <;> rfl

theorem Stuck.tokensWithin_eq {c : Char} (stuck : Stuck c rest) {steps : Nat} (enough : (c :: rest).length ≤ steps)
    (offset : Nat) :
    tokensWithin steps offset (c :: rest) =
      .error (if c = '\'' ∨ c = '"' then .unterminatedText offset else .unexpectedCharacter c offset) := by
  cases steps with
  | zero => exact absurd enough (by simp)
  | succ steps =>
      rw [tokensWithin, if_neg (Bool.eq_false_iff.mp stuck.filled)]
      cases read : Lexeme.first offset c rest with
      | ok lexeme =>
          obtain ⟨longest, parts⟩ := longest_of_first read
          have leads : lexeme.text <+: c :: rest := parts ▸ List.prefix_append lexeme.text lexeme.rest
          exact absurd leads (stuck.none lexeme.token lexeme.text longest.spells)
      | error cause =>
          rw [(none_of_first read).2]
          rfl

theorem tokensWithin_eq_iff {steps : Nat} (enough : text.length ≤ steps) {result : Except Error (List Placed)} :
    tokensWithin steps offset text = result ↔ Lexes offset text result := by
  constructor
  · rintro rfl
    exact lexes_tokensWithin enough
  · intro lexes
    cases result with
    | ok placed =>
        obtain ⟨before, left, -, -, read⟩ := tokensWithin_of_segments lexes enough
        rw [read, tokensWithin_nil, Except.map, List.append_nil]
    | error cause =>
        obtain ⟨placed, before, c, rest, whole, segments, stuck, rfl⟩ := lexes
        obtain ⟨same, left, again, last, read⟩ := tokensWithin_of_segments segments enough
        obtain rfl : before = same := List.append_cancel_right (whole.symm.trans again)
        rw [read, stuck.tokensWithin_eq last, Except.map]

end

/-- A condition that falls into tokens does so without anything left, and each token is the longest at its offset. One
that does not has no token at the offset of the error, and tokens and blanks up to there. -/
theorem lexing_is_lossless (source : List Char) :
    Sliced.tokens source = some (tokens source) ∧
      (∀ placed, tokens source = .ok placed ↔ Segments 0 source placed []) ∧
      (∀ placed, tokens source = .ok placed → placed.Pairwise (·.offset < ·.offset) ∧
        ∀ one ∈ placed, ∃ before text after, source = before ++ (text ++ after) ∧
          one.offset = (String.ofList before).utf8ByteSize ∧ Longest one.token text after) ∧
      (∀ cause, tokens source = .error cause ↔ ∃ placed before c rest, source = before ++ c :: rest ∧
        Segments 0 source placed (c :: rest) ∧ Stuck c rest ∧
          let offset := (String.ofList before).utf8ByteSize
          cause = if c = '\'' ∨ c = '"' then .unterminatedText offset else .unexpectedCharacter c offset) ∧
      ∀ literal offset, tokens source ≠ .error (.invalidNumber literal offset) := by
  have ends (result : Except Error (List Placed)) : tokens source = result ↔ Lexes 0 source result :=
    tokensWithin_eq_iff (Nat.le_refl source.length)
  refine ⟨Sliced.tokens_eq source, fun placed => ends (.ok placed), fun placed read => ?_, fun cause => ?_,
    fun literal offset failed => ?_⟩
  · have segments : Segments 0 source placed [] := (ends (.ok placed)).mp read
    refine ⟨segments.sorted, fun one listed => ?_⟩
    obtain ⟨before, text, after, whole, there, longest⟩ := segments.located one listed
    exact ⟨before, text, after, whole, by rw [there, Nat.zero_add, byteCount_eq_utf8ByteSize], longest⟩
  · rw [ends (.error cause), Lexes]
    simp only [Nat.zero_add, byteCount_eq_utf8ByteSize]
  · obtain ⟨_, _, c, _, _, _, _, same⟩ := (ends _).mp failed
    by_cases quotes : c = '\'' ∨ c = '"'
    · simp [quotes] at same
    · simp [quotes] at same

theorem points_and_ampersands_are_parted :
    let placed : List Placed := [⟨.number (Numeral.toFloat ⟨false, ['1'], [], 0⟩), 0⟩, ⟨.mark .dot, 1⟩,
      ⟨.number (Numeral.toFloat ⟨false, [], ['5'], 0⟩), 2⟩]
    Segments 0 "1..5".toList placed [] ∧ placed.Pairwise (·.offset < ·.offset) ∧
      ∃ before c rest, "a & b".toList = before ++ c :: rest ∧ Stuck c rest ∧
        let offset := (String.ofList before).utf8ByteSize
        Error.unexpectedCharacter '&' 2 =
          if c = '\'' ∨ c = '"' then .unterminatedText offset else .unexpectedCharacter c offset := by
  obtain ⟨-, segmented, located, -, -⟩ := lexing_is_lossless "1..5".toList
  obtain ⟨-, -, -, failed, -⟩ := lexing_is_lossless "a & b".toList
  obtain ⟨_, before, c, rest, whole, -, stuck, same⟩ := (failed (.unexpectedCharacter '&' 2)).mp rfl
  exact ⟨(segmented _).mp rfl, (located _ rfl).1, before, c, rest, whole, stuck, same⟩

end BranchingStory.Condition
