import BranchingStory.Json.Printer
import BranchingStory.Proofs.Json.Parsed
import BranchingStory.Proofs.Decimal.Finite

namespace BranchingStory
namespace Json

/-! ## Quoted text -/

def piece (c : Char) : Piece :=
  if c = '"' ∨ c = '\\' ∨ c = '\n' ∨ c = '\r' ∨ c = '\t' ∨ c.toNat = 0x08 ∨ c.toNat = 0x0C then .char c
  else if c.toNat < 0x20 then .unit c.toNat
  else .char c

section

variable {c letter : Char} {text rest : List Char}

theorem hexValue?_hexDigit : ∀ n < 16, hexValue? (hexDigit n) = some n := by decide

theorem pieces?_short (short : unescape? letter = some c) :
    pieces? ('\\' :: letter :: text) = (pieces? text).map fun (pieces, after) => (.char c :: pieces, after) := by
  have plain : letter ≠ 'u' := by
    rintro rfl
    simp [unescape?] at short
  rw [pieces?.eq_4 _ _ fun _ _ _ _ _ same _ => plain same, short]
  cases pieces? text <;> rfl

theorem pieces?_unit {code : Nat} (small : code < 0x20) :
    pieces? ('\\' :: 'u' :: '0' :: '0' :: hexDigit (code / 16) :: hexDigit (code % 16) :: text) =
      (pieces? text).map fun (pieces, after) => (.unit code :: pieces, after) := by
  have zero : hexValue? '0' = some 0 := by decide
  have whole : 4096 * 0 + 256 * 0 + 16 * (code / 16) + code % 16 = code := by omega
  rw [pieces?.eq_3, zero, hexValue?_hexDigit _ (by omega), hexValue?_hexDigit _ (by omega)]
  simp only [Option.bind_eq_bind, Option.bind_some, whole]
  cases pieces? text <;> rfl

theorem pieces?_plain (unquoted : c ≠ '"') (unescaped : c ≠ '\\') (printable : ¬ c.toNat < 0x20) :
    pieces? (c :: text) = (pieces? text).map fun (pieces, after) => (.char c :: pieces, after) := by
  rw [pieces?.eq_5 _ _ unquoted (fun _ _ _ _ _ same _ => unescaped same) fun _ _ same _ => unescaped same,
    if_neg (not_or.mpr ⟨unescaped, printable⟩)]
  cases pieces? text <;> rfl

theorem pieces?_escape :
    pieces? (escape c ++ text) = (pieces? text).map fun (pieces, after) => (piece c :: pieces, after) := by
  simp only [escape]
  split_ifs with quote slash newline return_ tab back feed small
  · subst quote
    exact pieces?_short rfl
  · subst slash
    exact pieces?_short rfl
  · subst newline
    exact pieces?_short rfl
  · subst return_
    exact pieces?_short rfl
  · subst tab
    exact pieces?_short rfl
  · have same : c = Char.ofNat 0x08 := by rw [← back, Char.ofNat_toNat]
    subst same
    exact pieces?_short rfl
  · have same : c = Char.ofNat 0x0C := by rw [← feed, Char.ofNat_toNat]
    subst same
    exact pieces?_short rfl
  · simp only [piece, quote, slash, newline, return_, tab, back, feed, small, or_self, if_false, if_true]
    exact pieces?_unit small
  · simp only [piece, quote, slash, newline, return_, tab, back, feed, small, or_self, if_false]
    exact pieces?_plain quote slash small

theorem pieces?_escaped (text rest : List Char) :
    pieces? (text.flatMap escape ++ '"' :: rest) = some (text.map piece, rest) := by
  induction text with
  | nil => rfl
  | cons c text ih =>
      rw [List.flatMap_cons, List.append_assoc, pieces?_escape, ih]
      rfl

theorem join?_unit {code : Nat} {pieces : List Piece} (single : code < 0xD800) :
    join? (.unit code :: pieces) = (join? pieces).map (Char.ofNat code :: ·) := by
  have low : ¬ (0xD800 ≤ code ∧ code < 0xE000) := by omega
  cases pieces with
  | nil => rw [join?.eq_4 _ _ fun _ _ same => by simp at same, if_neg low]
  | cons first others =>
      cases first with
      | char c => rw [join?.eq_4 _ _ fun _ _ same => by simp at same, if_neg low]
      | unit next =>
          have alone : ¬ (0xD800 ≤ code ∧ code < 0xDC00 ∧ 0xDC00 ≤ next ∧ next < 0xE000) := by omega
          rw [join?, if_neg alone, if_neg low]

theorem join?_pieces (text : List Char) : join? (text.map piece) = some text := by
  induction text with
  | nil => rfl
  | cons c text ih =>
      rw [List.map_cons, piece]
      split_ifs with short small
      · rw [join?, ih]
        rfl
      · rw [join?_unit (by omega), ih, Char.ofNat_toNat]
        rfl
      · rw [join?, ih]
        rfl

theorem quoted_escaped (text rest : List Char) :
    quoted (text.flatMap escape ++ '"' :: rest) = text.flatMap escape := by
  induction text with
  | nil => rfl
  | cons c text ih =>
      rw [List.flatMap_cons, List.append_assoc]
      have kept : ∀ letter tail, quoted ('\\' :: letter :: tail) = '\\' :: letter :: quoted tail :=
        quoted.eq_3
      have hex : ∀ n < 16, hexDigit n ≠ '"' ∧ hexDigit n ≠ '\\' := by decide
      have plain : ∀ c tail, c ≠ '"' → c ≠ '\\' → quoted (c :: tail) = c :: quoted tail :=
        fun c tail unquoted unescaped => quoted.eq_4 c tail unquoted fun _ _ same _ => unescaped same
      simp only [escape]
      split_ifs with quote slash newline return_ tab back feed small
      · simp only [List.cons_append, List.nil_append, kept, ih]
      · simp only [List.cons_append, List.nil_append, kept, ih]
      · simp only [List.cons_append, List.nil_append, kept, ih]
      · simp only [List.cons_append, List.nil_append, kept, ih]
      · simp only [List.cons_append, List.nil_append, kept, ih]
      · simp only [List.cons_append, List.nil_append, kept, ih]
      · simp only [List.cons_append, List.nil_append, kept, ih]
      · have high := hex (c.toNat / 16) (by omega)
        have low := hex (c.toNat % 16) (by omega)
        simp only [List.cons_append, List.nil_append, kept, plain _ _ high.1 high.2, plain _ _ low.1 low.2, ih,
          plain '0' _ (by decide) (by decide)]
      · simp only [List.cons_append, List.nil_append, plain c _ quote slash, ih]

end

end Json
end BranchingStory
