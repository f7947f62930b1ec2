import BranchingStory.Text.Encoding

/-!
Text that is turned into bytes and read again. The bytes of a character say where they end, so those that come after
do not matter.
-/

namespace BranchingStory

theorem toNat_byte {code : Nat} (small : code < 256) : (UInt8.ofNat code).toNat = code :=
  Nat.mod_eq_of_lt small

theorem continuation?_byte (code : Nat) : continuation? (UInt8.ofNat (code % 64 + 128)) = some (code % 64) := by
  have byte : (UInt8.ofNat (code % 64 + 128)).toNat = code % 64 + 128 := toNat_byte (by omega)
  have marked : (code % 64 + 128) / 64 = 2 := by omega
  have bits : (code % 64 + 128) % 64 = code % 64 := by omega
  rw [continuation?, byte, if_pos marked, bits]

theorem firstCharacter?_utf8EncodeChar (c : Char) (rest : List UInt8) :
    ∃ byte more, String.utf8EncodeChar c = byte :: more ∧ firstCharacter? byte (more ++ rest) = some (c, rest) := by
  have valid : c.val.toNat < 0xD800 ∨ 0xDFFF < c.val.toNat ∧ c.val.toNat < 0x110000 := c.valid
  have same : Char.ofNat c.val.toNat = c := Char.ofNat_toNat c
  obtain ⟨code, is_code⟩ : ∃ code, code = c.val.toNat := ⟨_, rfl⟩
  simp only [String.utf8EncodeChar, ← is_code] at valid same ⊢
  by_cases one : code ≤ 0x7F
  · refine ⟨_, _, if_pos one, ?_⟩
    have lead : (UInt8.ofNat code).toNat = code := toNat_byte (by omega)
    simp only [firstCharacter?, lead]
    rw [if_pos (by omega), same]
    rfl
  · rw [if_neg one]
    by_cases two : code ≤ 0x7FF
    · refine ⟨_, _, if_pos two, ?_⟩
      have lead : (UInt8.ofNat (code / 64 % 0x20 + 0xC0)).toNat = code / 64 + 0xC0 := by
        rw [toNat_byte (by omega)]
        omega
      have whole : (code / 64 + 0xC0 - 0xC0) * 64 + code % 64 = code := by omega
      simp only [firstCharacter?, lead, List.cons_append, List.nil_append, continuation?_byte]
      rw [if_neg (by omega), if_pos (by omega)]
      simp only [Option.bind_eq_bind, Option.bind_some, whole, same]
      rfl
    · rw [if_neg two]
      by_cases three : code ≤ 0xFFFF
      · refine ⟨_, _, if_pos three, ?_⟩
        have lead : (UInt8.ofNat (code / 4096 % 0x10 + 0xE0)).toNat = code / 4096 + 0xE0 := by
          rw [toNat_byte (by omega)]
          omega
        have whole : ((code / 4096 + 0xE0 - 0xE0) * 64 + code / 64 % 64) * 64 + code % 64 = code := by omega
        simp only [firstCharacter?, lead, List.cons_append, List.nil_append, continuation?_byte]
        rw [if_neg (by omega), if_neg (by omega), if_pos (by omega)]
        simp only [Option.bind_eq_bind, Option.bind_some, whole, same]
        rw [if_neg (by omega)]
      · rw [if_neg three]
        refine ⟨_, _, rfl, ?_⟩
        have lead : (UInt8.ofNat (code / 262144 % 0x08 + 0xF0)).toNat = code / 262144 + 0xF0 := by
          rw [toNat_byte (by omega)]
          omega
        have whole : (((code / 262144 + 0xF0 - 0xF0) * 64 + code / 4096 % 64) * 64 + code / 64 % 64) * 64 + code % 64 =
            code := by omega
        simp only [firstCharacter?, lead, List.cons_append, List.nil_append, continuation?_byte]
        rw [if_neg (by omega), if_neg (by omega), if_neg (by omega), if_pos (by omega)]
        simp only [Option.bind_eq_bind, Option.bind_some, whole, same]
        rw [if_neg (by omega)]

theorem charactersWithin_flatMap {rounds : Nat} {text : List Char}
    (enough : (text.flatMap String.utf8EncodeChar).length ≤ rounds) :
    charactersWithin rounds (text.flatMap String.utf8EncodeChar) = (text, true) := by
  induction text generalizing rounds with
  | nil => cases rounds <;> rfl
  | cons c rest ih =>
      obtain ⟨byte, more, bytes, read⟩ := firstCharacter?_utf8EncodeChar c (rest.flatMap String.utf8EncodeChar)
      rw [List.flatMap_cons, bytes, List.cons_append] at enough ⊢
      cases rounds with
      | zero => simp at enough
      | succ rounds =>
          have fewer : (rest.flatMap String.utf8EncodeChar).length ≤ rounds := by
            simp only [List.length_cons, List.length_append] at enough
            omega
          simp only [charactersWithin, read, ih fewer]

theorem toList_loop (bytes : ByteArray) {index : Nat} (passed : List UInt8) (within : index ≤ bytes.size) :
    ByteArray.toList.loop bytes index passed = passed.reverse ++ bytes.data.toList.drop index := by
  induction left : bytes.size - index generalizing index passed with
  | zero =>
      have finished : ¬ index < bytes.size := by omega
      have none : bytes.data.toList.drop index = [] := List.drop_eq_nil_of_le (by
        change bytes.size ≤ index
        omega)
      rw [ByteArray.toList.loop, if_neg finished, none, List.append_nil]
  | succ left ih =>
      have here : index < bytes.size := by omega
      have inside : index < bytes.data.toList.length := here
      have byte : bytes.get! index = bytes.data.toList[index] := getElem!_pos bytes.data index here
      rw [ByteArray.toList.loop, if_pos here, ih _ (by omega) (by omega), List.drop_eq_getElem_cons inside, byte]
      simp

theorem toList_toUTF8 (text : String) : text.toUTF8.toList = text.toList.flatMap String.utf8EncodeChar := by
  have bytes : text.toUTF8.data.toList = text.toList.flatMap String.utf8EncodeChar := by
    rw [String.toUTF8_eq_toByteArray, ← String.utf8Encode_toList, List.utf8Encode, List.toList_data_toByteArray]
  rw [ByteArray.toList, toList_loop _ _ (Nat.zero_le _), bytes]
  rfl

theorem characters_toUTF8 (text : String) : characters text.toUTF8.toList = (text.toList, true) := by
  rw [characters, toList_toUTF8]
  exact charactersWithin_flatMap (Nat.le_refl _)

end BranchingStory
