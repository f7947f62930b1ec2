/-!
Text as bytes. Reading takes characters as long as the bytes are well formed.
-/

namespace BranchingStory

def continuation? (byte : UInt8) : Option Nat :=
  if byte.toNat / 64 = 2 then some (byte.toNat % 64) else none

/-- The character that starts with a given byte, and the bytes after it. A character is written with as few
bytes as it needs, and half of a surrogate pair is none. -/
def firstCharacter? (byte : UInt8) (rest : List UInt8) : Option (Char × List UInt8) :=
  let lead := byte.toNat
  if lead < 0x80 then some (Char.ofNat lead, rest)
  else if 0xC2 ≤ lead ∧ lead < 0xE0 then
    match rest with
    | b :: rest => do
        let code := (lead - 0xC0) * 64 + (← continuation? b)
        return (Char.ofNat code, rest)
    | _ => none
  else if 0xE0 ≤ lead ∧ lead < 0xF0 then
    match rest with
    | b :: c :: rest => do
        let code := ((lead - 0xE0) * 64 + (← continuation? b)) * 64 + (← continuation? c)
        if code < 0x800 ∨ (0xD800 ≤ code ∧ code < 0xE000) then none
        else some (Char.ofNat code, rest)
    | _ => none
  else if 0xF0 ≤ lead ∧ lead < 0xF5 then
    match rest with
    | b :: c :: d :: rest => do
        let code := (((lead - 0xF0) * 64 + (← continuation? b)) * 64 + (← continuation? c)) * 64 +
          (← continuation? d)
        if code < 0x10000 ∨ 0x110000 ≤ code then none else some (Char.ofNat code, rest)
    | _ => none
  else none

def charactersWithin : Nat → List UInt8 → List Char × Bool
  | _, [] => ([], true)
  | 0, _ :: _ => ([], false)
  | rounds + 1, byte :: rest =>
      match firstCharacter? byte rest with
      | some (c, after) =>
          let (more, clean) := charactersWithin rounds after
          (c :: more, clean)
      | none => ([], false)

def characters (bytes : List UInt8) : List Char × Bool := charactersWithin bytes.length bytes

end BranchingStory
