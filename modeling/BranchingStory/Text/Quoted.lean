import BranchingStory.Text.Printable

/-!
Text in quotes for a reader: the quote and the backslash, line breaks and tabs are escaped, and so is every
character that would not be seen where it stands.
-/

namespace BranchingStory

def codeDigits (c : Char) : List Char := Nat.toDigits 16 c.toNat

def showQuoted (c : Char) : List Char :=
  if c = '\t' then ['\\', 't']
  else if c = '\r' then ['\\', 'r']
  else if c = '\n' then ['\\', 'n']
  else if c = '"' then ['\\', '"']
  else if c = '\\' then ['\\', '\\']
  else if c.toNat = 0 then ['\\', '0']
  else if isJoining c || !isPrintable c then ['\\', 'u', '\x7b'] ++ codeDigits c ++ ['\x7d']
  else [c]

def quoteText (text : String) : String :=
  String.ofList ('"' :: text.toList.flatMap showQuoted ++ ['"'])

end BranchingStory
