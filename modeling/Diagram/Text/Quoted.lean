import Diagram.Text.Hidden

namespace Diagram

namespace Quoted

def hexChars (n : Nat) : List Char := Nat.toDigits 16 n

/-- How a character stands between quotes: as itself if it can be seen alone, and otherwise by its
number, apart from a few with a letter of their own. -/
def escape (c : Char) : List Char :=
  if c = '\x00' then ['\\', '0']
  else if c = '\t' then ['\\', 't']
  else if c = '\r' then ['\\', 'r']
  else if c = '\n' then ['\\', 'n']
  else if c = '"' then ['\\', '"']
  else if c = '\\' then ['\\', '\\']
  else if c.toNat < 32 ∨ isHidden c then ['\\', 'u', '\x7b'] ++ hexChars c.toNat ++ ['\x7d']
  else [c]

def encode (s : String) : String := String.ofList ('"' :: s.toList.flatMap escape ++ ['"'])

end Quoted

end Diagram
