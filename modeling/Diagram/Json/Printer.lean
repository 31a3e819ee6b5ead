import Diagram.Json.Basic
import Diagram.Number.Text

namespace Diagram

namespace Json

/-- Quotes, backslashes and control characters are escaped, and nothing else is. -/
def escape (c : Char) : List Char :=
  if c = '"' then ['\\', '"']
  else if c = '\\' then ['\\', '\\']
  else if c = '\n' then ['\\', 'n']
  else if c = '\r' then ['\\', 'r']
  else if c = '\t' then ['\\', 't']
  else if c = '\x08' then ['\\', 'b']
  else if c = '\x0c' then ['\\', 'f']
  else if c.toNat < 32 then ['\\', 'u', '0', '0', (c.toNat / 16).digitChar, (c.toNat % 16).digitChar]
  else [c]

def quote (s : String) : List Char := '"' :: s.toList.flatMap escape ++ ['"']

mutual

def chars : Json → List Char
  | .null => ['n', 'u', 'l', 'l']
  | .bool true => ['t', 'r', 'u', 'e']
  | .bool false => ['f', 'a', 'l', 's', 'e']
  | .number n => (n.text NumberLayout.json.plus).toList
  | .string s => quote s
  | .array items _ => '[' :: itemChars items
  | .object members _ => '\x7b' :: memberChars members
  | .broken _ => []

def itemChars : List Json → List Char
  | [] => [']']
  | [j] => chars j ++ [']']
  | j :: rest => chars j ++ ',' :: itemChars rest

def memberChars : List (String × Json) → List Char
  | [] => ['\x7d']
  | [(k, j)] => quote k ++ ':' :: chars j ++ ['\x7d']
  | (k, j) :: rest => quote k ++ ':' :: chars j ++ ',' :: memberChars rest

end

def text (j : Json) : String := String.ofList (chars j)

def newline (indent : Nat) : List Char := '\n' :: List.replicate (2 * indent) ' '

mutual

def prettyChars (indent : Nat) : Json → List Char
  | .array items _ =>
    if items.isEmpty then ['[', ']']
    else '[' :: prettyItems (indent + 1) items ++ newline indent ++ [']']
  | .object members _ =>
    if members.isEmpty then ['\x7b', '\x7d']
    else '\x7b' :: prettyMembers (indent + 1) members ++ newline indent ++ ['\x7d']
  | j => chars j

def prettyItems (indent : Nat) : List Json → List Char
  | [] => []
  | [j] => newline indent ++ prettyChars indent j
  | j :: rest => newline indent ++ prettyChars indent j ++ ',' :: prettyItems indent rest

def prettyMembers (indent : Nat) : List (String × Json) → List Char
  | [] => []
  | [(k, j)] => newline indent ++ quote k ++ ':' :: ' ' :: prettyChars indent j
  | (k, j) :: rest =>
    newline indent ++ quote k ++ ':' :: ' ' :: prettyChars indent j ++
      ',' :: prettyMembers indent rest

end

def pretty (j : Json) : String := String.ofList (prettyChars 0 j)

end Json

end Diagram
