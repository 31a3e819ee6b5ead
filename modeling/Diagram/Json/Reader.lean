import Diagram.Json.Basic
import Diagram.Json.Number

namespace Diagram

namespace Json

/-- What was read from the front of a text, and the text behind it unless reading broke off. -/
structure Reading (β : Type) where
  value : β
  rest : Option (List Char)

def isSpace (c : Char) : Bool := c = ' ' || c = '\n' || c = '\t' || c = '\r'

def skipSpaces (cs : List Char) : List Char := cs.dropWhile isSpace

def faultAt : List Char → Fault
  | [] => .truncated
  | _ :: _ => .malformed

def brokenAt (cs : List Char) : Reading Json := ⟨.broken (.ofFault (faultAt cs)), none⟩

def readWord (value : Json) : List Char → List Char → Reading Json
  | [], cs => ⟨value, some cs⟩
  | w :: ws, c :: cs => if c = w then readWord value ws cs else brokenAt (c :: cs)
  | _ :: _, [] => brokenAt []

def readHex (cs : List Char) : Except Fault (Nat × List Char) :=
  match cs with
  | a :: b :: c :: d :: rest =>
    match hexDigit? a, hexDigit? b, hexDigit? c, hexDigit? d with
    | some a, some b, some c, some d => .ok (4096 * a + 256 * b + 16 * c + d, rest)
    | _, _, _, _ => .error .malformed
  | short =>
    if (String.ofList short).utf8ByteSize < 4 then .error .truncated else .error .malformed

def simpleEscape? : Char → Option Char
  | '"' => some '"'
  | '\\' => some '\\'
  | '/' => some '/'
  | 'b' => some '\x08'
  | 'f' => some '\x0c'
  | 'n' => some '\n'
  | 'r' => some '\r'
  | 't' => some '\t'
  | _ => none

def isHighSurrogate (n : Nat) : Bool := 0xD800 ≤ n && n < 0xDC00

def isLowSurrogate (n : Nat) : Bool := 0xDC00 ≤ n && n < 0xE000

def pairChar (high low : Nat) : Char :=
  Char.ofNat ((high - 0xD800) * 0x400 + (low - 0xDC00) + 0x10000)

/-- How a string ends: with its text, or with none if half of a surrogate pair stands in it; or it
is broken off. -/
inductive StringEnd
  | closed (text : Option String) (rest : List Char)
  | stopped (o : Obstacle)

def stopString (paired : Bool) (f : Fault) : StringEnd :=
  .stopped ⟨if paired then f else .malformed, some f⟩

/-- Reads a string behind its opening quote. `done` holds what has been read, last first; `paired`
tells that no half of a surrogate pair has been met. -/
def readString (done : List Char) (paired : Bool) : Nat → List Char → StringEnd
  | 0, _ => stopString paired .truncated
  | _ + 1, [] => stopString paired .truncated
  | fuel + 1, c :: cs =>
    if c = '"' then .closed (if paired then some (String.ofList done.reverse) else none) cs
    else if c ≠ '\\' then
      if c.toNat < 32 then stopString paired .malformed
      else readString (c :: done) paired fuel cs
    else
      match cs with
      | [] => stopString paired .truncated
      | 'u' :: cs =>
        match readHex cs with
        | .error f => stopString paired f
        | .ok (n, cs) =>
          if isLowSurrogate n then readString done false fuel cs
          else if isHighSurrogate n then
            match cs with
            | [] => stopString paired .truncated
            | ['\\'] => stopString paired .truncated
            | '\\' :: 'u' :: tail =>
              match readHex tail with
              | .error f => stopString paired f
              | .ok (m, tail) =>
                if isLowSurrogate m then readString (pairChar n m :: done) paired fuel tail
                else readString done false fuel cs
            | cs => readString done false fuel cs
          else readString (Char.ofNat n :: done) paired fuel cs
      | e :: cs =>
        match simpleEscape? e with
        | some c => readString (c :: done) paired fuel cs
        | none => stopString paired .malformed

def brokenNumber (cs : List Char) : Reading Json :=
  ⟨.broken ⟨faultAt cs, some .malformed⟩, none⟩

def finishNumber (n : Numeral) (cs : List Char) : Reading Json :=
  ⟨if n.isInRange then .number n else .broken .unusable, some cs⟩

def readExponent (n : Numeral) (cs : List Char) : Reading Json :=
  match cs with
  | 'e' :: cs | 'E' :: cs =>
    let (negative, cs) :=
      match cs with
      | '+' :: cs => (false, cs)
      | '-' :: cs => (true, cs)
      | cs => (false, cs)
    match takeDigits cs with
    | ([], cs) => brokenNumber cs
    | (ds, cs) =>
      let e : Int := ofDigits ds
      finishNumber { n with exponent := some (if negative then -e else e) } cs
  | cs => finishNumber n cs

def readFraction (n : Numeral) (cs : List Char) : Reading Json :=
  match cs with
  | '.' :: cs =>
    match takeDigits cs with
    | ([], cs) => brokenNumber cs
    | (ds, cs) => readExponent { n with fraction := ds } cs
  | cs => readExponent n cs

def readNumber (negative : Bool) (cs : List Char) : Reading Json :=
  match takeDigits cs with
  | ([], cs) => brokenNumber cs
  | ([d], cs) => readFraction ⟨negative, d.val, [], none⟩ cs
  | (d :: ds, cs) =>
    if d.val = 0 then ⟨.broken (.ofFault .malformed), none⟩
    else readFraction ⟨negative, ofDigits (d :: ds), [], none⟩ cs

mutual

/-- Reads a value and the spaces before it. Every step spends a unit of fuel, and two units for each
character are enough. -/
def readValue : Nat → List Char → Reading Json
  | 0, cs => brokenAt cs
  | fuel + 1, cs =>
    match skipSpaces cs with
    | [] => brokenAt []
    | 'n' :: cs => readWord .null ['u', 'l', 'l'] cs
    | 't' :: cs => readWord (.bool true) ['r', 'u', 'e'] cs
    | 'f' :: cs => readWord (.bool false) ['a', 'l', 's', 'e'] cs
    | '"' :: cs =>
      match readString [] true (cs.length + 1) cs with
      | .closed (some s) rest => ⟨.string s, some rest⟩
      | .closed none rest => ⟨.broken .unusable, some rest⟩
      | .stopped o => ⟨.broken o, none⟩
    | '[' :: cs =>
      match skipSpaces cs with
      | ']' :: rest => ⟨.list [], some rest⟩
      | [] => ⟨.array [] (some (.ofFault .truncated)), none⟩
      | cs =>
        let r := readItems fuel cs
        ⟨.array r.value.1 r.value.2, r.rest⟩
    | '\x7b' :: cs =>
      match skipSpaces cs with
      | '\x7d' :: rest => ⟨.record [], some rest⟩
      | cs =>
        let r := readMembers fuel cs
        ⟨.object r.value.1 r.value.2, r.rest⟩
    | '-' :: cs => readNumber true cs
    | c :: cs => if (digit? c).isSome then readNumber false (c :: cs) else brokenAt (c :: cs)

def readItems : Nat → List Char → Reading (List Json × Option Obstacle)
  | 0, cs => ⟨([], some (.ofFault (faultAt cs))), none⟩
  | fuel + 1, cs =>
    let item := readValue fuel cs
    match item.rest with
    | none => ⟨([item.value], none), none⟩
    | some cs =>
      match skipSpaces cs with
      | ']' :: rest => ⟨([item.value], none), some rest⟩
      | ',' :: cs =>
        let r := readItems fuel cs
        ⟨(item.value :: r.value.1, r.value.2), r.rest⟩
      | cs => ⟨([item.value], some (.ofFault (faultAt cs))), none⟩

/-- Reads the members of an object from a key on, up to the brace that closes it. A key that is no
usable text cuts the object for its reader, while one who passes over it goes on. -/
def readMembers : Nat → List Char → Reading (List (String × Json) × Option Obstacle)
  | 0, cs => ⟨([], some (.ofFault (faultAt cs))), none⟩
  | fuel + 1, cs =>
    match skipSpaces cs with
    | '"' :: cs =>
      match readString [] true (cs.length + 1) cs with
      | .stopped o => ⟨([], some o), none⟩
      | .closed key cs =>
        let r := readMember fuel cs
        let (j, others, cut) := r.value
        match key with
        | some key => ⟨((key, j) :: others, cut), r.rest⟩
        | none =>
          ⟨([], some ⟨.malformed, (skipFault j).or (skipMembers others cut)⟩), r.rest⟩
    | cs => ⟨([], some (.ofFault (faultAt cs))), none⟩

def readMember : Nat → List Char → Reading (Json × List (String × Json) × Option Obstacle)
  | 0, cs => ⟨((brokenAt cs).value, [], none), none⟩
  | fuel + 1, cs =>
    match skipSpaces cs with
    | ':' :: cs =>
      let member := readValue fuel cs
      match member.rest with
      | none => ⟨(member.value, [], none), none⟩
      | some cs =>
        match skipSpaces cs with
        | '\x7d' :: rest => ⟨(member.value, [], none), some rest⟩
        | ',' :: cs =>
          let r := readMembers fuel cs
          ⟨(member.value, r.value.1, r.value.2), r.rest⟩
        | cs => ⟨(member.value, [], some (.ofFault (faultAt cs))), none⟩
    | cs => ⟨((brokenAt cs).value, [], none), none⟩

end

structure Document where
  value : Json
  trailing : Bool

def read (s : String) : Document :=
  let cs := s.toList
  let r := readValue (2 * cs.length + 2) cs
  ⟨r.value, r.rest.any fun cs => !(skipSpaces cs).isEmpty⟩

end Json

end Diagram
