import Diagram.Number.Numeral

namespace Diagram

def takeSign : List Char → Bool × List Char
  | '-' :: cs => (true, cs)
  | '+' :: cs => (false, cs)
  | cs => (false, cs)

def lowerAscii (cs : List Char) : List Char := cs.map Char.toLower

def takeMantissa (negative : Bool) (cs : List Char) : Option (Numeral × List Char) :=
  let (whole, cs) := takeDigits cs
  let (fraction, cs) :=
    match cs with
    | '.' :: cs => takeDigits cs
    | cs => ([], cs)
  if whole.isEmpty && fraction.isEmpty then none
  else some (⟨negative, ofDigits whole, fraction, none⟩, cs)

/-- A number as it is given to a program: a decimal with or without a point and a power of ten, or
infinity, or what is not a number, in letters of either case. -/
def readFloat? (s : String) : Option Float :=
  let (negative, cs) := takeSign s.toList
  let signed (x : Float) := if negative then -x else x
  let word := String.ofList (lowerAscii cs)
  if word = "inf" ∨ word = "infinity" then some (signed (1.0 / 0.0))
  else if word = "nan" then some (0.0 / 0.0)
  else
    match takeMantissa negative cs with
    | none => none
    | some (n, []) => some n.toFloat
    | some (n, e :: cs) =>
      if e = 'e' ∨ e = 'E' then
        let (down, cs) := takeSign cs
        match takeDigits cs with
        | (d :: ds, []) =>
          let power : Int := ofDigits (d :: ds)
          some { n with exponent := some (if down then -power else power) }.toFloat
        | _ => none
      else none

end Diagram
