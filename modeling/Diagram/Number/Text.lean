import Diagram.Number.Numeral
import Diagram.Number.Shortest

namespace Diagram

/-- How the digits of a number are laid out. A number whose first digit stands for a power of ten
outside `least` to `greatest` is written with an exponent. -/
structure NumberLayout where
  least : Option Int
  greatest : Option Int
  keepsPoint : Bool
  /-- Of two equally near numbers with the fewest digits the even one is written, not the larger. -/
  evenTie : Bool
  plus : Bool

namespace NumberLayout

def plain : NumberLayout := ⟨none, none, false, false, false⟩

def detailed : NumberLayout := ⟨some (-4), some 15, true, false, false⟩

def json : NumberLayout := ⟨some (-5), some 15, true, true, true⟩

def isPositional (l : NumberLayout) (leading : Int) : Bool :=
  l.least.all (· ≤ leading) && l.greatest.all (leading ≤ ·)

def split (negative : Bool) (n places : Nat) (exponent : Option Int) : Numeral :=
  ⟨negative, n / tenPow places, lastDigits n places, exponent⟩

def arrange (l : NumberLayout) (negative : Bool) (d : Digits) : Numeral :=
  if d.significand = 0 ∨ l.isPositional d.leading then
    let n := d.significand * tenPow d.exponent.toNat
    if d.exponent < 0 then split negative n (-d.exponent).toNat none
    else ⟨negative, n, if l.keepsPoint then lastDigits 0 1 else [], none⟩
  else split negative d.significand (d.text.length - 1) (some d.leading)

def numeral? (l : NumberLayout) (f : BinaryFormat) : Binary → Option Numeral
  | .finite negative significand exponent =>
    some (l.arrange negative (f.shortest l.evenTie significand exponent))
  | _ => none

end NumberLayout

namespace Binary

def textWith (plus : Bool) (write : Bool → Nat → Int → Numeral) : Binary → String
  | .nan => "NaN"
  | .infinite negative => if negative then "-inf" else "inf"
  | .finite negative significand exponent => (write negative significand exponent).text plus

def shortestText (b : Binary) (f : BinaryFormat) (l : NumberLayout) : String :=
  b.textWith l.plus fun negative m e => l.arrange negative (f.shortest l.evenTie m e)

/-- One decimal, the exact value rounded to the nearest tenth and a half to the even one. The sign
stays even where nothing else of the number is left. -/
def oneDecimal (b : Binary) : String :=
  b.textWith false fun negative m e =>
    let (n, d) := ratio m e
    NumberLayout.split negative (roundRatio (10 * n) d) 1 none

def isHalfTenth : Binary → Bool
  | .finite _ m e =>
    let (n, d) := ratio (4 * m) e
    n % d == 0 && n / d % 2 == 1
  | _ => false

def isZero : Binary → Bool
  | .finite _ m _ => m == 0
  | _ => false

end Binary

def plainText (x : Float) : String := (Binary.ofFloat x).shortestText .double .plain

def detailedText (x : Float) : String := (Binary.ofFloat x).shortestText .double .detailed

/-- A coordinate with one decimal. One that is halfway between two tenths is first moved to the tenth
farther from zero, and a zero has no sign. -/
def tenthsText (x : Float) : String :=
  let b := Binary.ofFloat x
  let moved :=
    if b.isHalfTenth then Binary.ofFloat ((Binary.ofFloat (x * 10.0)).round.toFloat / 10.0) else b
  if moved.isZero then "0.0" else moved.oneDecimal

end Diagram
