import Diagram.Number.Binary

namespace Diagram

def lastDigits (n : Nat) : Nat → List (Fin 10)
  | 0 => []
  | k + 1 => lastDigits (n / 10) k ++ [Fin.ofNat 10 n]

def ofDigits (ds : List (Fin 10)) : Nat := ds.foldl (fun n d => 10 * n + d.val) 0

def digitChar (d : Fin 10) : Char := Char.ofNat (48 + d.val)

def digit? (c : Char) : Option (Fin 10) :=
  if '0' ≤ c ∧ c ≤ '9' then some (Fin.ofNat 10 (c.toNat - 48)) else none

def hexDigit? (c : Char) : Option Nat :=
  if '0' ≤ c ∧ c ≤ '9' then some (c.toNat - 48)
  else if 'a' ≤ c ∧ c ≤ 'f' then some (c.toNat - 87)
  else if 'A' ≤ c ∧ c ≤ 'F' then some (c.toNat - 55)
  else none

def takeDigits (cs : List Char) : List (Fin 10) × List Char :=
  ((cs.takeWhile (digit? · |>.isSome)).filterMap digit?, cs.dropWhile (digit? · |>.isSome))

/-- A number as it is written in decimal: sign, whole part, digits after the point, power of ten. -/
structure Numeral where
  negative : Bool
  whole : Nat
  fraction : List (Fin 10)
  exponent : Option Int
  deriving DecidableEq

namespace Numeral

def exponentText (plus : Bool) (e : Int) : String :=
  "e" ++ (if plus && decide (0 ≤ e) then "+" else "") ++ toString e

def text (n : Numeral) (plus : Bool) : String :=
  (if n.negative then "-" else "") ++ toString n.whole ++
    (if n.fraction.isEmpty then "" else "." ++ String.ofList (n.fraction.map digitChar)) ++
    n.exponent.elim "" (exponentText plus)

def isWhole (n : Numeral) : Bool := n.fraction.isEmpty && n.exponent.isNone

/-- Without a point and an exponent: a whole number, unless it is a negative zero or needs more than
64 bits. -/
def toInt? (n : Numeral) : Option Int :=
  if n.isWhole then
    if n.negative then
      if 0 < n.whole ∧ n.whole ≤ twoPow 63 then some (-n.whole) else none
    else if n.whole < twoPow 64 then some n.whole else none
  else none

def significand (n : Numeral) : Nat := n.whole * tenPow n.fraction.length + ofDigits n.fraction

def scale (n : Numeral) : Int := n.exponent.getD 0 - n.fraction.length

/-- The bits of the nearest number of a format. Powers of ten that cannot matter are not computed. -/
def encode (n : Numeral) (f : BinaryFormat) : Nat :=
  let m := n.significand
  let first := n.scale + (toString m).length
  if m = 0 ∨ first < -400 then f.signBit n.negative
  else if 400 < first then f.signBit n.negative + f.infinityBits
  else f.nearest n.negative (m * tenPow n.scale.toNat) (tenPow (-n.scale).toNat)

def toFloat (n : Numeral) : Float := Float.ofBits (UInt64.ofNat (n.encode .double))

end Numeral

end Diagram
