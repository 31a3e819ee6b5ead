import Diagram.Number.Numeral

namespace Diagram

namespace Numeral

def appendDigits (m : Nat) : List (Fin 10) → Nat × Nat
  | [] => (m, 0)
  | d :: ds =>
    if 10 * m + d.val < twoPow 64 then
      let (m, used) := appendDigits (10 * m + d.val) ds
      (m, used + 1)
    else (m, 0)

variable (n : Numeral)

/-- What a reader of JSON keeps of the digits, in 64 bits, and the power of ten that goes with it. -/
def shortened : Nat × Int :=
  let whole := (toString n.whole).toList.filterMap digit?
  let (m, used) := appendDigits 0 whole
  let (m, places) := appendDigits m n.fraction
  (m, n.exponent.getD 0 + (whole.length - used : Nat) - places)

def wholeDouble (m : Nat) : Float :=
  Float.ofBits (UInt64.ofNat (BinaryFormat.double.nearest false m 1))

def greatestPower : Nat := 308

/-- A number times a power of ten, each step rounded by itself, unless that is infinite. -/
def scaled? (x : Float) (e : Int) : Option Float :=
  let power (k : Nat) := wholeDouble (tenPow k)
  if 0 ≤ e then
    if e ≤ greatestPower then
      let y := x * power e.toNat
      if (Binary.ofFloat y).isFinite then some y else none
    else if x == 0.0 then some x
    else none
  else if -greatestPower ≤ e then some (x / power (-e).toNat)
  else if -2 * greatestPower ≤ e then
    some (x / power greatestPower / power (-e - greatestPower).toNat)
  else some 0.0

/-- The double that a numeral is read as, which need not be the nearest, unless the numeral is refused
as out of range. -/
def double? : Option Float :=
  let (m, e) := n.shortened
  (scaled? (wholeDouble m) e).map fun x => if n.negative then -x else x

/-- A whole number of 64 bits is rounded once; any other number is a double first. -/
def single? : Option Float32 :=
  if n.toInt?.isSome then some (Float32.ofBits (UInt32.ofNat (n.encode .single)))
  else n.double?.map toSingle

def isInRange : Bool := n.double?.isSome

end Numeral

end Diagram
