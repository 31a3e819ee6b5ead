import Diagram.Number.Binary

namespace Diagram

structure Digits where
  significand : Nat
  exponent : Int
  deriving DecidableEq

namespace Digits

def trim (d : Digits) : Digits :=
  if h : d.significand ≠ 0 ∧ d.significand % 10 = 0 then trim ⟨d.significand / 10, d.exponent + 1⟩
  else d
termination_by d.significand
decreasing_by omega

def text (d : Digits) : String := toString d.significand

def leading (d : Digits) : Int := d.exponent + (d.text.length - 1 : Nat)

end Digits

/-- The reals that round to a binary number, in quarters of its lowest bit: the number itself and the
two midpoints to its neighbours. The midpoints round to it when its significand is even. -/
structure RoundingInterval where
  lower : Nat
  value : Nat
  upper : Nat
  closed : Bool

/-- Below a power of two the neighbours are half as far apart, except at the least exponent. -/
def BinaryFormat.interval (f : BinaryFormat) (significand : Nat) (exponent : Int) :
    RoundingInterval where
  lower :=
    if significand = twoPow f.fractionBits && exponent != f.leastExponent then 4 * significand - 1
    else 4 * significand - 2
  value := 4 * significand
  upper := 4 * significand + 2
  closed := significand % 2 == 0

namespace RoundingInterval

variable (i : RoundingInterval)

def covers (a b t : Nat) : Bool :=
  if i.closed then decide (i.lower * a ≤ t * b) && decide (t * b ≤ i.upper * a)
  else decide (i.lower * a < t * b) && decide (t * b < i.upper * a)

/-- The multiple of `b / a` inside that is nearest to the value, if any is. Of the multiples only the
two next to the value can be nearest; when they are equally near, the upper one is taken unless the
even one is asked for. -/
def pick? (evenTie : Bool) (a b : Nat) : Option Nat :=
  let below := i.value * a / b
  match i.covers a b below, i.covers a b (below + 1) with
  | true, true =>
    let twice := 2 * (i.value * a)
    let midway := (2 * below + 1) * b
    if twice < midway then some below
    else if twice = midway ∧ evenTie ∧ below % 2 = 0 then some below
    else some (below + 1)
  | true, false => some below
  | false, true => some (below + 1)
  | false, false => none

def search (evenTie : Bool) (exponent : Int) : Nat → Int → Digits
  | 0, k => ⟨0, k⟩
  | fuel + 1, k =>
    let a := twoPow exponent.toNat * tenPow (-k).toNat
    let b := twoPow (-exponent).toNat * tenPow k.toNat
    match i.pick? evenTie a b with
    | some t => ⟨t, k⟩
    | none => search evenTie exponent fuel (k - 1)

end RoundingInterval

/-- The fewest digits that read back as `significand * 2 ^ exponent`, and of those the nearest. The
first grid tried is coarser than the number; seventeen digits always suffice. -/
def BinaryFormat.shortest (f : BinaryFormat) (evenTie : Bool) (significand : Nat) (exponent : Int) :
    Digits :=
  if significand = 0 then ⟨0, 0⟩
  else
    let coarse := (Nat.log2 significand + exponent) * 30103 / 100000 + 2
    ((f.interval significand exponent).search evenTie (exponent - 2) 24 coarse).trim

end Diagram
