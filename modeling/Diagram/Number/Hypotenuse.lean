import Diagram.Number.Binary

namespace Diagram

def floorSqrt (n : Nat) : Nat :=
  if h : n = 0 then 0
  else
    let r := 2 * floorSqrt (n / 4)
    if (r + 1) * (r + 1) ≤ n then r + 1 else r
termination_by n
decreasing_by omega

/-- Twice the whole part of the root of `n`, and one more if the root is not whole. With bits to spare
this rounds as twice the root does, since the two are on the same side of every midpoint. -/
def stickySqrt (n : Nat) : Nat :=
  let r := floorSqrt n
  if r * r = n then 2 * r else 2 * r + 1

/-- The bits of the root that are kept below the lowest bit of the two sides: enough to fill any
precision. -/
def rootBits : Nat := 64

namespace BinaryFormat

variable (f : BinaryFormat)

def hypotenuse (m : Nat) (e : Int) (n : Nat) (k : Int) : Nat :=
  let low := min e k
  let a := m * twoPow (e - low).toNat
  let b := n * twoPow (k - low).toNat
  let root := stickySqrt ((a * a + b * b) * twoPow (2 * rootBits))
  let quotient := ratio root (low - (rootBits + 1 : Nat))
  f.nearest false quotient.1 quotient.2

end BinaryFormat

namespace Binary

/-- The square root of the sum of two squares. An infinite side settles it, also beside what is not
a number, and over a side of zero it is the other side. -/
def hypotenuse (f : BinaryFormat) : Binary → Binary → Binary
  | .infinite _, _ => .infinite false
  | _, .infinite _ => .infinite false
  | .finite _ m e, .finite _ n k =>
    if m = 0 then .finite false n k
    else if n = 0 then .finite false m e
    else f.decode (f.hypotenuse m e n k)
  | _, _ => .nan

end Binary

def hypotenuse (x y : Float) : Float :=
  (Binary.hypotenuse .double (.ofFloat x) (.ofFloat y)).toFloat

end Diagram
