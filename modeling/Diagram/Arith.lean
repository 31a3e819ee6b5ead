import Diagram.Number.Hypotenuse

namespace Diagram

/-- The arithmetic that coordinates are computed with. No law is assumed, since floating point
keeps few of them; what holds of a diagram in every `Arith` therefore holds on a screen. -/
class Arith (α : Type) extends Add α, Sub α, Mul α, Div α, Neg α, LT α, LE α, BEq α,
    OfScientific α where
  decLt : DecidableLT α
  decLe : DecidableLE α
  sqrt : α → α
  hypotenuse : α → α → α
  ofNat : Nat → α
  infinity : α

attribute [reducible, instance] Arith.decLt Arith.decLe

instance : Arith Float where
  decLt := inferInstance
  decLe := inferInstance
  sqrt := Float.sqrt
  hypotenuse := Diagram.hypotenuse
  ofNat := Float.ofNat
  infinity := 1.0 / 0.0

namespace Arith

variable {α : Type} [Arith α]

def clamp (x lo hi : α) : α := if x < lo then lo else if hi < x then hi else x

def clamp? (x lo hi : α) : Option α := if lo ≤ hi then some (clamp x lo hi) else none

/-- `acc * x ^ n`, one binary digit of `n` at a time from the lowest. -/
def powerFrom (acc x : α) (n : Nat) : α :=
  let acc := if n % 2 = 1 then acc * x else acc
  if n / 2 = 0 then acc else powerFrom acc (x * x) (n / 2)
termination_by n

def power (x : α) (n : Nat) : α := powerFrom 1.0 x n

end Arith

end Diagram
