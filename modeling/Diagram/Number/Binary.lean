namespace Diagram

def twoPow (n : Nat) : Nat := Nat.pow 2 n

def tenPow (n : Nat) : Nat := Nat.pow 10 n

/-- A quotient rounded to the nearest whole number, a half to the even neighbour. -/
def roundRatio (n d : Nat) : Nat :=
  let q := n / d
  let r := n % d
  if 2 * r < d then q
  else if d < 2 * r then q + 1
  else if q % 2 = 0 then q else q + 1

/-- `m * 2 ^ e` as a quotient. -/
def ratio (m : Nat) (e : Int) : Nat × Nat := (m * twoPow e.toNat, twoPow (-e).toNat)

/-- The value of a floating-point number. A finite one is `significand * 2 ^ exponent` up to its
sign, with a significand that fills the precision unless the exponent is the least. -/
inductive Binary
  | nan
  | infinite (negative : Bool)
  | finite (negative : Bool) (significand : Nat) (exponent : Int)
  deriving DecidableEq

structure BinaryFormat where
  exponentBits : Nat
  fractionBits : Nat

namespace BinaryFormat

def double : BinaryFormat := ⟨11, 52⟩

def single : BinaryFormat := ⟨8, 23⟩

variable (f : BinaryFormat)

def exponentRange : Nat := twoPow f.exponentBits

def leastExponent : Int := 2 - twoPow (f.exponentBits - 1) - f.fractionBits

def infinityBits : Nat := (f.exponentRange - 1) * twoPow f.fractionBits

def signBit (negative : Bool) : Nat :=
  if negative then twoPow (f.exponentBits + f.fractionBits) else 0

def decode (bits : Nat) : Binary :=
  let unit := twoPow f.fractionBits
  let fraction := bits % unit
  let field := bits / unit % f.exponentRange
  let negative := bits / (unit * f.exponentRange) % 2 == 1
  if field = f.exponentRange - 1 then
    if fraction = 0 then .infinite negative else .nan
  else if field = 0 then .finite negative fraction f.leastExponent
  else .finite negative (unit + fraction) (f.leastExponent + (field - 1 : Nat))

def floorLog (n d : Nat) : Int :=
  let e : Int := (Nat.log2 n : Int) - Nat.log2 d
  let fits := if 0 ≤ e then decide (d * twoPow e.toNat ≤ n) else decide (d ≤ n * twoPow (-e).toNat)
  if fits then e else e - 1

/-- The bits of the number nearest to `n / d`, a tie going to the even significand. Beyond the
range that is infinity. A significand rounded up to the next power of two carries into the exponent
field, which is what the next number's bits are. -/
def nearest (negative : Bool) (n d : Nat) : Nat :=
  if n = 0 then f.signBit negative
  else
    let exponent := max (floorLog n d - f.fractionBits) f.leastExponent
    let significand :=
      if 0 ≤ exponent then roundRatio n (d * twoPow exponent.toNat)
      else roundRatio (n * twoPow (-exponent).toNat) d
    let bits := (exponent - f.leastExponent).toNat * twoPow f.fractionBits + significand
    f.signBit negative + min bits f.infinityBits

def encode : Binary → Nat
  | .nan => f.infinityBits + twoPow (f.fractionBits - 1)
  | .infinite negative => f.signBit negative + f.infinityBits
  | .finite negative significand exponent =>
    f.nearest negative (ratio significand exponent).1 (ratio significand exponent).2

end BinaryFormat

namespace Binary

def ofFloat (x : Float) : Binary := BinaryFormat.double.decode x.toBits.toNat

def toFloat (b : Binary) : Float := Float.ofBits (UInt64.ofNat (BinaryFormat.double.encode b))

def ofFloat32 (x : Float32) : Binary := BinaryFormat.single.decode x.toBits.toNat

def toFloat32 (b : Binary) : Float32 :=
  Float32.ofBits (UInt32.ofNat (BinaryFormat.single.encode b))

def roundMagnitude (significand : Nat) (exponent : Int) : Nat :=
  if 0 ≤ exponent then significand * twoPow exponent.toNat
  else (2 * significand + twoPow (-exponent).toNat) / twoPow ((-exponent).toNat + 1)

def round : Binary → Binary
  | .finite negative significand exponent =>
    .finite negative (roundMagnitude significand exponent) 0
  | b => b

def isFinite : Binary → Bool
  | .finite .. => true
  | _ => false

end Binary

def toSingle (x : Float) : Float32 := (Binary.ofFloat x).toFloat32

def toDouble (x : Float32) : Float := (Binary.ofFloat32 x).toFloat

end Diagram
