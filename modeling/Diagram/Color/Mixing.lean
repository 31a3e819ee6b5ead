import Diagram.Color.Text

namespace Diagram

namespace Color

/-- The channels that hexadecimal digits write: one digit each, which then counts twice, or two. -/
def ofNibbles? : List UInt8 → Option Color
  | [r, g, b] => some (opaqueRgb (17 * r) (17 * g) (17 * b))
  | [r, g, b, a] => some ⟨17 * r, 17 * g, 17 * b, 17 * a⟩
  | [r, r', g, g', b, b'] => some (opaqueRgb (16 * r + r') (16 * g + g') (16 * b + b'))
  | [r, r', g, g', b, b', a, a'] =>
    some ⟨16 * r + r', 16 * g + g', 16 * b + b', 16 * a + a'⟩
  | _ => none

/-- The light that a channel value stands for, from 0 to 1. -/
def light (channel : UInt8) : Float32 :=
  let s := channel.toFloat32
  if channel ≤ 10 then s / 3294.6 else Float32.pow ((s + 14.025) / 269.025) 2.4

def channel (light : Float32) : UInt8 :=
  if light ≤ 0.0 then 0
  else if light ≤ 0.0031308 then (3294.6 * light + 0.5).toUInt8
  else if light ≤ 1.0 then (269.025 * Float32.pow light (1.0 / 2.4) - 14.025 + 0.5).toUInt8
  else 255

def opacity (c : Color) : Float32 := c.alpha.toFloat32 / 255.0

def mixed (c : Color) : Color :=
  if c.alpha = 255 then c
  else if c.alpha = 0 then transparent
  else c.mapChannels fun s => channel (light s * c.opacity)

/-- Undoes `mixed`, up to the steps that are lost in rounding to channel values. -/
def unmixed (c : Color) : Color :=
  c.mapChannels fun s => channel (if c.alpha = 0 then light s else light s / c.opacity)

def faded (c : Color) (factor : Float32) : Color :=
  let f (s : UInt8) := (s.toFloat32 * factor + 0.5).toUInt8
  ⟨f c.red, f c.green, f c.blue, f c.alpha⟩

end Color

namespace ColorMixing

def standard : ColorMixing where
  ofHex? s := do
    let digits ← s.toList.mapM hexDigit?
    Color.mixed <$> Color.ofNibbles? (digits.map UInt8.ofNat)
  mix := Color.mixed
  unmix := Color.unmixed
  fade := Color.faded

end ColorMixing

end Diagram
