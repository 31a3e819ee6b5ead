namespace Diagram

@[ext]
structure Color where
  red : UInt8
  green : UInt8
  blue : UInt8
  alpha : UInt8
  deriving DecidableEq, Inhabited

namespace Color

def opaqueRgb (red green blue : UInt8) : Color := ⟨red, green, blue, 255⟩

def isOpaque (c : Color) : Bool := c.alpha == 255

def transparent : Color := ⟨0, 0, 0, 0⟩

def mapChannels (f : UInt8 → UInt8) (c : Color) : Color :=
  ⟨f c.red, f c.green, f c.blue, c.alpha⟩

end Color

/-- What is taken from a library of colors. In a mixed color every channel carries as much light as
the opacity lets through. -/
structure ColorMixing where
  ofHex? : String → Option Color
  mix : Color → Color
  unmix : Color → Color
  /-- A mixed color under a further opacity. -/
  fade : Color → Float32 → Color

end Diagram
