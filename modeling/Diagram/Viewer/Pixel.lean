import Diagram.Geometry.Point
import Diagram.Number.Binary

namespace Diagram

structure PixelPoint where
  x : Float32
  y : Float32

structure PixelRect where
  least : PixelPoint
  greatest : PixelPoint

namespace PixelPoint

def add (p q : PixelPoint) : PixelPoint := ⟨p.x + q.x, p.y + q.y⟩

def sub (p q : PixelPoint) : PixelPoint := ⟨p.x - q.x, p.y - q.y⟩

def scale (p : PixelPoint) (k : Float32) : PixelPoint := ⟨p.x * k, p.y * k⟩

/-- Taken in double precision and then rounded. -/
def length (p : PixelPoint) : Float32 :=
  let x := toDouble p.x
  let y := toDouble p.y
  toSingle (Float.sqrt (x * x + y * y))

def ofPoint (p : Point Float) : PixelPoint := ⟨toSingle p.x, toSingle p.y⟩

def toPoint (p : PixelPoint) : Point Float := ⟨toDouble p.x, toDouble p.y⟩

def origin : PixelPoint := ⟨0.0, 0.0⟩

end PixelPoint

namespace PixelRect

def ofCorner (corner size : PixelPoint) : PixelRect := ⟨corner, corner.add size⟩

def centered (p size : PixelPoint) : PixelRect :=
  ⟨p.sub (size.scale 0.5), p.add (size.scale 0.5)⟩

def size (r : PixelRect) : PixelPoint := r.greatest.sub r.least

def height (r : PixelRect) : Float32 := r.greatest.y - r.least.y

def centerX (r : PixelRect) : Float32 := (r.least.x + r.greatest.x) / 2.0

def contains (r : PixelRect) (p : PixelPoint) : Bool :=
  decide (r.least.x ≤ p.x) && decide (p.x ≤ r.greatest.x) &&
    decide (r.least.y ≤ p.y) && decide (p.y ≤ r.greatest.y)

def expand (r : PixelRect) (by' : PixelPoint) : PixelRect := ⟨r.least.sub by', r.greatest.add by'⟩

def toLocal (canvas : PixelRect) (p : PixelPoint) : Point Float := (p.sub canvas.least).toPoint

def toWindow (canvas : PixelRect) (p : Point Float) : PixelPoint := canvas.least.add (.ofPoint p)

end PixelRect

end Diagram
