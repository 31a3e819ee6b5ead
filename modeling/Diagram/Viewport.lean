import Diagram.Config.Basic
import Diagram.Geometry.BoundingBox
import Diagram.Geometry.Transform

namespace Diagram

@[ext]
structure Viewport (α : Type) where
  transform : Transform α
  policy : ZoomPolicy α

namespace Viewport

variable {α : Type} [Arith α]

def unmoved (policy : ZoomPolicy α) : Viewport α := ⟨.identity, policy⟩

def scale (v : Viewport α) : α := v.transform.scale

def toScreen (v : Viewport α) (p : Point α) : Point α := v.transform.apply p

def toModel (v : Viewport α) (p : Point α) : Point α := v.transform.invert p

/-- The scale at which a height fills its part of the screen, within bounds. A diagram without height
takes the largest. -/
def fitScale? (policy : ZoomPolicy α) (graphHeight height : α) : Option α :=
  let wanted :=
    if 0.0 < graphHeight then height / graphHeight * policy.fitRatio else policy.maxFitScale
  Arith.clamp? wanted policy.minFitScale policy.maxFitScale

def fitted (v : Viewport α) (b : BoundingBox α) (width scale : α) : Viewport α :=
  { v with
    transform :=
      ⟨⟨(width - b.width * scale) / 2.0 - b.minX * scale, v.policy.topMargin - b.minY * scale⟩,
        scale⟩ }

/-- Shows the whole of a box. An empty box changes nothing; otherwise the bounds of the scale have to
be in order. Tells whether there was something to fit. -/
def fit? (v : Viewport α) (b : BoundingBox α) (width height : α) : Option (Viewport α × Bool) :=
  if b.isEmpty then some (v, false)
  else do
    let scale ← fitScale? v.policy b.height height
    return (v.fitted b width scale, true)

def pan (v : Viewport α) (d : Offset α) : Viewport α := { v with transform := v.transform.pan d }

/-- Beyond a bound, zooming farther away from it is refused. -/
def refuses (v : Viewport α) (factor : α) : Bool :=
  (decide (v.policy.maxZoom < v.scale) && decide ((1.0 : α) < factor)) ||
    (decide (v.scale < v.policy.minZoom) && decide (factor < (1.0 : α)))

def zoomAt (v : Viewport α) (factor : α) (focus : Point α) : Viewport α :=
  if v.refuses factor then v else { v with transform := v.transform.zoom factor focus }

def setScaleAt (v : Viewport α) (scale : α) (focus : Point α) : Viewport α :=
  { v with transform := v.transform.zoom (scale / v.scale) focus }

def zoomSpan (v : Viewport α) : α := v.policy.maxZoom - v.policy.minZoom

def zoomToPercent (v : Viewport α) (percent : α) (size : Size α) : Viewport α :=
  v.setScaleAt (v.policy.minZoom + v.zoomSpan * Arith.power percent 2) size.center

def zoomPercent (v : Viewport α) : α :=
  Arith.clamp ((v.scale - v.policy.minZoom) / v.zoomSpan) 0.0 1.0

/-- The factor of some notches of the wheel, of which positive ones zoom in. The most negative number
of notches has no negation, and so no factor. -/
def wheelFactor? (v : Viewport α) (notches : Int32) : Option α :=
  if 0 ≤ notches then some (Arith.power v.policy.wheelIn notches.toInt.toNat)
  else if notches = Int32.minValue then none
  else some (Arith.power v.policy.wheelOut (-notches).toInt.toNat)

def centerOn (v : Viewport α) (p : Point α) (size : Size α) : Viewport α :=
  { v with
    transform.shift :=
      ⟨size.width / 2.0 - v.scale * p.x, size.height / 2.0 - v.scale * p.y⟩ }

end Viewport

end Diagram
