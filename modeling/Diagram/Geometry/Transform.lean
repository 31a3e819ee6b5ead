import Diagram.Geometry.Point
import Diagram.Number.Text

namespace Diagram

/-- Scales the model, then shifts it onto the screen. -/
@[ext]
structure Transform (α : Type) where
  shift : Offset α
  scale : α
  deriving Inhabited

namespace Transform

variable {α : Type} [Arith α]

def identity : Transform α := ⟨Offset.zero, 1.0⟩

def shifting (v : Offset α) : Transform α := ⟨v, 1.0⟩

def scalingAbout (factor : α) (focus : Point α) : Transform α :=
  ⟨⟨focus.x - factor * focus.x, focus.y - factor * focus.y⟩, factor⟩

def apply (t : Transform α) (p : Point α) : Point α :=
  ⟨t.shift.x + t.scale * p.x, t.shift.y + t.scale * p.y⟩

def invert (t : Transform α) (p : Point α) : Point α :=
  ⟨(p.x - t.shift.x) / t.scale, (p.y - t.shift.y) / t.scale⟩

/-- First `t`, then `u`. -/
def next (t u : Transform α) : Transform α :=
  ⟨⟨u.shift.x + u.scale * t.shift.x, u.shift.y + u.scale * t.shift.y⟩, u.scale * t.scale⟩

def zoom (t : Transform α) (factor : α) (focus : Point α) : Transform α :=
  t.next (scalingAbout factor focus)

def pan (t : Transform α) (v : Offset α) : Transform α := t.next (shifting v)

def text (t : Transform Float) : String :=
  "translate(" ++ plainText t.shift.x ++ "," ++ plainText t.shift.y ++ ") scale(" ++
    plainText t.scale ++ ")"

end Transform

end Diagram
