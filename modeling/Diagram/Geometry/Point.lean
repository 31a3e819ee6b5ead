import Diagram.Arith

namespace Diagram

@[ext]
structure Point (α : Type) where
  x : α
  y : α
  deriving Inhabited

@[ext]
structure Offset (α : Type) where
  x : α
  y : α
  deriving Inhabited

@[ext]
structure Size (α : Type) where
  width : α
  height : α
  deriving Inhabited

/-- An upright rectangle, by the corner with the least coordinates. -/
@[ext]
structure Rect (α : Type) where
  corner : Point α
  size : Size α
  deriving Inhabited

variable {α : Type} [Arith α]

namespace Point

def origin : Point α := ⟨0.0, 0.0⟩

instance : BEq (Point α) := ⟨fun p q => p.x == q.x && p.y == q.y⟩

instance : HAdd (Point α) (Offset α) (Point α) := ⟨fun p v => ⟨p.x + v.x, p.y + v.y⟩⟩

instance : HSub (Point α) (Point α) (Offset α) := ⟨fun p q => ⟨p.x - q.x, p.y - q.y⟩⟩

@[simp]
theorem add_x (p : Point α) (v : Offset α) : (p + v).x = p.x + v.x := rfl

@[simp]
theorem add_y (p : Point α) (v : Offset α) : (p + v).y = p.y + v.y := rfl

@[simp]
theorem sub_x (p q : Point α) : (p - q).x = p.x - q.x := rfl

@[simp]
theorem sub_y (p q : Point α) : (p - q).y = p.y - q.y := rfl

end Point

namespace Offset

def zero : Offset α := ⟨0.0, 0.0⟩

instance : BEq (Offset α) := ⟨fun v w => v.x == w.x && v.y == w.y⟩

instance : Add (Offset α) := ⟨fun v w => ⟨v.x + w.x, v.y + w.y⟩⟩

@[simp]
theorem add_x (v w : Offset α) : (v + w).x = v.x + w.x := rfl

@[simp]
theorem add_y (v w : Offset α) : (v + w).y = v.y + w.y := rfl

def scale (v : Offset α) (k : α) : Offset α := ⟨v.x * k, v.y * k⟩

def isZero (v : Offset α) : Bool := v.x == 0.0 && v.y == 0.0

def length (v : Offset α) : α := Arith.hypotenuse v.x v.y

end Offset

def Point.distance (p q : Point α) : α := (p - q).length

namespace Size

def zero : Size α := ⟨0.0, 0.0⟩

def half (s : Size α) : Offset α := ⟨s.width / 2.0, s.height / 2.0⟩

def grow (s : Size α) (amount : α) : Size α := ⟨s.width + amount, s.height + amount⟩

def center (s : Size α) : Point α := ⟨s.width / 2.0, s.height / 2.0⟩

end Size

namespace Rect

def centered (p : Point α) (s : Size α) : Rect α := ⟨⟨p.x - s.half.x, p.y - s.half.y⟩, s⟩

def opposite (r : Rect α) : Point α := ⟨r.corner.x + r.size.width, r.corner.y + r.size.height⟩

def center (r : Rect α) : Point α := r.corner + r.size.half

def contains (r : Rect α) (p : Point α) : Bool :=
  decide (r.corner.x ≤ p.x) && decide (p.x ≤ r.opposite.x) &&
    decide (r.corner.y ≤ p.y) && decide (p.y ≤ r.opposite.y)

end Rect

end Diagram
