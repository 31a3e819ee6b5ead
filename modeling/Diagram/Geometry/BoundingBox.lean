import Diagram.Geometry.Point

namespace Diagram

/-- The smallest upright box around what has been included so far. A side is absent until something
bounds it. -/
structure BoundingBox (α : Type) where
  left : Option α
  top : Option α
  right : Option α
  bottom : Option α
  deriving Inhabited

namespace BoundingBox

variable {α : Type} [Arith α]

def empty : BoundingBox α := ⟨none, none, none, none⟩

/-- What is not a number bounds nothing. -/
def lower (side : Option α) (v : α) : Option α :=
  if v == v then some (side.elim v fun s => if v < s then v else s) else side

def raise (side : Option α) (v : α) : Option α :=
  if v == v then some (side.elim v fun s => if s < v then v else s) else side

def cover (b : BoundingBox α) (p : Point α) (half : Offset α) : BoundingBox α where
  left := lower b.left (p.x - half.x)
  top := lower b.top (p.y - half.y)
  right := raise b.right (p.x + half.x)
  bottom := raise b.bottom (p.y + half.y)

def minX (b : BoundingBox α) : α := b.left.getD Arith.infinity

def minY (b : BoundingBox α) : α := b.top.getD Arith.infinity

def maxX (b : BoundingBox α) : α := b.right.getD (-Arith.infinity)

def maxY (b : BoundingBox α) : α := b.bottom.getD (-Arith.infinity)

/-- Nothing lies between two sides that have both never been bounded or that have passed each
other. -/
def isEmptySpan (low high : Option α) : Bool :=
  match low, high with
  | none, none => true
  | low, high => decide (high.getD (-Arith.infinity) < low.getD Arith.infinity)

def isEmpty (b : BoundingBox α) : Bool :=
  isEmptySpan b.left b.right || isEmptySpan b.top b.bottom

def width (b : BoundingBox α) : α := b.maxX - b.minX

def height (b : BoundingBox α) : α := b.maxY - b.minY

end BoundingBox

end Diagram
