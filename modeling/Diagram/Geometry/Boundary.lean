import Diagram.Geometry.Point

namespace Diagram

variable {α : Type} [Arith α]

/-- Where the segment from `outer` to the center `inner` of a box meets the boundary of the box, whose
sides are `half` away from its center. A line steeper than the diagonal of the box leaves through
the top or the bottom. -/
def boundaryPoint (outer inner : Point α) (half : Offset α) : Point α :=
  let dx := outer.x - inner.x
  let dy := outer.y - inner.y
  if dy == 0.0 then
    ⟨if 0.0 < dx then inner.x + half.x else inner.x - half.x, inner.y⟩
  else if dx == 0.0 then
    ⟨inner.x, if 0.0 < dy then inner.y + half.y else inner.y - half.y⟩
  else
    let diagonal := half.y / half.x
    let slope := dy / dx
    let run := dx / dy
    let side : α := if 0.0 < dx then 1.0 else -1.0
    if diagonal < slope then ⟨inner.x + side * run * half.y, inner.y + side * half.y⟩
    else if slope < -diagonal then ⟨inner.x - side * run * half.y, inner.y - side * half.y⟩
    else ⟨inner.x + side * half.x, inner.y + side * slope * half.x⟩

end Diagram
