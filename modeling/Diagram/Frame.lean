import Diagram.Geometry.Transform
import Diagram.Scene.Basic

namespace Diagram

@[ext]
structure NodeShape (α : Type) where
  id : String
  label : String
  rect : Rect α
  fill : Color
  stroke : Color
  labelColor : Color
  opacity : Float32
  selected : Bool

@[ext]
structure EdgeLine (α : Type) where
  source : String
  target : String
  start : Point α
  finish : Point α
  color : Color

@[ext]
structure Frame (α : Type) where
  transform : Transform α
  nodes : List (NodeShape α)
  edges : List (EdgeLine α)
  /-- Where the handle of the slider is, as a part of its track. -/
  slider : α
  editMode : Bool

variable {α : Type} [Arith α]

namespace Transform

def applyRect (t : Transform α) (r : Rect α) : Rect α :=
  ⟨t.apply r.corner, ⟨r.size.width * t.scale, r.size.height * t.scale⟩⟩

end Transform

def Node.isDimmed (n : Node α) : Bool := !n.enabled || n.status == "disabled"

def NodeShape.ofNode (t : Transform α) (p : Palette) (n : Node α) : NodeShape α where
  id := n.id
  label := n.label
  rect := t.applyRect n.bounds
  fill := p.nodeColor n.status
  stroke := if n.selected then p.selectedStroke else p.unselectedStroke
  labelColor := p.label
  opacity := if n.isDimmed then p.disabledOpacity else 1.0
  selected := n.selected

def EdgeLine.ofEdge? (t : Transform α) (p : Palette) (s : Scene α) (e : Edge α) :
    Option (EdgeLine α) := do
  let a ← s.nodes[e.source]?
  let b ← s.nodes[e.target]?
  return ⟨a.id, b.id, t.apply e.start, t.apply e.finish, p.edgeColor e.status⟩

namespace Frame

def ofScene (s : Scene α) (t : Transform α) (p : Palette) : Frame α where
  transform := t
  nodes := s.nodes.toList.map (NodeShape.ofNode t p)
  edges := s.edges.toList.filterMap (EdgeLine.ofEdge? t p s)
  slider := 1.0
  editMode := false

def node? (f : Frame α) (id : String) : Option (NodeShape α) := f.nodes.find? (·.id == id)

end Frame

end Diagram
