import Diagram.Config.Basic
import Diagram.Geometry.Boundary

namespace Diagram

/-- A node of a scene. Its edges are known by their numbers. -/
@[ext]
structure Node (α : Type) where
  id : String
  label : String
  position : Point α
  status : String
  enabled : Bool
  selected : Bool
  size : Size α
  border : α
  outEdges : List Nat
  inEdges : List Nat

@[ext]
structure Edge (α : Type) where
  source : Nat
  target : Nat
  status : String
  start : Point α
  finish : Point α

variable {α : Type} [Arith α]

namespace Node

def create (m : NodeMetrics α) (id label : String) (position : Point α) (status : String) :
    Node α where
  id := id
  label := label
  position := position
  status := status
  enabled := true
  selected := false
  size := ⟨Arith.ofNat label.length * m.charWidth + m.horizontalPadding, m.nodeHeight⟩
  border := m.border
  outEdges := []
  inEdges := []

def bounds (n : Node α) : Rect α := .centered n.position n.size

/-- The half extent of the box that edges end at. -/
def clipHalf (n : Node α) : Offset α := (n.size.grow n.border).half

def moveBy (n : Node α) (d : Offset α) : Node α := { n with position := n.position + d }

def edges (n : Node α) : List Nat := n.outEdges ++ n.inEdges

end Node

/-- Both ends of the line between two nodes: where it leaves the box of the one and enters that of the
other, or their common center. -/
def lineBetween (a b : Node α) : Point α × Point α :=
  if a.position == b.position then (a.position, b.position)
  else (boundaryPoint b.position a.position a.clipHalf,
    boundaryPoint a.position b.position b.clipHalf)

namespace Edge

def create (source target : Nat) (status : String) (a b : Node α) : Edge α where
  source := source
  target := target
  status := status
  start := (lineBetween a b).1
  finish := (lineBetween a b).2

def reroute (e : Edge α) (a b : Node α) : Edge α :=
  { e with start := (lineBetween a b).1, finish := (lineBetween a b).2 }

def involves (e : Edge α) (node : Nat) : Bool := e.source == node || e.target == node

end Edge

end Diagram
