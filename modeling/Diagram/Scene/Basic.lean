import Std.Data.HashMap
import Diagram.Event.Log
import Diagram.Geometry.BoundingBox
import Diagram.Scene.Node

namespace Diagram

inductive SceneError
  | duplicateId (id : String)
  | unknownNode (source target missing : String)
  | notFound (id : String)
  deriving DecidableEq

namespace SceneError

def message : SceneError → String
  | .duplicateId id => "Node '" ++ id ++ "' already exists"
  | .unknownNode source target missing =>
    "Edge " ++ source ++ " -> " ++ target ++ " references unknown node '" ++ missing ++ "'"
  | .notFound id => "Node '" ++ id ++ "' not found"

def isRecoverable : SceneError → Bool
  | .notFound _ => true
  | _ => false

end SceneError

/-- The nodes and edges of a diagram, numbered in the order in which they came. -/
structure Scene (α : Type) where
  nodes : Array (Node α)
  index : Std.HashMap String Nat
  edges : Array (Edge α)
  selection : List Nat
  /-- The footprints of the nodes at the time when they were added. -/
  bounds : BoundingBox α
  metrics : NodeMetrics α
  log : Log

namespace Scene

variable {α : Type} [Arith α]

def empty (metrics : NodeMetrics α) (readings : Nat := 0) : Scene α where
  nodes := #[]
  index := ∅
  edges := #[]
  selection := []
  bounds := .empty
  metrics := metrics
  log := .empty readings

def record (s : Scene α) (e : Event) : Scene α := { s with log := s.log.push e }

def handle? (s : Scene α) (id : String) : Option Nat := s.index[id]?

def node? (s : Scene α) (id : String) : Option (Node α) := s.handle? id >>= fun h => s.nodes[h]?

def idOf? (s : Scene α) (h : Nat) : Option String := s.nodes[h]?.map Node.id

def require (s : Scene α) (id : String) : Except SceneError Nat :=
  match s.handle? id with
  | some h => .ok h
  | none => .error (.notFound id)

def addNode (s : Scene α) (id label : String) (position : Point α) (status : String) :
    Except SceneError (Nat × Scene α) :=
  if s.index.contains id then .error (.duplicateId id)
  else
    let n := Node.create s.metrics id label position status
    let h := s.nodes.size
    let s := { s with
      nodes := s.nodes.push n
      index := s.index.insert id h
      bounds := s.bounds.cover position n.size.half }
    .ok (h, s.record (.nodeAdded id status))

/-- An end of an edge to be: the node with an id, and its number. -/
def endpoint (s : Scene α) (source target id : String) : Except SceneError (Nat × Node α) :=
  match s.handle? id >>= fun h => s.nodes[h]?.map (h, ·) with
  | some end' => .ok end'
  | none => .error (.unknownNode source target id)

def addEdge (s : Scene α) (source target status : String) : Except SceneError (Nat × Scene α) := do
  let (a, n) ← s.endpoint source target source
  let (b, m) ← s.endpoint source target target
  let k := s.edges.size
  let nodes := s.nodes.modify a fun n => { n with outEdges := n.outEdges ++ [k] }
  let nodes := nodes.modify b fun n => { n with inEdges := n.inEdges ++ [k] }
  let s := { s with nodes, edges := s.edges.push (.create a b status n m) }
  return (k, s.record (.edgeAdded source target))

def rerouteEdge (nodes : Array (Node α)) (e : Edge α) : Edge α :=
  match nodes[e.source]?, nodes[e.target]? with
  | some a, some b => e.reroute a b
  | _, _ => e

def findEdge? (s : Scene α) (source target : String) : Option (Edge α) := do
  let a ← s.handle? source
  let b ← s.handle? target
  let n ← s.nodes[a]?
  (n.outEdges.filterMap fun k => s.edges[k]?).find? (·.target == b)

def moveHandle (s : Scene α) (h : Nat) (d : Offset α) : Scene α :=
  let nodes := s.nodes.modify h (·.moveBy d)
  let adjacent := (s.nodes[h]?.map Node.edges).getD []
  { s with
    nodes
    edges := adjacent.foldl (fun edges k => edges.modify k (rerouteEdge nodes)) s.edges }

def moveNode (s : Scene α) (id : String) (d : Offset α) : Except SceneError (Scene α) := do
  let h ← s.require id
  return s.moveHandle h d

def moveSelected (s : Scene α) (d : Offset α) : Scene α :=
  s.selection.foldl (fun s h => s.moveHandle h d) s

def nodeAt? (s : Scene α) (p : Point α) : Option (Node α) :=
  s.nodes.toList.reverse.find? (·.bounds.contains p)

def drain (s : Scene α) : Array LoggedEvent × Scene α :=
  (s.log.entries, { s with log := s.log.cleared })

end Scene

end Diagram
