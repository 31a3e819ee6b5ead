import Diagram.Scene.Selection

namespace Diagram

namespace Scene

variable {α : Type} [Arith α]

/-- Sets the flag of one node. Its id is noted if that changed the flag. -/
def setEnabledAt (enabled : Bool) (state : Scene α × List String) (h : Nat) :
    Scene α × List String :=
  match state.1.nodes[h]? with
  | some n =>
    if n.enabled == enabled then state
    else (state.1.modifyNode h ({ · with enabled }), state.2 ++ [n.id])
  | none => state

def setEnabledHandles (s : Scene α) (handles : List Nat) (enabled : Bool) : Scene α :=
  let (s, changed) := handles.foldl (setEnabledAt enabled) (s, [])
  if changed.isEmpty then s else s.record (.enabledChanged changed enabled)

def setEnabled (s : Scene α) (ids : List String) (enabled : Bool) : Scene α :=
  s.setEnabledHandles (ids.filterMap s.handle?) enabled

def setSelectionEnabled (s : Scene α) (enabled : Bool) : Scene α :=
  s.setEnabledHandles s.selection enabled

def enableAll (s : Scene α) : Scene α := s.setEnabledHandles (List.range s.nodes.size) true

def parents (s : Scene α) (h : Nat) : List Nat :=
  ((s.nodes[h]?.map Node.inEdges).getD []).filterMap fun k => s.edges[k]?.map Edge.source

def fresh (seen : List Nat) : List Nat → List Nat
  | [] => []
  | h :: rest => if h ∈ seen then fresh seen rest else h :: fresh (h :: seen) rest

/-- Searches against the edges, breadth first. Nodes that were met wait in the queue, and those that
were found are kept in the order in which they were. -/
def search (s : Scene α) (start : List Nat) : Nat → List Nat → List Nat → List Nat
  | 0, _, found => found
  | _ + 1, [], found => found
  | fuel + 1, h :: queue, found =>
    let new := fresh (start ++ found) (s.parents h)
    search s start fuel (queue ++ new) (found ++ new)

/-- The nodes from which there is a way to one of `start`, nearest first. Each of them is the source of
an edge and waits only once, which bounds the search. -/
def ancestors (s : Scene α) (start : List Nat) : List Nat :=
  s.search start (start.length + s.edges.size + 1) start []

def disableAncestors (s : Scene α) : Scene α :=
  s.setEnabledHandles (s.ancestors s.selection) false

end Scene

end Diagram
