import Diagram.Scene.Enabling

namespace Diagram

inductive SceneEdit (α : Type)
  | addNode (id label : String) (position : Point α) (status : String)
  | addEdge (source target status : String)
  | moveNode (id : String) (delta : Offset α)
  | moveSelected (delta : Offset α)
  | select (id : String)
  | clearSelection
  | setEnabled (ids : List String) (enabled : Bool)
  | setSelectionEnabled (enabled : Bool)
  | enableAll
  | disableAncestors
  | setStatus (status : String)
  | drain

namespace Scene

variable {α : Type} [Arith α]

/-- The number of what was added, if something was, and the new scene. -/
def perform (s : Scene α) : SceneEdit α → Except SceneError (Option Nat × Scene α)
  | .addNode id label position status => do
    let (h, s) ← s.addNode id label position status
    return (some h, s)
  | .addEdge source target status => do
    let (k, s) ← s.addEdge source target status
    return (some k, s)
  | .moveNode id delta => return (none, ← s.moveNode id delta)
  | .moveSelected delta => return (none, s.moveSelected delta)
  | .select id => return (none, ← s.select id)
  | .clearSelection => return (none, s.clearSelection)
  | .setEnabled ids enabled => return (none, s.setEnabled ids enabled)
  | .setSelectionEnabled enabled => return (none, s.setSelectionEnabled enabled)
  | .enableAll => return (none, s.enableAll)
  | .disableAncestors => return (none, s.disableAncestors)
  | .setStatus status => return (none, s.setStatus status)
  | .drain => return (none, s.drain.2)

/-- A scene after an edit. One that fails leaves it as it was. -/
def edit (s : Scene α) (e : SceneEdit α) : Scene α :=
  match s.perform e with
  | .ok (_, s) => s
  | .error _ => s

def run (metrics : NodeMetrics α) (edits : List (SceneEdit α)) (readings : Nat := 0) : Scene α :=
  edits.foldl edit (.empty metrics readings)

end Scene

end Diagram
