import Diagram.Scene.Basic

namespace Diagram

namespace Scene

variable {α : Type} [Arith α]

def modifyNode (s : Scene α) (h : Nat) (f : Node α → Node α) : Scene α :=
  { s with nodes := s.nodes.modify h f }

def setFlag (s : Scene α) (h : Nat) (selected : Bool) : Scene α :=
  s.modifyNode h ({ · with selected })

def selectedId? (s : Scene α) : Option String := s.selection.head? >>= s.idOf?

def isSelected (s : Scene α) (id : String) : Bool := (s.node? id).any Node.selected

def deselect (s : Scene α) : Scene α :=
  { s.selection.foldl (fun s h => s.setFlag h false) s with selection := [] }

def select (s : Scene α) (id : String) : Except SceneError (Scene α) := do
  let h ← s.require id
  let marked := s.deselect.setFlag h true
  return { marked with selection := [h] }.record (.selectionChanged s.selectedId? (some id))

def clearSelection (s : Scene α) : Scene α :=
  if s.selection.isEmpty then s
  else s.deselect.record (.selectionChanged s.selectedId? none)

def setStatus (s : Scene α) (status : String) : Scene α :=
  if s.selection.isEmpty then s
  else
    let marked := s.selection.foldl (fun s h => s.modifyNode h ({ · with status })) s
    marked.record (.statusChanged (s.selection.filterMap s.idOf?) status)

end Scene

end Diagram
