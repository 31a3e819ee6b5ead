import Diagram.Number.Text
import Diagram.Scene.Basic

namespace Diagram

namespace Scene

variable {α : Type}

def disabledIds (s : Scene α) : List String :=
  (s.nodes.toList.filter fun n => !n.enabled).map Node.id

def disabledText (s : Scene α) : String := String.join (s.disabledIds.map (· ++ ","))

def nodeText (n : Node Float) : String :=
  n.id ++ ":" ++ n.status ++ ":" ++ tenthsText n.position.x ++ "," ++ tenthsText n.position.y ++ ";"

def valuesText (s : Scene Float) : String := String.join (s.nodes.toList.map nodeText)

end Scene

end Diagram
