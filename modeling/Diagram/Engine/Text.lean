import Diagram.Engine.Display
import Diagram.Text.Quoted

namespace Diagram

def recordText (name : String) (fields : List (String × String)) : String :=
  name ++ " \x7b " ++ ", ".intercalate (fields.map fun f => f.1 ++ ": " ++ f.2) ++ " \x7d"

namespace Gesture

def intentText : DragIntent → String
  | .pan => "Pan"
  | .moveSelection => "MoveSelection"

def targetText : Option String → String
  | none => "None"
  | some id => "Some(" ++ Quoted.encode id ++ ")"

def text : Gesture Float → String
  | .idle => "Idle"
  | .pressed intent target =>
    recordText "PointerDown" [("intent", intentText intent), ("target", targetText target)]
  | .panning => "Panning"
  | .draggingNode => "DraggingNode"
  | .draggingSlider originY => recordText "SliderDragging" [("origin_y", detailedText originY)]

end Gesture

namespace Transform

def detailedText (t : Transform Float) : String :=
  recordText "Transform" [
    ("translate", recordText "Vector" [
      ("x", Diagram.detailedText t.shift.x), ("y", Diagram.detailedText t.shift.y)]),
    ("scale", Diagram.detailedText t.scale)]

end Transform

def Display.summary (d : Display Float) : String :=
  let e := d.engine
  recordText "DiagramEngine" [
    ("nodes", toString e.scene.nodes.size),
    ("edges", toString e.scene.edges.size),
    ("transform", e.viewport.transform.detailedText),
    ("state", e.pointer.gesture.text),
    ("attached", if d.current.isSome then "true" else "false")]

end Diagram
