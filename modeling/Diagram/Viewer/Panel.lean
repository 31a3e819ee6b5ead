import Diagram.Viewer.Basic

namespace Diagram

inductive SelectionAction
  | enable
  | disable
  | disableAncestors
  | setStatus (status : String)
  | center

inductive PanelAction
  | pressEditKey
  | tickEditMode
  | resetView
  | zoom (zoomIn : Bool)
  | onSelection (a : SelectionAction)
  | enableAll

/-- What happens in a window: a frame of the canvas, a click in the panel, or the listing of events. -/
inductive ViewerStep
  | frame (i : CanvasInput)
  | panel (a : PanelAction)
  | collect

def SelectionAction.call? (selected : String) : SelectionAction → Option (EngineInput Float)
  | .enable => some .enableSelected
  | .disable => some .disableSelected
  | .disableAncestors => some .disableAncestors
  | .setStatus status => if status.isEmpty then none else some (.setStatus status)
  | .center => some (.selectAndCenter selected)

namespace Viewer

/-- The view is reset to the canvas of the last frame. Nothing is offered for no selection. -/
def panelCall? (v : Viewer) : PanelAction → Option (EngineInput Float)
  | .pressEditKey => some .toggleEditMode
  | .tickEditMode => some (.setEditMode !v.engine.pointer.editMode)
  | .resetView => some (.fit (toDouble v.canvasSize.x) (toDouble v.canvasSize.y))
  | .zoom zoomIn => some (.clickZoom zoomIn)
  | .onSelection a => v.engine.selectedId?.bind a.call?
  | .enableAll => some .enableAll

def ask? (v : Viewer) : Option (EngineInput Float) → Option Viewer
  | some i => v.feed? i
  | none => some v

def next? (clock : Clock) (v : Viewer) : ViewerStep → Option Viewer
  | .frame i => v.frame? i
  | .panel a => v.ask? (v.panelCall? a)
  | .collect => v.collect? clock

def run? (clock : Clock) (v : Viewer) (steps : List ViewerStep) : Option Viewer :=
  steps.foldlM (next? clock) v

end Viewer

end Diagram
