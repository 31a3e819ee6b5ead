import Diagram.Viewer.Basic

namespace Diagram

inductive WindowEvent
  | moved (p : PixelPoint)
  | pressed (p : PixelPoint)
  | released (p : PixelPoint)
  | scrolled (distance : Float32)

namespace WindowEvent

def position? : WindowEvent → Option PixelPoint
  | .moved p | .pressed p | .released p => some p
  | .scrolled _ => none

def isPress : WindowEvent → Bool
  | .pressed _ => true
  | _ => false

def isRelease : WindowEvent → Bool
  | .released _ => true
  | _ => false

def scroll : WindowEvent → Float32
  | .scrolled d => d
  | _ => 0.0

end WindowEvent

structure Window where
  pointer : Option PixelPoint
  /-- Before its first frame a window cannot tell where the canvas is. -/
  started : Bool

namespace Window

def closed : Window := ⟨none, false⟩

def frame (w : Window) (canvas : PixelRect) (events : List WindowEvent) : CanvasInput × Window :=
  let pointer := events.foldl (fun p e => e.position?.or p) w.pointer
  ({ canvas
     hovered := w.started && pointer.any canvas.contains
     pressed := events.any WindowEvent.isPress
     released := events.any WindowEvent.isRelease
     pointer
     scroll := events.foldl (fun s e => s + e.scroll) 0.0 },
    ⟨pointer, true⟩)

end Window

end Diagram
