import Diagram.Engine.Display
import Diagram.Viewer.Shape

namespace Diagram

structure CanvasInput where
  canvas : PixelRect
  hovered : Bool
  pressed : Bool
  released : Bool
  pointer : Option PixelPoint
  scroll : Float32

structure Viewer where
  display : Display Float
  fitted : Bool
  canvasSize : PixelPoint
  inside : Bool
  lines : List String

namespace Viewer

def ownSlot : Nat := 0

def maxLines : Nat := 50

def ofEngine (e : Engine Float) : Viewer :=
  ⟨(Display.unattached e).attach ownSlot, false, .origin, false, []⟩

def withGraph (config : Config Float) (graph : Payload Float) : Except SceneError Viewer :=
  ofEngine <$> Engine.withGraph config graph

def engine (v : Viewer) : Engine Float := v.display.engine

def input? (v : Viewer) (i : DisplayInput Float) : Option (Reply × Viewer) := do
  let (reply, display) ← v.display.step? i
  return (reply, { v with display })

def feed? (v : Viewer) (i : EngineInput Float) : Option Viewer := Prod.snd <$> v.input? (.engine i)

def pushLine (lines : List String) (line : String) : List String :=
  let lines := lines ++ [line]
  if maxLines < lines.length then lines.tail else lines

def collect? (clock : Clock) (v : Viewer) : Option Viewer := do
  let (entries, _) := v.engine.scene.drain
  return { ← v.feed? .drain with lines := (entries.toList.map clock.line).foldl pushLine v.lines }

def track (v : Viewer) (canvas : PixelRect) : PixelRect :=
  sliderTrack canvas v.engine.slider.track.length

def handle (v : Viewer) (canvas : PixelRect) : PixelRect :=
  sliderHandle (v.track canvas) v.engine.slider.normalized

/-- Fits the diagram into the first canvas that has an area, and later only follows its size. -/
def settle? (v : Viewer) (size : PixelPoint) : Option Viewer := do
  let width := toDouble size.x
  let height := toDouble size.y
  let v ←
    if !v.fitted && decide (0.0 < size.x) && decide (0.0 < size.y) then do
      let v ← v.feed? (.fit width height)
      pure { v with fitted := true }
    else if size.x == v.canvasSize.x && size.y == v.canvasSize.y then pure v
    else v.feed? (.resize width height)
  return { v with canvasSize := size }

def notice? (v : Viewer) (hovered : Bool) : Option Viewer :=
  if hovered == v.inside then some v
  else do
    let v ← v.feed? (if hovered then .enterSurface else .leaveSurface)
    return { v with inside := hovered }

/-- A press on the handle grabs it, one on the track or close beside it moves it there, and any other
goes to the diagram. -/
def pressAt (v : Viewer) (canvas : PixelRect) (p : PixelPoint) : EngineInput Float :=
  let track := v.track canvas
  if (v.handle canvas).contains p then .grabSlider (canvas.toLocal p)
  else if (track.expand ⟨6.0, 0.0⟩).contains p then .clickSlider (toDouble (p.y - track.least.y))
  else .press (canvas.toLocal p)

def isIdle (v : Viewer) : Bool := v.engine.pointer.gesture.isIdle

/-- What the pointer does at its position: it hovers while nothing goes on, is pressed, and drags. -/
def pointerAt? (v : Viewer) (i : CanvasInput) (p : PixelPoint) : Option Viewer := do
  let here := i.canvas.toLocal p
  let v ← if i.hovered && v.isIdle then v.feed? (.hover here) else pure v
  let v ← if i.pressed && i.hovered then v.feed? (v.pressAt i.canvas p) else pure v
  if v.isIdle then return v else v.feed? (.move here)

def scrollAt? (v : Viewer) (i : CanvasInput) (p : PixelPoint) : Option Viewer :=
  if i.scroll == 0.0 then some v
  else v.feed? (.wheel (if 0.0 < i.scroll then 1 else -1) (i.canvas.toLocal p))

def frame? (v : Viewer) (i : CanvasInput) : Option Viewer := do
  let v ← v.settle? i.canvas.size
  let v ← v.notice? i.hovered
  let v ← i.pointer.elim (pure v) (v.pointerAt? i)
  let v ← if i.released then v.feed? .release else pure v
  i.pointer.elim (pure v) (v.scrollAt? i)

def paint (mixing : ColorMixing) (v : Viewer) (canvas : PixelRect) : Option (List Shape) :=
  (v.display.slot ownSlot).frame.map fun f =>
    f.shapes mixing canvas ++ sliderShapes canvas v.engine.slider.track.length f

end Viewer

end Diagram
