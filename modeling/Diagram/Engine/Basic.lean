import Diagram.Frame
import Diagram.Payload.Basic
import Diagram.Pointer
import Diagram.Scene.Enabling
import Diagram.Slider
import Diagram.Viewport

namespace Diagram

structure Engine (α : Type) where
  config : Config α
  scene : Scene α
  viewport : Viewport α
  slider : Slider α
  pointer : Pointer α
  /-- The size of the drawing area, which zooming with the slider and centering go by. -/
  area : Size α

namespace Engine

variable {α : Type} [Arith α]

def create (config : Config α) : Engine α where
  config := config
  scene := .empty config.metrics
  viewport := .unmoved config.zoom
  slider := .atBottom config.slider
  pointer := .resting config.editMode
  area := .zero

/-- The scene of a graph, whose nodes with a terminal status are disabled. The clock goes on. -/
def sceneOf (e : Engine α) (graph : Payload α) : Except SceneError (Scene α) := do
  let s ← graph.nodes.foldlM
    (fun s n => Prod.snd <$> s.addNode n.id n.shownLabel ⟨n.x, n.y⟩ n.status)
    (Scene.empty e.config.metrics e.scene.log.readings)
  let s ← graph.edges.foldlM (fun s e => Prod.snd <$> s.addEdge e.source e.target e.status) s
  let done := (s.nodes.toList.filter fun n => e.config.isTerminal n.status).map Node.id
  return s.setEnabled done false

/-- Shows another graph, with the pointer at rest. A graph with an error changes nothing. -/
def load (e : Engine α) (graph : Payload α) : Except SceneError (Engine α) := do
  let scene ← e.sceneOf graph
  return { e with scene, pointer := .resting e.pointer.editMode }

def withGraph (config : Config α) (graph : Payload α) : Except SceneError (Engine α) :=
  (create config).load graph

def resize (e : Engine α) (width height : α) : Engine α := { e with area := ⟨width, height⟩ }

/-- The handle goes where the scale is, as if it had been let go there. -/
def syncSlider (e : Engine α) : Engine α :=
  { e with slider := (e.slider.sync e.viewport.zoomPercent).release }

/-- Fits the diagram into an area. The bounds are those of the loaded graph. -/
def fit? (e : Engine α) (width height : α) : Option (Engine α) := do
  let (viewport, fitted) ← e.viewport.fit? e.scene.bounds width height
  let e := { e.resize width height with viewport }
  return if fitted then e.syncSlider else e

def nodeAt? (e : Engine α) (screen : Point α) : Option String :=
  (e.scene.nodeAt? (e.viewport.toModel screen)).map Node.id

def select (e : Engine α) (id : String) : Except SceneError (Engine α) := do
  return { e with scene := ← e.scene.select id }

def selectAndCenter (e : Engine α) (id : String) : Except SceneError (Engine α) := do
  let e ← e.select id
  match e.scene.node? id with
  | some n => return { e with viewport := e.viewport.centerOn n.position e.area }
  | none => return e

def enterNode (e : Engine α) (id : String) : Engine α :=
  if (e.scene.handle? id).isSome then { e with pointer := e.pointer.enter id } else e

def leaveNode (e : Engine α) (id : String) : Engine α := { e with pointer := e.pointer.leave id }

def hoverAt (e : Engine α) (screen : Point α) : Engine α :=
  let hit := e.nodeAt? screen
  match e.pointer.hovered, hit with
  | some old, some new =>
    if old == new then e else { e with pointer := (e.pointer.leave old).enter new }
  | some old, none => { e with pointer := e.pointer.leave old }
  | none, some new => { e with pointer := e.pointer.enter new }
  | none, none => e

def setInside (e : Engine α) (inside : Bool) : Engine α :=
  { e with pointer := { e.pointer with inside } }

/-- Does what the pointer asks for. The slider can only move on a track that is long enough, and the
wheel only turn by notches that have a factor. -/
def perform? (e : Engine α) : PointerAction α → Option (Engine α)
  | .pan delta => some { e with viewport := e.viewport.pan delta }
  | .dragSelection delta =>
    let scale := e.viewport.scale
    some { e with scene := e.scene.moveSelected ⟨delta.x / scale, delta.y / scale⟩ }
  | .sliderMoved delta => do
    let slider ← e.slider.dragBy? delta
    return { e with slider, viewport := e.viewport.zoomToPercent slider.percent e.area }
  | .sliderReleased => some { e with slider := e.slider.release }
  | .select id =>
    match e.select id with
    | .ok e => some e
    | .error _ => some e
  | .zoom notches focus => do
    let factor ← e.viewport.wheelFactor? notches
    if e.viewport.refuses factor then return e
    else return { e with viewport := e.viewport.zoomAt factor focus }.syncSlider

def placeSlider (e : Engine α) (slider : Slider α) : Engine α :=
  { e with
    slider := slider.release
    viewport := e.viewport.zoomToPercent slider.percent e.area }

def clickSlider? (e : Engine α) (position : α) : Option (Engine α) := do
  return e.placeSlider (← e.slider.moveTo? position)

def clickZoom? (e : Engine α) (zoomIn : Bool) : Option (Engine α) := do
  return e.placeSlider (← e.slider.step? (if zoomIn then -1.0 else 1.0))

def grabSlider (e : Engine α) (screen : Point α) : Engine α :=
  { e with slider := e.slider.grab, pointer := e.pointer.pressSlider screen }

def setEditMode (e : Engine α) (editMode : Bool) : Engine α :=
  { e with pointer := { e.pointer with editMode } }

def onScene (e : Engine α) (f : Scene α → Scene α) : Engine α := { e with scene := f e.scene }

def selectedId? (e : Engine α) : Option String := e.scene.selectedId?

def render (e : Engine α) : Frame α :=
  { Frame.ofScene e.scene e.viewport.transform e.config.palette with
    slider := e.slider.normalized
    editMode := e.pointer.editMode }

end Engine

end Diagram
