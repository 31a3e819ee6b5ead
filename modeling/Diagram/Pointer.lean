import Diagram.Scene.Selection

namespace Diagram

inductive DragIntent
  | pan
  | moveSelection
  deriving DecidableEq

inductive Gesture (α : Type)
  | idle
  /-- The button is down, nothing has moved yet, and the pointer went down over the target. -/
  | pressed (intent : DragIntent) (target : Option String)
  | panning
  | draggingNode
  | draggingSlider (originY : α)

namespace Gesture

variable {α : Type}

def isIdle : Gesture α → Bool
  | idle => true
  | _ => false

end Gesture

inductive PointerAction (α : Type)
  | pan (delta : Offset α)
  | dragSelection (delta : Offset α)
  /-- The handle is this far from where it was grabbed. -/
  | sliderMoved (delta : α)
  | sliderReleased
  | select (id : String)
  | zoom (notches : Int32) (focus : Point α)

structure Pointer (α : Type) where
  gesture : Gesture α
  editMode : Bool
  hovered : Option String
  last : Point α
  inside : Bool

namespace Pointer

variable {α : Type} [Arith α]

def resting (editMode : Bool) : Pointer α := ⟨.idle, editMode, none, .origin, false⟩

def enter (p : Pointer α) (id : String) : Pointer α := { p with hovered := some id }

def leave (p : Pointer α) (id : String) : Pointer α :=
  if p.hovered == some id then { p with hovered := none } else p

/-- A selected node can be dragged in edit mode; whatever else is pressed drags the view. -/
def intent (p : Pointer α) (s : Scene α) : DragIntent :=
  if p.editMode && p.hovered.any s.isSelected then .moveSelection else .pan

def press (p : Pointer α) (at' : Point α) (s : Scene α) : Pointer α :=
  { p with gesture := .pressed (p.intent s) p.hovered, last := at' }

def pressSlider (p : Pointer α) (at' : Point α) : Pointer α :=
  { p with gesture := .draggingSlider at'.y, last := at' }

/-- A pressed button starts to drag with the first move that leads elsewhere. -/
def move (p : Pointer α) (here : Point α) : Option (PointerAction α) × Pointer α :=
  let delta := here - p.last
  let moved := { p with last := here }
  match p.gesture with
  | .idle => (none, moved)
  | .pressed intent _ =>
    if delta.isZero then (none, p)
    else
      match intent with
      | .pan => (some (.pan delta), { moved with gesture := .panning })
      | .moveSelection => (some (.dragSelection delta), { moved with gesture := .draggingNode })
  | .panning => (some (.pan delta), moved)
  | .draggingNode => (some (.dragSelection delta), moved)
  | .draggingSlider originY => (some (.sliderMoved (here.y - originY)), moved)

def release (p : Pointer α) : Option (PointerAction α) × Pointer α :=
  let rest := { p with gesture := .idle }
  match p.gesture with
  | .pressed _ (some id) => (some (.select id), rest)
  | .draggingSlider _ => (some .sliderReleased, rest)
  | _ => (none, rest)

def wheel (p : Pointer α) (notches : Int32) (focus : Point α) : Option (PointerAction α) :=
  if !p.inside || notches == 0 then none else some (.zoom notches focus)

end Pointer

end Diagram
