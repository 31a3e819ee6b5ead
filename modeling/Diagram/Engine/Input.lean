import Diagram.Engine.Basic

namespace Diagram

inductive EngineInput (α : Type)
  | load (graph : Payload α)
  | resize (width height : α)
  | fit (width height : α)
  | select (id : String)
  | selectAndCenter (id : String)
  | clearSelection
  | enterNode (id : String)
  | leaveNode (id : String)
  | hover (screen : Point α)
  | enterSurface
  | leaveSurface
  | press (screen : Point α)
  | move (screen : Point α)
  | release
  | wheel (notches : Int32) (focus : Point α)
  | grabSlider (screen : Point α)
  | clickSlider (position : α)
  | clickZoom (zoomIn : Bool)
  | setEditMode (editMode : Bool)
  | toggleEditMode
  | setEnabled (ids : List String) (enabled : Bool)
  | enableSelected
  | disableSelected
  | disableAncestors
  | enableAll
  | setStatus (status : String)
  | drain

inductive Reply
  | done
  | answer (b : Bool)
  | failed (e : SceneError)
  deriving DecidableEq

structure Outcome (α : Type) where
  engine : Engine α
  reply : Reply := .done
  redraws : Bool

namespace Engine

variable {α : Type} [Arith α]

def redrawn (e : Engine α) (reply : Reply := .done) : Outcome α := ⟨e, reply, true⟩

def unseen (e : Engine α) (reply : Reply := .done) : Outcome α := ⟨e, reply, false⟩

def actOn? (e : Engine α) : Option (PointerAction α) → Option (Outcome α)
  | none => some e.unseen
  | some action => do return (← e.perform? action).redrawn

/-- A selection that fails is told and changes nothing. -/
def selection (e : Engine α) : Except SceneError (Engine α) → Outcome α
  | .ok e => e.redrawn (.answer true)
  | .error _ => e.unseen (.answer false)

/-- There is no outcome where a range that a value has to be brought into is none, or a number has no
negation. -/
def step? (e : Engine α) : EngineInput α → Option (Outcome α)
  | .load graph =>
    match e.load graph with
    | .ok e => some e.redrawn
    | .error err => some (e.unseen (.failed err))
  | .resize width height => some (e.resize width height).unseen
  | .fit width height => do return (← e.fit? width height).redrawn
  | .select id => some (e.selection (e.select id))
  | .selectAndCenter id => some (e.selection (e.selectAndCenter id))
  | .clearSelection => some (e.onScene Scene.clearSelection).redrawn
  | .enterNode id => some (e.enterNode id).unseen
  | .leaveNode id => some (e.leaveNode id).unseen
  | .hover screen => some (e.hoverAt screen).unseen
  | .enterSurface => some (e.setInside true).unseen
  | .leaveSurface => some (e.setInside false).unseen
  | .press screen => some { e with pointer := e.pointer.press screen e.scene }.unseen
  | .move screen =>
    let (action, pointer) := e.pointer.move screen
    { e with pointer }.actOn? action
  | .release =>
    let (action, pointer) := e.pointer.release
    { e with pointer }.actOn? action
  | .wheel notches focus => e.actOn? (e.pointer.wheel notches focus)
  | .grabSlider screen => some (e.grabSlider screen).unseen
  | .clickSlider position => do return (← e.clickSlider? position).redrawn
  | .clickZoom zoomIn => do return (← e.clickZoom? zoomIn).redrawn
  | .setEditMode editMode => some (e.setEditMode editMode).redrawn
  | .toggleEditMode =>
    let editMode := !e.pointer.editMode
    some ((e.setEditMode editMode).redrawn (.answer editMode))
  | .setEnabled ids enabled => some (e.onScene (·.setEnabled ids enabled)).redrawn
  | .enableSelected => some (e.onScene (·.setSelectionEnabled true)).redrawn
  | .disableSelected => some (e.onScene (·.setSelectionEnabled false)).redrawn
  | .disableAncestors => some (e.onScene Scene.disableAncestors).redrawn
  | .enableAll => some (e.onScene Scene.enableAll).redrawn
  | .setStatus status => some (e.onScene (·.setStatus status)).redrawn
  | .drain => some (e.onScene (·.drain.2)).unseen

def next? (e : Engine α) (i : EngineInput α) : Option (Engine α) := Outcome.engine <$> e.step? i

def run? (e : Engine α) (inputs : List (EngineInput α)) : Option (Engine α) := inputs.foldlM next? e

end Engine

end Diagram
