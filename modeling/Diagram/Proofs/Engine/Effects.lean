import Diagram.Proofs.Engine.Responding
import Mathlib.Logic.Relation

namespace Diagram

open Relation

variable {α : Type} [Arith α]

namespace Engine

/-- What sets the zoom. The handle of the slider and the scale then follow one another. -/
inductive Rezoom (e : Engine α) : Engine α → Prop
  | fit {scale : α} (width height : α)
      (hf : Viewport.fitScale? e.viewport.policy e.scene.bounds.height height = some scale) :
      Rezoom e { e with viewport := e.viewport.fitted e.scene.bounds width scale }.syncSlider
  | wheel {notches : Int32} {factor : α} (focus : Point α)
      (hf : e.viewport.wheelFactor? notches = some factor)
      (hr : e.viewport.refuses factor = false) :
      Rezoom e { e with viewport := e.viewport.zoomAt factor focus }.syncSlider
  | drag {delta : α} {slider : Slider α} (hm : e.slider.dragBy? delta = some slider) :
      Rezoom e { e with slider, viewport := e.viewport.zoomToPercent slider.percent e.area }
  | place {position : α} {slider : Slider α} (hm : e.slider.moveTo? position = some slider) :
      Rezoom e (e.placeSlider slider)

/-- What can happen to an engine at once. An input leads to a few of these, one after the other. -/
inductive Effect (e : Engine α) : Engine α → Prop
  | point (pointer : Pointer α) : Effect e { e with pointer }
  | resize (area : Size α) : Effect e { e with area }
  | load {graph : Payload α} {scene : Scene α} (hs : e.sceneOf graph = .ok scene) :
      Effect e { e with scene }
  | edit (x : SceneEdit α) : Effect e { e with scene := e.scene.edit x }
  | pan (d : Offset α) : Effect e { e with viewport := e.viewport.pan d }
  | center (p : Point α) : Effect e { e with viewport := e.viewport.centerOn p e.area }
  | grab : Effect e { e with slider := e.slider.grab }
  | release : Effect e { e with slider := e.slider.release }
  | rezoom {e' : Engine α} (hz : Rezoom e e') : Effect e e'

variable {e e' : Engine α} {i : EngineInput α}

theorem Response.effects {redraws : Bool} (h : Response e i redraws e') :
    ReflTransGen Effect e e' := by
  cases h with
  | idle _ | mode _ | refuse _ _ => exact .refl
  | load hs => exact .single (.load hs)
  | resize width height | widen width height _ => exact .single (.resize ⟨width, height⟩)
  | fit _ hf => exact .tail (.single (.resize _)) (.rezoom (.fit _ _ hf))
  | select hs => exact .single (Scene.edit_select hs ▸ .edit (.select _))
  | @center id scene viewport hs hv =>
    have hm : Effect e { e with scene } := Scene.edit_select hs ▸ .edit (.select id)
    obtain rfl | ⟨p, rfl⟩ := hv
    · exact .single hm
    · exact .tail (.single hm) (.center p)
  | pan _ => exact .single (.pan _)
  | drag _ => exact .single (.edit (.moveSelected _))
  | slide _ hm => exact .single (.rezoom (.drag hm))
  | letGo _ => exact .single .release
  | click _ => exact .single (.edit (.select _))
  | turn _ _ hf hr => exact .single (.rezoom (.wheel _ hf hr))
  | grab _ => exact .single .grab
  | place _ hm => exact .single (.rezoom (.place hm))
  | edit _ => exact .single (.edit _)
  | drain => exact .single (.edit .drain)

theorem next_effects (h : e.next? i = some e') : ReflTransGen Effect e e' := by
  obtain ⟨redraws, m, hm, rfl⟩ := next_leads h
  exact hm.effects.tail (.point _)

end Engine

end Diagram
