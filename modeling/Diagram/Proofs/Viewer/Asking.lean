import Diagram.Proofs.Engine.Checking
import Diagram.Proofs.Engine.Noticing
import Diagram.Viewer.Panel

namespace Diagram

variable {α : Type}

namespace EngineInput

def size? : EngineInput α → Option (Size α)
  | resize width height | fit width height => some ⟨width, height⟩
  | _ => none

def isFit : EngineInput α → Bool
  | fit _ _ => true
  | _ => false

def presses : EngineInput α → Bool
  | press _ | grabSlider _ => true
  | _ => false

end EngineInput

namespace Engine

variable [Arith α] {e e' : Engine α} {x : EngineInput α}

theorem size?_of_idles (h : e.Idles x) : x.size? = none := by
  cases x with
  | resize _ _ | fit _ _ => exact h.elim
  | _ => rfl

theorem next_area (h : e.next? x = some e') : e'.area = x.size?.getD e.area := by
  obtain ⟨redraws, m, hm, rfl⟩ := next_leads h
  cases hm with
  | idle hi =>
    rw [size?_of_idles hi]
    rfl
  | mode hi => cases x <;> first | rfl | cases hi
  | place hi _ => cases x <;> first | rfl | cases hi
  | edit hx => cases x <;> first | rfl | cases hx
  | _ => rfl

theorem rests_of_next (hx : x.presses = false) (h : e.next? x = some e')
    (hg : e.pointer.gesture = .idle) : e'.pointer.gesture = .idle := by
  rw [next_pointer h]
  cases x with
  | load graph => exact (e.gesture_pointerAfter_load graph).elim id fun hs ↦ hs.trans hg
  | move screen => simp only [pointerAfter, Pointer.move, hg]
  | release => rw [pointerAfter, Pointer.release_snd]
  | press _ | grabSlider _ => cases hx
  | _ => exact (gesture_pointerAfter rfl (by simp) (by simp)).trans hg

theorem rests_of_release (h : e.next? .release = some e') : e'.pointer.gesture = .idle := by
  rw [next_pointer h, pointerAfter, Pointer.release_snd]

end Engine

namespace Viewer

variable {v v' : Viewer} {call : Option (EngineInput Float)}

theorem feed?_eq (v : Viewer) (x : EngineInput Float) :
    v.feed? x = (v.display.next? (.engine x)).map fun display ↦ { v with display } := by
  simp only [feed?, input?, Display.next?, Option.map_eq_map, bind_pure_comp, Option.map_map]
  rfl

theorem feed_next {x : EngineInput Float} (h : v.feed? x = some v') :
    v' = { v with display := v'.display } ∧ v.engine.next? x = some v'.engine := by
  rw [feed?_eq, Option.map_eq_some_iff] at h
  obtain ⟨d, hd, rfl⟩ := h
  obtain ⟨o, ho, hd⟩ := Display.next_engine hd
  have hengine : d.engine = o.engine := by
    rw [hd]
    split
    · exact Display.engine_present _
    · rfl
  refine ⟨rfl, ?_⟩
  rw [Engine.next?, engine, ho]
  exact congrArg some hengine.symm

theorem ask_eq (h : v.ask? call = some v') : v' = { v with display := v'.display } := by
  cases call with
  | none =>
    cases h
    rfl
  | some x => exact (feed_next h).1

theorem ask_run (h : v.ask? call = some v') : v.engine.run? call.toList = some v'.engine := by
  cases call with
  | none =>
    cases h
    rfl
  | some x =>
    rw [Option.toList_some, Engine.run?_cons_of_next (feed_next h).2]
    rfl

theorem ask_area (h : v.ask? call = some v') :
    v'.engine.area = (call.bind EngineInput.size?).getD v.engine.area := by
  cases call with
  | none =>
    cases h
    rfl
  | some x => exact Engine.next_area (feed_next h).2

theorem ask_inside (hl : ∀ x ∈ call, ¬ x.Loads) (h : v.ask? call = some v') :
    v'.engine.pointer.inside = (call.bind EngineInput.notice?).getD v.engine.pointer.inside := by
  cases call with
  | none =>
    cases h
    rfl
  | some x =>
    rw [Engine.next_pointer (feed_next h).2]
    exact Engine.inside_pointerAfter (hl x rfl)

theorem ask_rests (hx : ∀ x ∈ call, x.presses = false) (h : v.ask? call = some v')
    (hg : v.engine.pointer.gesture = .idle) : v'.engine.pointer.gesture = .idle := by
  cases call with
  | none =>
    cases h
    exact hg
  | some x => exact Engine.rests_of_next (hx x rfl) (feed_next h).2 hg

end Viewer

end Diagram
