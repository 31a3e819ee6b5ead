import Diagram.Proofs.Engine.Loading
import Diagram.Proofs.Engine.Responding

namespace Diagram

variable {α : Type}

def EngineInput.isButton : EngineInput α → Bool
  | press _ | grabSlider _ | release => true
  | _ => false

namespace Engine

variable [Arith α] {e : Engine α} {i : EngineInput α}

theorem gesture_pointerAfter (hb : i.isButton = false) (hm : ∀ p, i ≠ .move p)
    (hl : ∀ g, i ≠ .load g) : (e.pointerAfter i).gesture = e.pointer.gesture := by
  cases i with
  | load g => exact absurd rfl (hl g)
  | move p => exact absurd rfl (hm p)
  | press _ | grabSlider _ | release => cases hb
  | enterNode id =>
    simp only [pointerAfter]
    split <;> rfl
  | leaveNode id =>
    rw [pointerAfter, Pointer.leave_eq]
  | _ => rfl

theorem gesture_pointerAfter_load (e : Engine α) (g : Payload α) :
    (e.pointerAfter (.load g)).gesture = .idle ∨
      (e.pointerAfter (.load g)).gesture = e.pointer.gesture := by
  simp only [pointerAfter]
  split
  · exact .inl rfl
  · exact .inr rfl

theorem pointerAfter_load (e : Engine α) {g : Payload α} (h : g.Loadable) :
    e.pointerAfter (.load g) = .resting e.pointer.editMode := by
  obtain ⟨s, hs, -⟩ := e.sceneOf_loadable h
  simp only [pointerAfter, hs]

theorem pointerAfter_refused (e : Engine α) {g : Payload α} (h : ¬ g.Loadable) :
    e.pointerAfter (.load g) = e.pointer := by
  obtain ⟨err, hf⟩ := Payload.exists_fault h
  simp only [pointerAfter, sceneOf_fault hf]

theorem next_release_pressed {intent : DragIntent} {target : Option String}
    (hg : e.pointer.gesture = .pressed intent target) :
    e.next? .release = some { e with
      pointer := { e.pointer with gesture := .idle }
      scene := target.elim e.scene fun id ↦ e.scene.edit (.select id) } := by
  cases target with
  | none =>
    simp only [next?, step?, Pointer.release, hg]
    rfl
  | some id =>
    simp only [next?, step?, Pointer.release, hg, actOn?, perform_select]
    rfl

end Engine

end Diagram
