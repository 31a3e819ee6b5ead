import Diagram.Proofs.Engine.Pointing
import Diagram.Proofs.Engine.Runs
import Mathlib.Data.List.Induction

namespace Diagram

variable {α : Type}

def EngineInput.notice? : EngineInput α → Option Bool
  | .enterSurface => some true
  | .leaveSurface => some false
  | _ => none

def latestNotice? (inputs : List (EngineInput α)) : Option Bool :=
  (inputs.filterMap EngineInput.notice?).getLast?

/-- A graph was loaded, and nothing has been told of the pointer since. -/
def LoadedSince (inputs : List (EngineInput α)) : Prop :=
  ∃ pre i post, inputs = pre ++ i :: post ∧ i.Loads ∧ ∀ j ∈ post, j.notice? = none

variable {i : EngineInput α} {inputs : List (EngineInput α)}

theorem latestNotice?_concat (inputs : List (EngineInput α)) (i : EngineInput α) :
    latestNotice? (inputs ++ [i]) = i.notice?.or (latestNotice? inputs) := by
  rw [latestNotice?, List.filterMap_append, List.getLast?_append]
  cases hi : i.notice? with
  | none => rw [List.filterMap_cons_none hi]; rfl
  | some b => rw [List.filterMap_cons_some hi]; rfl

theorem loadedSince_concat (inputs : List (EngineInput α)) (i : EngineInput α) :
    LoadedSince (inputs ++ [i]) ↔ i.Loads ∨ i.notice? = none ∧ LoadedSince inputs := by
  constructor
  · rintro ⟨pre, x, post, heq, hx, hpost⟩
    -- The load is either the last input or one of those before.
    rcases List.eq_nil_or_concat post with rfl | ⟨post, y, rfl⟩
    · obtain ⟨-, hi⟩ := List.append_inj' heq rfl
      rw [List.singleton_inj] at hi
      exact .inl (hi ▸ hx)
    · rw [List.concat_eq_append, ← List.cons_append, ← List.append_assoc] at heq
      obtain ⟨hinputs, hi⟩ := List.append_inj' heq rfl
      rw [List.singleton_inj] at hi
      subst hi
      refine .inr ⟨hpost i (by simp), pre, x, post, hinputs, hx, fun j hj ↦ ?_⟩
      exact hpost j (by simp [hj])
  · rintro (hi | ⟨hi, pre, x, post, rfl, hx, hpost⟩)
    · exact ⟨inputs, i, [], rfl, hi, nofun⟩
    · refine ⟨pre, x, post ++ [i], by simp, hx, fun j hj ↦ ?_⟩
      rcases List.mem_append.mp hj with hj | hj
      · exact hpost j hj
      · exact List.mem_singleton.mp hj ▸ hi

variable [Arith α]

namespace Engine

variable {e e' : Engine α}

theorem inside_of_loads (hl : i.Loads) : (e.pointerAfter i).inside = false := by
  cases i with
  | load g =>
    rw [pointerAfter_load e hl]
    rfl
  | _ => exact hl.elim

theorem inside_pointerAfter (hl : ¬ i.Loads) :
    (e.pointerAfter i).inside = i.notice?.getD e.pointer.inside := by
  cases i with
  | load g =>
    rw [pointerAfter_refused e hl]
    rfl
  | enterNode id =>
    simp only [pointerAfter]
    split <;> rfl
  | leaveNode id =>
    rw [pointerAfter, Pointer.leave_eq]
    rfl
  | move screen =>
    obtain ⟨gesture, last, hm⟩ := e.pointer.move_snd screen
    rw [pointerAfter, hm]
    rfl
  | release =>
    rw [pointerAfter, Pointer.release_snd]
    rfl
  | _ => rfl

theorem run_inside {start : Engine α} (hs : start.pointer.inside = false)
    (h : start.run? inputs = some e) :
    e.pointer.inside = true ↔ latestNotice? inputs = some true ∧ ¬ LoadedSince inputs := by
  induction inputs using List.reverseRecOn generalizing e with
  | nil =>
    cases h
    simp [hs, latestNotice?]
  | append_singleton inputs i ih =>
    obtain ⟨m, hm, hi⟩ := foldlM_concat h
    rw [next_pointer hi, latestNotice?_concat, loadedSince_concat]
    by_cases hl : i.Loads
    · simp [inside_of_loads hl, hl]
    · rw [inside_pointerAfter hl]
      cases hn : i.notice? with
      | none => simpa [hl] using ih hm
      | some b => simp [hl]

theorem step_wheel {notches : Int32} (hn : notches ≠ 0) (focus : Point α) :
    (e.pointer.inside = true →
      e.step? (.wheel notches focus) = (e.perform? (.zoom notches focus)).map fun m ↦ m.redrawn) ∧
    (e.pointer.inside = false → e.step? (.wheel notches focus) = some e.unseen) := by
  constructor
  · intro hin
    have ha : e.pointer.wheel notches focus = some (.zoom notches focus) := by
      simp [Pointer.wheel, hin, hn]
    simp only [step?, ha, actOn?, bind_pure_comp, Option.map_eq_map]
  · intro hin
    have ha : e.pointer.wheel notches focus = none := by simp [Pointer.wheel, hin]
    rw [step?, ha]
    rfl

/-- The wheel turns exactly while the latest that was told of the pointer is that it came in, as long as
no graph has been loaded since. -/
theorem wheel_follows_pointer {c : Config α} (h : (create c).run? inputs = some e) :
    (e.pointer.inside = true ↔ latestNotice? inputs = some true ∧ ¬ LoadedSince inputs) ∧
    ∀ notches : Int32, notches ≠ 0 → ∀ focus : Point α,
      (e.pointer.inside = true →
        e.step? (.wheel notches focus) = (e.perform? (.zoom notches focus)).map fun m ↦ m.redrawn) ∧
      (e.pointer.inside = false → e.step? (.wheel notches focus) = some e.unseen) :=
  ⟨run_inside rfl h, fun _ hn focus ↦ step_wheel hn focus⟩

theorem wheel_follows_pointer_refused : ∃ e : Engine Float,
    (create .standard).run? [.enterSurface, .load ⟨[], [⟨"a", "a", "ready"⟩]⟩] = some e ∧
      ∀ focus, e.step? (.wheel (-2) focus) =
        (e.perform? (.zoom (-2) focus)).map fun m ↦ m.redrawn := by
  have hg : ¬ Payload.Loadable (α := Float) ⟨[], [⟨"a", "a", "ready"⟩]⟩ := by decide
  let e : Engine Float := (create .standard).setInside true
  have hin : (create .standard).next? .enterSurface = some e := rfl
  have h : (create .standard).run? [.enterSurface, .load ⟨[], [⟨"a", "a", "ready"⟩]⟩] = some e := by
    rw [run?_cons_of_next hin, run?_cons_of_next (e.next_refused hg)]
    rfl
  exact ⟨e, h, fun focus ↦ ((wheel_follows_pointer h).2 (-2) (by decide) focus).1 rfl⟩

/-- After a load the wheel stands still, though the pointer came in and has not left. -/
theorem load_forgets_pointer : ∃ e : Engine Float,
    (create .standard).run? [.enterSurface, .load ⟨[], []⟩] = some e ∧
      latestNotice? [.enterSurface, .load (⟨[], []⟩ : Payload Float)] = some true ∧
      e.pointer.inside = false ∧ ∀ focus, e.step? (.wheel 1 focus) = some e.unseen := by
  have hg : Payload.Loadable (α := Float) ⟨[], []⟩ := by decide
  let m : Engine Float := (create .standard).setInside true
  have henter : (create .standard).next? .enterSurface = some m := rfl
  obtain ⟨e, he, -⟩ := m.load_loadable hg
  have hload := next_load he
  have h : (create .standard).run? [.enterSurface, .load ⟨[], []⟩] = some e := by
    rw [run?_cons_of_next henter, run?_cons_of_next hload]
    rfl
  have hin : e.pointer.inside = false := by
    rw [next_pointer hload]
    exact inside_of_loads (i := .load _) hg
  exact ⟨e, h, rfl, hin, fun focus ↦ (step_wheel (by decide) focus).2 hin⟩

end Engine

end Diagram
