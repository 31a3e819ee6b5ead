import Diagram.Proofs.Engine.Effects
import Diagram.Proofs.Engine.Loading
import Diagram.Proofs.Zooming

namespace Diagram

open Relation

theorem foldlM_concat {β γ : Type} {f : γ → β → Option γ} {xs : List β} {x : β} {s s' : γ}
    (h : (xs ++ [x]).foldlM f s = some s') : ∃ m, xs.foldlM f s = some m ∧ f m x = some s' := by
  rw [List.foldlM_append, Option.bind_eq_bind, Option.bind_eq_some_iff] at h
  obtain ⟨m, hm, h⟩ := h
  refine ⟨m, hm, ?_⟩
  simpa only [List.foldlM_cons, List.foldlM_nil, Option.bind_eq_bind, bind_pure] using h

theorem foldlM_steps {β γ : Type} {P : γ → Prop} {f : γ → β → Option γ} {xs : List β} {s s' : γ}
    (h : xs.foldlM f s = some s') (start : P s)
    (step : ∀ {m m' : γ}, ∀ x ∈ xs, f m x = some m' → P m → P m') : P s' := by
  induction xs generalizing s with
  | nil =>
    cases h
    exact start
  | cons x xs ih =>
    rw [List.foldlM_cons, Option.bind_eq_bind, Option.bind_eq_some_iff] at h
    obtain ⟨m, hm, h⟩ := h
    refine ih h (step x List.mem_cons_self hm start) fun {k k'} y hy hk ↦ ?_
    exact step y (List.mem_cons_of_mem x hy) hk

theorem foldlM_total {β γ : Type} {P : γ → Prop} {f : γ → β → Option γ} {xs : List β}
    (step : ∀ {s : γ}, ∀ x ∈ xs, P s → ∃ s', f s x = some s' ∧ P s') {s : γ} (hs : P s) :
    ∃ s', xs.foldlM f s = some s' ∧ P s' := by
  induction xs generalizing s with
  | nil => exact ⟨s, rfl, hs⟩
  | cons x xs ih =>
    obtain ⟨m, hm, hp⟩ := step x List.mem_cons_self hs
    obtain ⟨s', h, hp'⟩ := ih (fun y hy ↦ step y (List.mem_cons_of_mem x hy)) hp
    refine ⟨s', ?_, hp'⟩
    rw [List.foldlM_cons, hm]
    exact h

variable {α : Type} [Arith α]

theorem Slider.moveTo?_eq_none_iff (s : Slider α) (position : α) :
    s.moveTo? position = none ↔ ¬ 1.0 ≤ s.track.length := by
  simp only [moveTo?, Arith.clamp?]
  split
  · next h => simp [h]
  · next h => simp [h]

theorem Slider.moveTo?_some {s s' : Slider α} {position : α} (h : s.moveTo? position = some s') :
    s' = { s with position := s'.position } := by
  simp only [moveTo?, Option.bind_eq_bind, Option.bind_eq_some_iff] at h
  obtain ⟨x, -, h⟩ := h
  cases h
  rfl

theorem Pointer.move_slider_iff (p : Pointer α) (here : Point α) :
    (∃ d, (p.move here).1 = some (.sliderMoved d)) ↔ ∃ y, p.gesture = .draggingSlider y := by
  simp only [move]
  cases p.gesture with
  | pressed intent target =>
    by_cases hz : (here - p.last).isZero
    · simp [hz]
    · cases intent <;> simp [hz]
  | _ => simp

/-- Any input but a turn of the wheel by the number of notches that has no negation. -/
def EngineInput.Negatable : EngineInput α → Prop
  | wheel notches _ => notches ≠ Int32.minValue
  | _ => True

namespace Engine

variable {e e' : Engine α} {inputs : List (EngineInput α)}

theorem run?_cons (e : Engine α) (i : EngineInput α) (inputs : List (EngineInput α)) :
    e.run? (i :: inputs) = e.next? i >>= fun m ↦ m.run? inputs := List.foldlM_cons

theorem run?_append (e : Engine α) (inputs inputs' : List (EngineInput α)) :
    e.run? (inputs ++ inputs') = e.run? inputs >>= fun m ↦ m.run? inputs' := List.foldlM_append

theorem run?_cons_of_next {i : EngineInput α} (h : e.next? i = some e')
    (inputs : List (EngineInput α)) : e.run? (i :: inputs) = e'.run? inputs := by
  rw [run?_cons, h]
  rfl

theorem run?_append_of_run (h : e.run? inputs = some e') (inputs' : List (EngineInput α)) :
    e.run? (inputs ++ inputs') = e'.run? inputs' := by
  rw [run?_append, h]
  rfl

theorem run_effects (h : e.run? inputs = some e') : ReflTransGen Effect e e' := by
  induction inputs generalizing e with
  | nil =>
    cases h
    exact .refl
  | cons i inputs ih =>
    rw [run?_cons, Option.bind_eq_bind, Option.bind_eq_some_iff] at h
    obtain ⟨m, hm, h⟩ := h
    exact (next_effects hm).trans (ih h)

theorem effects_induct {P : Engine α → Prop} (h : ReflTransGen Effect e e') (start : P e)
    (step : ∀ {m m' : Engine α}, Effect m m' → P m → P m') : P e' := by
  induction h with
  | refl => exact start
  | tail _ hm ih => exact step hm ih

theorem run_induct {P : Engine α → Prop} (h : e.run? inputs = some e') (start : P e)
    (step : ∀ {m m' : Engine α}, Effect m m' → P m → P m') : P e' :=
  effects_induct (run_effects h) start step

theorem run_steps {P : Engine α → Prop} (h : e.run? inputs = some e') (start : P e)
    (step : ∀ {m m' : Engine α}, ∀ i ∈ inputs, m.next? i = some m' → P m → P m') : P e' :=
  foldlM_steps h start step

theorem run_total {P : Engine α → Prop}
    (step : ∀ {m : Engine α}, ∀ i ∈ inputs, P m → ∃ m', m.next? i = some m' ∧ P m') (start : P e) :
    ∃ e', e.run? inputs = some e' ∧ P e' := foldlM_total step start

theorem run_reachable (h : e.run? inputs = some e') (hr : e.scene.Reachable e.config.metrics) :
    e'.config = e.config ∧ e'.scene.Reachable e.config.metrics := by
  refine run_induct (P := fun m ↦ m.config = e.config ∧ m.scene.Reachable e.config.metrics) h
    ⟨rfl, hr⟩ fun {m m'} hm hr ↦ ?_
  cases hm with
  | load hs => exact ⟨hr.1, hr.1 ▸ sceneOf_reachable hs⟩
  | edit x => exact ⟨hr.1, hr.2.edit x⟩
  | rezoom hz => cases hz <;> exact hr
  | _ => exact hr

theorem run_scene {c : Config α} (h : (create c).run? inputs = some e) :
    e.config = c ∧ e.scene.Reachable c.metrics :=
  run_reachable h (Scene.reachable_empty c.metrics 0)

/-- An engine that goes by a configuration. Its scene can be made with the metrics of that. -/
structure Configured (c : Config α) (e : Engine α) : Prop where
  config_eq : e.config = c
  policy_eq : e.viewport.policy = c.zoom
  track_eq : e.slider.track = c.slider
  reachable : e.scene.Reachable c.metrics

theorem configured_create (c : Config α) : (create c).Configured c :=
  ⟨rfl, rfl, rfl, Scene.reachable_empty c.metrics 0⟩

theorem Effect.configured {c : Config α} (h : Effect e e') (he : e.Configured c) :
    e'.Configured c := by
  obtain ⟨hc, hp, ht, hr⟩ := he
  cases h with
  | load hs => exact ⟨hc, hp, ht, hc ▸ sceneOf_reachable hs⟩
  | edit x => exact ⟨hc, hp, ht, hr.edit x⟩
  | rezoom hz =>
    cases hz with
    | fit width height hf => exact ⟨hc, hp, ht, hr⟩
    | wheel focus _ hz =>
      refine ⟨hc, ?_, ht, hr⟩
      rw [Viewport.zoomAt, hz]
      exact hp
    | drag hm => exact ⟨hc, hp, (congrArg Slider.track (Slider.moveTo?_some hm)).trans ht, hr⟩
    | place hm => exact ⟨hc, hp, (congrArg Slider.track (Slider.moveTo?_some hm)).trans ht, hr⟩
  | _ => exact ⟨hc, hp, ht, hr⟩

theorem run_configured {c : Config α} (h : (create c).run? inputs = some e) : e.Configured c :=
  run_induct h (configured_create c) Effect.configured

theorem load_reachable {graph : Payload α} (h : e.load graph = .ok e') :
    e'.scene.Reachable e'.config.metrics := by
  obtain ⟨scene, hs, h⟩ := bind_ok h
  cases h
  exact (sceneOf_reachable hs :)

/-- Where an input has no outcome: the handle has no place on the track, a fit has no scale, or a turn of
the wheel no factor. -/
def Stuck (e : Engine α) : EngineInput α → Prop
  | .fit _ _ => e.scene.bounds.isEmpty = false ∧
    ¬ e.viewport.policy.minFitScale ≤ e.viewport.policy.maxFitScale
  | .move _ => (∃ y, e.pointer.gesture = .draggingSlider y) ∧ ¬ 1.0 ≤ e.slider.track.length
  | .clickSlider _ | .clickZoom _ => ¬ 1.0 ≤ e.slider.track.length
  | .wheel notches _ => e.pointer.inside = true ∧ notches = Int32.minValue
  | _ => False

theorem fit?_eq_none_iff (e : Engine α) (width height : α) :
    e.fit? width height = none ↔ e.Stuck (.fit width height) := by
  simp only [fit?, Viewport.fit?, Viewport.fitScale?, Arith.clamp?, Stuck]
  cases e.scene.bounds.isEmpty with
  | true => simp
  | false =>
    by_cases h : e.viewport.policy.minFitScale ≤ e.viewport.policy.maxFitScale
    · simp [h]
    · simp [h]

def Bars (e : Engine α) : PointerAction α → Prop
  | .sliderMoved _ => ¬ 1.0 ≤ e.slider.track.length
  | .zoom notches _ => notches = Int32.minValue
  | _ => False

theorem perform?_eq_none_iff (e : Engine α) (a : PointerAction α) :
    e.perform? a = none ↔ e.Bars a := by
  cases a with
  | sliderMoved d =>
    simp only [perform?, Slider.dragBy?, bind_pure_comp, Option.map_eq_map, Option.map_eq_none_iff,
      Slider.moveTo?_eq_none_iff, Bars]
  | select id => simp [perform_select, Bars]
  | zoom notches focus =>
    rw [perform?, Bars, ← e.viewport.wheelFactor?_eq_none_iff notches]
    cases e.viewport.wheelFactor? notches with
    | none => exact iff_of_true rfl rfl
    | some factor =>
      refine iff_of_false ?_ (Option.some_ne_none factor)
      simp only [Option.bind_eq_bind, Option.bind_some]
      split
      · exact Option.some_ne_none _
      · exact Option.some_ne_none _
  | _ => simp [perform?, Bars]

theorem actOn?_eq_none_iff (e : Engine α) (a : Option (PointerAction α)) :
    e.actOn? a = none ↔ ∃ x ∈ a, e.Bars x := by
  cases a with
  | none => simp [actOn?]
  | some a =>
    simp only [actOn?, bind_pure_comp, Option.map_eq_map, Option.map_eq_none_iff,
      perform?_eq_none_iff, Option.mem_some_iff, exists_eq_left']

theorem next?_eq_none_iff (e : Engine α) (i : EngineInput α) : e.next? i = none ↔ e.Stuck i := by
  rw [next?, Option.map_eq_map, Option.map_eq_none_iff]
  cases i with
  | load graph =>
    simp only [step?, Stuck]
    split <;> simp
  | fit width height =>
    simp only [step?, bind_pure_comp, Option.map_eq_map, Option.map_eq_none_iff, fit?_eq_none_iff]
  | clickSlider position =>
    simp only [step?, clickSlider?, bind_pure_comp, Option.map_eq_map, Option.map_eq_none_iff,
      Slider.moveTo?_eq_none_iff, Stuck]
  | clickZoom zoomIn =>
    simp only [step?, clickZoom?, Slider.step?, bind_pure_comp, Option.map_eq_map,
      Option.map_eq_none_iff, Slider.moveTo?_eq_none_iff, Stuck]
  | move screen =>
    simp only [step?, actOn?_eq_none_iff, Stuck, ← Pointer.move_slider_iff _ screen]
    obtain hm | ⟨d, hm⟩ | ⟨d, hm⟩ | ⟨y, hm, -⟩ := e.pointer.move_cases screen <;> simp [hm, Bars]
  | release =>
    simp only [step?, actOn?_eq_none_iff, Stuck]
    obtain hr | ⟨hr, -⟩ | ⟨_, _, hr, -⟩ := e.pointer.release_cases <;> simp [hr, Bars]
  | wheel notches focus =>
    simp only [step?, actOn?_eq_none_iff, Stuck]
    cases hin : e.pointer.inside with
    | false => simp [Pointer.wheel, hin]
    | true =>
      by_cases hn : notches = 0
      · have hmin : (0 : Int32) ≠ Int32.minValue := by decide
        simp [Pointer.wheel, hin, hn, hmin]
      · simp [Pointer.wheel, hin, hn, Bars]
  | _ => simp [step?, Stuck]

end Engine

end Diagram
