import Diagram.Proofs.Zooming
import Diagram.Proofs.Engine.Runs

namespace Diagram

open Relation

variable {α : Type}

namespace Engine

section Inputs

variable [Arith α] {e e' : Engine α} {i : EngineInput α}

/-- Whether an input finds another zoom: something to fit, a turn of the wheel that is not refused, or
a place for the handle of the slider. -/
def SetsZoom (e : Engine α) : EngineInput α → Prop
  | .fit _ _ => e.scene.bounds.isEmpty = false
  | .wheel notches _ => e.pointer.inside = true ∧ notches ≠ 0 ∧
    ∃ factor, e.viewport.wheelFactor? notches = some factor ∧ e.viewport.refuses factor = false
  | .move _ => ∃ y, e.pointer.gesture = .draggingSlider y
  | .clickSlider _ | .clickZoom _ => True
  | _ => False

theorem Rezoom.point (h : Rezoom e e') (pointer : Pointer α) :
    Rezoom { e with pointer } { e' with pointer } := by
  cases h with
  | fit width height hf => exact .fit (e := { e with pointer }) width height hf
  | wheel focus hf hr => exact .wheel (e := { e with pointer }) focus hf hr
  | drag hm => exact .drag (e := { e with pointer }) hm
  | place hm => exact .place (e := { e with pointer }) hm

theorem next_rezoom (hi : e.SetsZoom i) (h : e.next? i = some e') :
    ∃ m, ReflTransGen Effect e m ∧ Rezoom m e' := by
  obtain ⟨redraws, k, hk, rfl⟩ := next_leads h
  cases hk with
  | idle hidle =>
    cases i with
    | move screen =>
      obtain ⟨d, hd⟩ := (e.pointer.move_slider_iff screen).mpr hi
      cases hidle.symm.trans hd
    | wheel notches focus =>
      have hw : e.pointer.wheel notches focus = none := hidle
      simp [Pointer.wheel, hi.1, hi.2.1] at hw
    | fit _ _ | clickSlider _ | clickZoom _ => exact hidle.elim
    | _ => exact hi.elim
  | widen _ _ hb => exact absurd (hb.symm.trans hi) Bool.noConfusion
  | refuse hf hr =>
    obtain ⟨-, -, factor, hf', hr'⟩ := hi
    cases hf.symm.trans hf'
    exact absurd (hr.symm.trans hr') Bool.noConfusion
  | @fit width height scale _ hf =>
    exact ⟨_, .tail (.single (.resize ⟨width, height⟩)) (.point _),
      (Rezoom.fit (e := e.resize width height) width height hf).point _⟩
  | turn _ _ hf hr => exact ⟨_, .single (.point _), (Rezoom.wheel _ hf hr).point _⟩
  | slide _ hm => exact ⟨_, .single (.point _), (Rezoom.drag hm).point _⟩
  | place _ hm => exact ⟨_, .single (.point _), (Rezoom.place hm).point _⟩
  | pan hm | drag hm =>
    obtain ⟨d, hd⟩ := (e.pointer.move_slider_iff _).mpr hi
    cases hm.symm.trans hd
  | mode hm => cases i <;> first | exact hi.elim | cases hm
  | edit hx => cases i <;> first | exact hi.elim | cases hx
  | _ => exact hi.elim

end Inputs

section Exact

variable [ExactArith α] {c : Config α} {e e' : Engine α} {i : EngineInput α}

structure Zoomable (c : Config α) (e : Engine α) : Prop where
  policy_eq : e.viewport.policy = c.zoom
  track_eq : e.slider.track = c.slider
  scale_pos : 0 < e.viewport.scale

theorem zoomable_create (c : Config α) : (create c).Zoomable c := by
  refine ⟨rfl, rfl, ?_⟩
  simp [create, Viewport.unmoved, Viewport.scale, Transform.identity]

theorem Zoomable.zoomToPercent (hz : c.zoom.Proper) (ht : c.slider.Proper) (he : e.Zoomable c)
    {slider : Slider α} {position : α} (hm : e.slider.moveTo? position = some slider) :
    slider.track = c.slider ∧ 0 < (e.viewport.zoomToPercent slider.percent e.area).scale ∧
      Mirrors slider (e.viewport.zoomToPercent slider.percent e.area) := by
  have hp : e.viewport.policy.Proper := he.policy_eq ▸ hz
  have hl : 1 ≤ e.slider.track.length := he.track_eq ▸ ht.one_le_length
  obtain ⟨htrack, h₀, h₁⟩ := Slider.moveTo_mem hl hm
  have hst : slider.track = c.slider := htrack.trans he.track_eq
  have hproper : slider.track.Proper := hst ▸ ht
  have hs := he.scale_pos.ne'
  have hpos := (Slider.percent_mem hproper h₀ h₁).1
  exact ⟨hst, Viewport.scale_zoomToPercent_pos hp.minZoom_nonneg hp.minZoom_lt hs hpos e.area,
    mirrors_zoomToPercent hproper h₀ h₁ hp hs e.area⟩

theorem Rezoom.zoomable (hz : c.zoom.Proper) (ht : c.slider.Proper) (h : Rezoom e e')
    (he : e.Zoomable c) : e'.Zoomable c := by
  have hp : e.viewport.policy.Proper := he.policy_eq ▸ hz
  cases h with
  | fit width height hf => exact ⟨he.policy_eq, he.track_eq, Viewport.fitScale_pos hp hf⟩
  | @wheel notches factor focus hf hr =>
    refine ⟨(Viewport.policy_zoomAt _ _ _).trans he.policy_eq, he.track_eq, ?_⟩
    have hs : 0 < (e.viewport.zoomAt factor focus).scale := by
      rw [Viewport.scale_zoomAt hr]
      exact mul_pos (Viewport.wheelFactor?_pos hp hf) he.scale_pos
    exact hs
  | drag hm =>
    obtain ⟨htrack, hs, -⟩ := he.zoomToPercent hz ht hm
    exact ⟨he.policy_eq, htrack, hs⟩
  | place hm =>
    obtain ⟨htrack, hs, -⟩ := he.zoomToPercent hz ht hm
    exact ⟨he.policy_eq, htrack, hs⟩

theorem Effect.zoomable (hz : c.zoom.Proper) (ht : c.slider.Proper) (h : Effect e e')
    (he : e.Zoomable c) : e'.Zoomable c := by
  cases h with
  | rezoom h => exact h.zoomable hz ht he
  | pan d => exact ⟨he.policy_eq, he.track_eq, (Viewport.scale_pan e.viewport d).symm ▸ he.scale_pos⟩
  | center p => exact ⟨he.policy_eq, he.track_eq, he.scale_pos⟩
  | _ => exact ⟨he.policy_eq, he.track_eq, he.scale_pos⟩

theorem Zoomable.effects (hz : c.zoom.Proper) (ht : c.slider.Proper) (he : e.Zoomable c)
    (h : ReflTransGen Effect e e') : e'.Zoomable c :=
  effects_induct h he fun hm hc ↦ hm.zoomable hz ht hc

theorem Zoomable.next (hz : c.zoom.Proper) (ht : c.slider.Proper) (he : e.Zoomable c)
    (hi : i.Negatable) : ∃ e', e.next? i = some e' ∧ e'.Zoomable c := by
  have hlen : 1 ≤ e.slider.track.length := he.track_eq ▸ ht.one_le_length
  have hl := ExactArith.one_eq.trans_le hlen
  have hf : e.viewport.policy.minFitScale ≤ e.viewport.policy.maxFitScale :=
    he.policy_eq ▸ hz.minFitScale_le
  have hs : ¬ e.Stuck i := by
    intro h
    cases i with
    | fit width height => exact h.2 hf
    | move screen => exact h.2 hl
    | clickSlider position => exact h hl
    | clickZoom zoomIn => exact h hl
    | wheel notches focus => exact hi h.2
    | _ => exact h.elim
  rw [← next?_eq_none_iff, ← ne_eq, Option.ne_none_iff_exists'] at hs
  obtain ⟨e', h⟩ := hs
  exact ⟨e', h, he.effects hz ht (next_effects h)⟩

theorem SetsZoom.negatable (h : e.SetsZoom i) : i.Negatable := by
  cases i with
  | wheel notches focus =>
    obtain ⟨-, -, factor, hf, -⟩ := h
    rintro rfl
    rw [(e.viewport.wheelFactor?_eq_none_iff _).mpr rfl] at hf
    cases hf
  | _ => exact trivial

end Exact

section Roots

variable [ExactRoots α] {c : Config α} {e e' : Engine α}

theorem Rezoom.mirrors (hz : c.zoom.Proper) (ht : c.slider.Proper) (h : Rezoom e e')
    (he : e.Zoomable c) : Mirrors e'.slider e'.viewport := by
  have hl : 0 < e.slider.track.length := he.track_eq ▸ zero_lt_one.trans_le ht.one_le_length
  cases h with
  | fit width height hf => exact (mirrors_sync hl _).congr rfl rfl rfl rfl
  | wheel focus hf hr => exact (mirrors_sync hl _).congr rfl rfl rfl rfl
  | drag hm => exact (he.zoomToPercent hz ht hm).2.2
  | place hm => exact (he.zoomToPercent hz ht hm).2.2.congr rfl rfl rfl rfl

theorem Effect.mirrors (hz : c.zoom.Proper) (ht : c.slider.Proper) (h : Effect e e')
    (he : e.Zoomable c) (hm : Mirrors e.slider e.viewport) : Mirrors e'.slider e'.viewport := by
  cases h with
  | rezoom h => exact h.mirrors hz ht he
  | pan d => exact hm.congr rfl rfl rfl (Viewport.scale_pan e.viewport d)
  | center p => exact hm.congr rfl rfl rfl rfl
  | grab => exact hm.congr rfl rfl rfl rfl
  | release => exact hm.congr rfl rfl rfl rfl
  | _ => exact hm

/-- Once the zoom has been set, the handle of the slider and the scale stay with one another, whatever
else happens. -/
theorem slider_mirrors_zoom (hz : c.zoom.Proper) (ht : c.slider.Proper)
    {pre post : List (EngineInput α)} {i : EngineInput α} (h : (create c).run? pre = some e)
    (hi : e.SetsZoom i) :
    (∀ e', e.run? (i :: post) = some e' → Mirrors e'.slider e'.viewport) ∧
      ((∀ j ∈ post, j.Negatable) → ∃ e', e.run? (i :: post) = some e') := by
  have he : e.Zoomable c := (zoomable_create c).effects hz ht (run_effects h)
  obtain ⟨m, hm, hmz⟩ := he.next hz ht hi.negatable
  have hcons := run?_cons_of_next hm post
  constructor
  · intro e' he'
    obtain ⟨k, hk, hr⟩ := next_rezoom hi hm
    have hmirror : Mirrors m.slider m.viewport := hr.mirrors hz ht (he.effects hz ht hk)
    exact (run_induct (P := fun m ↦ m.Zoomable c ∧ Mirrors m.slider m.viewport) (hcons ▸ he')
      ⟨hmz, hmirror⟩ fun hx hc ↦ ⟨hx.zoomable hz ht hc.1, hx.mirrors hz ht hc.1 hc.2⟩).2
  · intro hn
    obtain ⟨e', he', -⟩ := run_total (fun j hj hc ↦ Zoomable.next hz ht hc (hn j hj)) hmz
    exact ⟨e', hcons.trans he'⟩

theorem slider_mirrors_zoom_standard :
    (ZoomPolicy.standard : ZoomPolicy ℝ).Proper ∧ (SliderTrack.standard : SliderTrack ℝ).Proper ∧
      ∃ e' : Engine ℝ, (create .standard).run?
        [.enterSurface, .wheel 1 .origin, .press .origin, .move ⟨3, 4⟩] = some e' ∧
          Mirrors e'.slider e'.viewport := by
  have hz : (ZoomPolicy.standard : ZoomPolicy ℝ).Proper := ZoomPolicy.proper_standard
  have ht : (SliderTrack.standard : SliderTrack ℝ).Proper := SliderTrack.proper_standard
  let e : Engine ℝ := (create .standard).setInside true
  have h : (create .standard).run? [.enterSurface] = some e := rfl
  have hi : e.SetsZoom (.wheel 1 .origin) :=
    ⟨rfl, by decide, _, Viewport.wheelFactor?_one _, Viewport.refuses_standard _⟩
  have hrun : ∃ e', e.run? (.wheel 1 .origin :: [.press .origin, .move ⟨3, 4⟩]) = some e' :=
    (slider_mirrors_zoom hz ht h hi).2 (by simp [EngineInput.Negatable])
  obtain ⟨e', he'⟩ := hrun
  exact ⟨hz, ht, e', he', (slider_mirrors_zoom hz ht h hi).1 e' he'⟩

end Roots

end Engine

end Diagram
