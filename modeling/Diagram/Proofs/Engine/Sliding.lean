import Diagram.Proofs.Engine.Dragging

namespace Diagram

variable {α : Type}

def slideThrough (p₀ : Point α) (path : List (Point α)) : List (EngineInput α) :=
  .grabSlider p₀ :: (path.map .move ++ [.release])

variable [ExactArith α]

namespace Viewport

variable {v : Viewport α}

theorem zoomToPercent_zoomToPercent {percent : α} {size : Size α} (hs : v.scale ≠ 0)
    (hp : (v.zoomToPercent percent size).scale ≠ 0) (percent' : α) :
    (v.zoomToPercent percent size).zoomToPercent percent' size = v.zoomToPercent percent' size := by
  rw [zoomToPercent, scale_setScaleAt hs] at hp
  exact setScaleAt_setScaleAt hs hp _ size.center

theorem toModel_zoomToPercent {percent : α} {size : Size α} (hs : v.scale ≠ 0)
    (hp : (v.zoomToPercent percent size).scale ≠ 0) :
    (v.zoomToPercent percent size).toModel size.center = v.toModel size.center := by
  have hcenter : (v.zoomToPercent percent size).toScreen (v.toModel size.center) = size.center := by
    have hfix : v.toScreen (v.toModel size.center) = size.center :=
      Transform.apply_invert hs size.center
    rw [zoomToPercent, ← take.eq_3, toScreen_take, hfix, image_focus rfl]
  have hback : (v.zoomToPercent percent size).toModel
      ((v.zoomToPercent percent size).toScreen (v.toModel size.center)) = v.toModel size.center :=
    Transform.invert_apply hp _
  rwa [hcenter] at hback

end Viewport

namespace Slider

def dragged (s : Slider α) (d : α) : Slider α :=
  { s.grab with position := max 1 (min (s.position + d) s.track.length) }

variable {s : Slider α}

theorem dragBy_grab (hl : 1 ≤ s.track.length) (d : α) : s.grab.dragBy? d = some (s.dragged d) :=
  moveTo_eq (s := s.grab) hl (s.position + d)

/-- Each move puts the handle where it would be without the moves before it. -/
theorem dragBy_dragged (hl : 1 ≤ s.track.length) (d d' : α) :
    (s.dragged d).dragBy? d' = some (s.dragged d') :=
  moveTo_eq (s := s.dragged d) hl (s.position + d')

theorem percent_dragged_pos (ht : s.track.Proper) (d : α) : 0 < (s.dragged d).percent := by
  have h₀ : 0 ≤ (s.dragged d).position := zero_le_one.trans (le_max_left _ _)
  have h₁ : (s.dragged d).position ≤ s.track.length := max_le ht.one_le_length (min_le_right _ _)
  exact (percent_mem (s := s.dragged d) ht h₀ h₁).1

end Slider

namespace Engine

/-- An engine whose slider always leaves a positive scale. -/
structure Slidable (e : Engine α) : Prop where
  track : e.slider.track.Proper
  minZoom_nonneg : 0 ≤ e.viewport.policy.minZoom
  minZoom_lt : e.viewport.policy.minZoom < e.viewport.policy.maxZoom
  scale_pos : 0 < e.viewport.scale

variable {e : Engine α}

def sliding (e : Engine α) (p₀ q : Point α) : Engine α :=
  let slider := e.slider.dragged (q.y - p₀.y)
  { e with
    slider
    viewport := e.viewport.zoomToPercent slider.percent e.area
    pointer := { e.pointer with gesture := .draggingSlider p₀.y, last := q } }

structure Slid (e : Engine α) (d : α) (e' : Engine α) : Prop where
  track_eq : e'.slider.track = e.slider.track
  position_eq : e'.slider.position = max 1 (min (e.slider.position + d) e.slider.track.length)
  baseline_eq : e'.slider.baseline = e'.slider.position
  grabbed_eq : e'.slider.grabbed = false
  scale_eq : e'.viewport.scale = e.viewport.policy.minZoom +
    (e.viewport.policy.maxZoom - e.viewport.policy.minZoom) * e'.slider.percent ^ 2
  center_eq : e'.viewport.toModel e.area.center = e.viewport.toModel e.area.center

theorem next_grabbed (hl : 1 ≤ e.slider.track.length) (p₀ q : Point α) :
    (e.grabSlider p₀).next? (.move q) = some (e.sliding p₀ q) := by
  have hdrag : (e.grabSlider p₀).slider.dragBy? (q.y - p₀.y) = _ := Slider.dragBy_grab hl _
  have hg : (e.grabSlider p₀).pointer.gesture = .draggingSlider p₀.y := rfl
  simp only [next?, step?, Pointer.move, hg, actOn?, perform?, hdrag]
  rfl

theorem scale_sliding_pos (he : e.Slidable) (p₀ q : Point α) :
    0 < (e.sliding p₀ q).viewport.scale :=
  Viewport.scale_zoomToPercent_pos he.minZoom_nonneg he.minZoom_lt he.scale_pos.ne'
    (Slider.percent_dragged_pos he.track _) e.area

theorem next_sliding (he : e.Slidable) (p₀ q r : Point α) :
    (e.sliding p₀ q).next? (.move r) = some (e.sliding p₀ r) := by
  have hdrag : (e.sliding p₀ q).slider.dragBy? (r.y - p₀.y) = _ :=
    Slider.dragBy_dragged he.track.one_le_length _ _
  have hg : (e.sliding p₀ q).pointer.gesture = .draggingSlider p₀.y := rfl
  let viewport :=
    (e.sliding p₀ q).viewport.zoomToPercent (e.slider.dragged (r.y - p₀.y)).percent e.area
  -- Both scales are set around the center of the area, so that only the second one is seen.
  have hzoom : viewport = (e.sliding p₀ r).viewport :=
    Viewport.zoomToPercent_zoomToPercent he.scale_pos.ne' (scale_sliding_pos he p₀ q).ne' _
  have hnext : (e.sliding p₀ q).next? (.move r) = some { e.sliding p₀ r with viewport } := by
    simp only [next?, step?, Pointer.move, hg, actOn?, perform?, hdrag]
    rfl
  rw [hnext, hzoom]

theorem run_slideThrough (he : e.Slidable) (p₀ pₙ : Point α) (path : List (Point α)) :
    e.run? (slideThrough p₀ (path ++ [pₙ])) = (e.sliding p₀ pₙ).next? .release := by
  have hgrab : e.next? (.grabSlider p₀) = some (e.grabSlider p₀) := rfl
  have hmoves : (e.grabSlider p₀).run? ((path ++ [pₙ]).map .move) = some (e.sliding p₀ pₙ) := by
    cases path with
    | nil =>
      have hfirst := next_grabbed (e := e) he.track.one_le_length p₀ pₙ
      rw [List.nil_append, List.map_singleton, run?_cons_of_next hfirst]
      rfl
    | cons q path =>
      have hfirst := next_grabbed (e := e) he.track.one_le_length p₀ q
      rw [List.cons_append, List.map_cons, run?_cons_of_next hfirst,
        run_moves (next_sliding he p₀), List.getLastD_concat]
  rw [slideThrough, run?_cons_of_next hgrab, run?_append_of_run hmoves, run?_cons]
  exact bind_pure _

/-- Where a drag of the slider leaves the handle and the view depends on its last point alone, also
when it went past an end of the track before. -/
theorem slide_path_independent (he : e.Slidable) (p₀ pₙ : Point α) :
    ∃ e', (∀ path, e.run? (slideThrough p₀ (path ++ [pₙ])) = some e') ∧
      e.Slid (pₙ.y - p₀.y) e' := by
  let e' : Engine α := { e.sliding p₀ pₙ with
    slider := (e.sliding p₀ pₙ).slider.release
    pointer := { (e.sliding p₀ pₙ).pointer with gesture := .idle } }
  have hrelease : (e.sliding p₀ pₙ).next? .release = some e' := rfl
  have hpos := scale_sliding_pos he p₀ pₙ
  refine ⟨e', fun path ↦ ?_, rfl, rfl, rfl, rfl, ?_, ?_⟩
  · rw [run_slideThrough he, hrelease]
  · exact Viewport.scale_zoomToPercent he.scale_pos.ne' _ e.area
  · exact Viewport.toModel_zoomToPercent he.scale_pos.ne' hpos.ne'

theorem slide_path_independent_overshoot : (create .standard : Engine ℝ).Slidable ∧
    ∃ e' : Engine ℝ, (create .standard).run?
      (slideThrough ⟨5, 100⟩ [⟨5, 900⟩, ⟨5, -900⟩, ⟨5, 40⟩]) = some e' ∧
        (create .standard).Slid (40 - 100) e' ∧ e'.slider.position = 140 := by
  have hz : (ZoomPolicy.standard : ZoomPolicy ℝ).Proper := ZoomPolicy.proper_standard
  have hs : (0 : ℝ) < (Viewport.unmoved .standard).scale := by
    have hone : (Viewport.unmoved .standard : Viewport ℝ).scale = 1 := ExactArith.one_eq
    rw [hone]
    exact one_pos
  have he : (create .standard : Engine ℝ).Slidable :=
    ⟨SliderTrack.proper_standard, hz.minZoom_nonneg, hz.minZoom_lt, hs⟩
  obtain ⟨e', hrun, hslid⟩ := slide_path_independent he ⟨5, 100⟩ ⟨5, 40⟩
  have hlength : (SliderTrack.standard : SliderTrack ℝ).length = 200 := by
    simp only [SliderTrack.standard, ExactArith.ofScientific_eq]
    norm_num
  have hposition : e'.slider.position = 140 := by
    have hmoved : e'.slider.position = max 1 (min ((SliderTrack.standard : SliderTrack ℝ).length +
        (40 - 100)) (SliderTrack.standard : SliderTrack ℝ).length) := hslid.position_eq
    rw [hmoved, hlength]
    norm_num
  exact ⟨he, e', hrun [⟨5, 900⟩, ⟨5, -900⟩], hslid, hposition⟩

end Engine

end Diagram
