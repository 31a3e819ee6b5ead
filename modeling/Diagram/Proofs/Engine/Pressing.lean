import Diagram.Proofs.Engine.Fitting
import Diagram.Proofs.Engine.Mirroring
import Diagram.Proofs.Engine.Scaling
import Diagram.Proofs.Engine.Sliding

namespace Diagram

variable {α : Type}

section Exact

variable [ExactArith α]

def ZoomPolicy.scaleAt (p : ZoomPolicy α) (percent : α) : α :=
  p.minZoom + (p.maxZoom - p.minZoom) * percent ^ 2

/-- The percentage where the handle is as far up as it can be dragged. -/
def SliderTrack.topPercent (t : SliderTrack α) : α := 1 - 1 / t.length

/-- A track whose bottom does not stand for more than its top. -/
structure SliderTrack.Ascending (t : SliderTrack α) : Prop extends t.Proper where
  minPercent_le_top : t.minPercent ≤ t.topPercent

theorem Transform.zoom_one (t : Transform α) (focus : Point α) : t.zoom 1 focus = t := by
  ext <;> simp only [zoom, next, scalingAbout] <;> ring

namespace SliderTrack

theorem length_standard : (standard : SliderTrack α).length = 200 := by
  simp only [standard, ExactArith.ofScientific_eq]
  norm_num

theorem ascending_standard : (standard : SliderTrack α).Ascending := by
  refine ⟨proper_standard, ?_⟩
  simp only [topPercent, standard, ExactArith.ofScientific_eq]
  norm_num

variable {t : SliderTrack α}

theorem Ascending.topPercent_mem (ht : t.Ascending) : 0 < t.topPercent ∧ t.topPercent < 1 := by
  have hl : 0 < t.length := zero_lt_one.trans_le ht.one_le_length
  exact ⟨ht.minPercent_pos.trans_le ht.minPercent_le_top, sub_lt_self 1 (one_div_pos.mpr hl)⟩

end SliderTrack

namespace ZoomPolicy

theorem zoom_standard : (standard : ZoomPolicy α).minZoom = 1 / 5 ∧
    (standard : ZoomPolicy α).maxZoom = 10 ∧ (standard : ZoomPolicy α).wheelIn = 21 / 20 ∧
    (standard : ZoomPolicy α).minFitScale = 3 / 5 ∧ (standard : ZoomPolicy α).maxFitScale = 2 := by
  simp only [standard, ExactArith.ofScientific_eq]
  norm_num

theorem scaleAt_standard :
    (standard : ZoomPolicy α).scaleAt (SliderTrack.standard : SliderTrack α).topPercent =
      1980449 / 200000 ∧
    (standard : ZoomPolicy α).scaleAt (SliderTrack.standard : SliderTrack α).minPercent =
      1 / 5 + 49 / 5 * (1 / 10000) ^ 2 := by
  simp only [scaleAt, SliderTrack.topPercent, standard, SliderTrack.standard,
    ExactArith.ofScientific_eq]
  norm_num

end ZoomPolicy

namespace Viewport

variable {v : Viewport α}

theorem lt_zoomPercent_iff (hz : v.policy.minZoom < v.policy.maxZoom) {percent : α}
    (h₀ : 0 ≤ percent) (h₁ : percent < 1) :
    percent ^ 2 < v.zoomPercent ↔ v.policy.scaleAt percent < v.scale := by
  have hsq : percent ^ 2 < 1 := pow_lt_one₀ h₀ h₁ two_ne_zero
  rw [zoomPercent_eq, lt_max_iff, or_iff_right (sq_nonneg percent).not_gt, lt_min_iff,
    and_iff_left hsq, zoomSpan, lt_div_iff₀ (sub_pos.mpr hz), lt_sub_iff_add_lt',
    mul_comm (percent ^ 2), ZoomPolicy.scaleAt]

theorem scale_eq_of_zoomPercent (hz : v.policy.minZoom < v.policy.maxZoom) {percent : α}
    (hp : v.zoomPercent = percent ^ 2) (h₀ : 0 < v.zoomPercent) (h₁ : v.zoomPercent < 1) :
    v.scale = v.policy.scaleAt percent := by
  have hfrac : v.zoomPercent = (v.scale - v.policy.minZoom) / v.zoomSpan := by
    rw [zoomPercent_eq] at h₀ h₁ ⊢
    have hpos := (lt_max_iff.mp h₀).resolve_left (lt_irrefl 0)
    rw [max_eq_right hpos.le] at h₁ ⊢
    exact min_eq_left ((min_lt_iff.mp h₁).resolve_right (lt_irrefl 1)).le
  rw [ZoomPolicy.scaleAt, ← hp, hfrac, zoomSpan, mul_div_cancel₀ _ (sub_pos.mpr hz).ne',
    add_sub_cancel]

theorem refuses_between (h₀ : v.policy.minZoom ≤ v.scale) (h₁ : v.scale ≤ v.policy.maxZoom)
    (factor : α) : v.refuses factor = false := by
  simp [refuses, h₀.not_gt, h₁.not_gt]

theorem zoomToPercent_self (hs : v.scale ≠ 0) {percent : α}
    (hp : v.scale = v.policy.scaleAt percent) (size : Size α) :
    v.zoomToPercent percent size = v := by
  have hscale : v.policy.minZoom + v.zoomSpan * Arith.power percent 2 = v.scale := by
    rw [hp, Arith.power_eq]
    rfl
  rw [zoomToPercent, hscale, setScaleAt, div_self hs, Transform.zoom_one]

end Viewport

namespace Slider

variable {s s' : Slider α}

theorem percent_congr (ht : s'.track = s.track) (hp : s'.position = s.position) :
    s'.percent = s.percent := by
  rw [percent, percent, normalized, normalized, ht, hp]

theorem percent_bottom (hl : 0 < s.track.length) (hb : s.position = s.track.length) :
    s.percent = s.track.minPercent := by
  simp [percent, normalized, hb, div_self hl.ne']

theorem percent_of_lt (hl : 0 < s.track.length) (hlt : s.position < s.track.length) :
    s.percent = 1 - s.normalized := by
  have hne : 1 - s.normalized ≠ 0 := (sub_pos.mpr ((div_lt_one hl).mpr hlt)).ne'
  simp [percent, hne]

theorem percent_top (ht : s.track.Ascending) (hp : s.position = 1) :
    s.percent = s.track.topPercent := by
  have hl : 0 < s.track.length := zero_lt_one.trans_le ht.one_le_length
  have hlt : 1 < s.track.length := (div_lt_one hl).mp (sub_pos.mp ht.topPercent_mem.1)
  rw [percent_of_lt hl (hp.trans_lt hlt), normalized, hp, SliderTrack.topPercent]

theorem position_dragged_zero (h : s.position ≤ s.track.length) :
    (s.dragged 0).position = max 1 s.position := by
  simp only [dragged, add_zero, min_eq_left h]

end Slider

namespace Mirrors

variable {s : Slider α} {v : Viewport α}

theorem zoomPercent_eq (h : Mirrors s v) (hl : 0 < s.track.length) (hv : 0 < v.zoomPercent) :
    v.zoomPercent = s.percent ^ 2 := by
  rcases h.percent_eq with hp | ⟨hb, hp⟩
  · have hlt : s.position < s.track.length := by
      refine h.position_le.lt_of_ne fun hb ↦ hv.ne ?_
      rw [← hp, Slider.normalized, hb, div_self hl.ne', sub_self, zero_pow two_ne_zero]
    rw [Slider.percent_of_lt hl hlt, hp]
  · rw [Slider.percent_bottom hl hb, hp]

theorem position_eq_length (h : Mirrors s v) (hl : 0 < s.track.length) (hv : v.zoomPercent = 0) :
    s.position = s.track.length := by
  rcases h.percent_eq with hp | ⟨hb, -⟩
  · have hzero : 1 - s.normalized = 0 := (pow_eq_zero_iff two_ne_zero).mp (hp.trans hv)
    exact (div_eq_one_iff_eq hl.ne').mp (sub_eq_zero.mp hzero).symm
  · exact hb

theorem position_lt_one_iff (h : Mirrors s v) (ht : s.track.Ascending)
    (hz : v.policy.minZoom < v.policy.maxZoom) :
    s.position < 1 ↔ v.policy.scaleAt s.track.topPercent < v.scale := by
  have hl : 0 < s.track.length := zero_lt_one.trans_le ht.one_le_length
  obtain ⟨htop, htop'⟩ := ht.topPercent_mem
  rw [← Viewport.lt_zoomPercent_iff hz htop.le htop']
  rcases h.percent_eq with hp | ⟨hb, hp⟩
  · have hnonneg : 0 ≤ 1 - s.normalized := sub_nonneg.mpr ((div_le_one hl).mpr h.position_le)
    rw [← hp, sq_lt_sq₀ htop.le hnonneg, SliderTrack.topPercent, sub_lt_sub_iff_left,
      Slider.normalized, div_lt_div_iff_of_pos_right hl]
  · rw [hb, hp, sq_lt_sq₀ htop.le ht.minPercent_pos.le]
    exact iff_of_false ht.one_le_length.not_gt ht.minPercent_le_top.not_gt

end Mirrors

namespace Engine

variable {c : Config α} {e e' : Engine α}

/-- What a press leaves that does not move the handle. It is not dragged farther up than 1, and the
percentage of the bottom is not zero: nothing changes between the scales of these two. -/
structure Pressed (e e' : Engine α) : Prop where
  kept : e.viewport.policy.minZoom < e.viewport.scale →
    e.viewport.scale ≤ e.viewport.policy.scaleAt e.slider.track.topPercent →
      e'.viewport = e.viewport ∧ e'.slider.position = e.slider.position
  top : e.viewport.policy.scaleAt e.slider.track.topPercent < e.viewport.scale →
    e.slider.position < 1 ∧ e'.slider.position = 1 ∧
      e'.viewport.scale = e.viewport.policy.scaleAt e.slider.track.topPercent
  bottom : e.viewport.scale ≤ e.viewport.policy.minZoom →
    e.slider.position = e.slider.track.length ∧ e'.slider.position = e.slider.track.length ∧
      e'.viewport.scale = e.viewport.policy.scaleAt e.slider.track.minPercent
  center_eq : e'.viewport.toModel e.area.center = e.viewport.toModel e.area.center

theorem run_press (he : e.Slidable) {p q : Point α} (hq : q.y = p.y) :
    ∃ e', e.run? [.grabSlider p, .move q, .release] = some e' ∧
      e'.slider.position = (e.slider.dragged 0).position ∧
      e'.viewport = e.viewport.zoomToPercent (e.slider.dragged 0).percent e.area := by
  let e' : Engine α := { e.sliding p q with
    slider := (e.sliding p q).slider.release
    pointer := { (e.sliding p q).pointer with gesture := .idle } }
  have hrelease : (e.sliding p q).next? .release = some e' := rfl
  have hrun : e.run? (slideThrough p ([] ++ [q])) = some e' :=
    (run_slideThrough he p q []).trans hrelease
  have hzero : q.y - p.y = 0 := sub_eq_zero.mpr hq
  refine ⟨e', hrun, ?_, ?_⟩
  · rw [← hzero]
    rfl
  · rw [← hzero]
    rfl

theorem press_cases (he : e.Slidable) (ht : e.slider.track.Ascending)
    (hm : Mirrors e.slider e.viewport) {p q : Point α} (hq : q.y = p.y) :
    ∃ e', e.run? [.grabSlider p, .move q, .release] = some e' ∧ e.Pressed e' := by
  obtain ⟨e', hrun, hposition, hviewport⟩ := run_press he hq
  have hl : 0 < e.slider.track.length := zero_lt_one.trans_le ht.one_le_length
  obtain ⟨htop, htop'⟩ := ht.topPercent_mem
  have hdragged := Slider.position_dragged_zero hm.position_le
  rw [hdragged] at hposition
  have habove := hm.position_lt_one_iff ht he.minZoom_lt
  have hbelow : 0 < e.viewport.zoomPercent ↔ e.viewport.policy.minZoom < e.viewport.scale := by
    have hzero := Viewport.lt_zoomPercent_iff he.minZoom_lt le_rfl zero_lt_one
    rwa [ZoomPolicy.scaleAt, zero_pow two_ne_zero, mul_zero, add_zero] at hzero
  have hscale : e'.viewport.scale = e.viewport.policy.scaleAt (e.slider.dragged 0).percent := by
    rw [hviewport, Viewport.scale_zoomToPercent he.scale_pos.ne', ZoomPolicy.scaleAt]
  refine ⟨e', hrun, ?_⟩
  constructor
  case kept =>
    intro hlow hhigh
    have hpos := hbelow.mpr hlow
    have hone := max_eq_right (not_lt.mp (mt habove.mp hhigh.not_gt))
    have hsame : (e.slider.dragged 0).percent = e.slider.percent :=
      Slider.percent_congr rfl (hdragged.trans hone)
    have hle : e.viewport.zoomPercent ≤ e.slider.track.topPercent ^ 2 :=
      not_lt.mp (mt (Viewport.lt_zoomPercent_iff he.minZoom_lt htop.le htop').mp hhigh.not_gt)
    have hlt := hle.trans_lt (pow_lt_one₀ htop.le htop' two_ne_zero)
    have hasked :=
      Viewport.scale_eq_of_zoomPercent he.minZoom_lt (hm.zoomPercent_eq hl hpos) hpos hlt
    refine ⟨?_, hposition.trans hone⟩
    rw [hviewport, hsame, Viewport.zoomToPercent_self he.scale_pos.ne' hasked]
  case top =>
    intro hhigh
    have hlt := habove.mpr hhigh
    have hone := max_eq_left hlt.le
    refine ⟨hlt, hposition.trans hone, ?_⟩
    rw [hscale, Slider.percent_top (s := e.slider.dragged 0) ht (hdragged.trans hone)]
    rfl
  case bottom =>
    intro hlow
    have hzero : e.viewport.zoomPercent = 0 :=
      le_antisymm (not_lt.mp (mt hbelow.mp hlow.not_gt)) e.viewport.zoomPercent_mem.1
    have hbottom := hm.position_eq_length hl hzero
    have hmax : max 1 e.slider.position = e.slider.track.length := by
      rw [hbottom, max_eq_right ht.one_le_length]
    refine ⟨hbottom, hposition.trans hmax, ?_⟩
    rw [hscale, Slider.percent_bottom (s := e.slider.dragged 0) hl (hdragged.trans hmax)]
    rfl
  case center_eq =>
    have hpos : 0 < (e.viewport.zoomToPercent (e.slider.dragged 0).percent e.area).scale :=
      Viewport.scale_zoomToPercent_pos he.minZoom_nonneg he.minZoom_lt he.scale_pos.ne'
        (Slider.percent_dragged_pos he.track 0) e.area
    rw [hviewport, Viewport.toModel_zoomToPercent he.scale_pos.ne' hpos.ne']

theorem Zoomable.slidable (hz : c.zoom.Proper) (ht : c.slider.Proper) (he : e.Zoomable c) :
    e.Slidable := by
  refine ⟨he.track_eq ▸ ht, ?_, ?_, he.scale_pos⟩
  · exact he.policy_eq ▸ hz.minZoom_nonneg
  · exact he.policy_eq ▸ hz.minZoom_lt

theorem next_fit_scale (hf : e.viewport.policy.minFitScale ≤ e.viewport.policy.maxFitScale)
    (hb : e.scene.bounds.isEmpty = false) {width height : α}
    (h : e.next? (.fit width height) = some e') :
    e.viewport.policy.minFitScale ≤ e'.viewport.scale ∧
      e'.viewport.scale ≤ e.viewport.policy.maxFitScale := by
  simp only [next?, Option.map_eq_map, Option.map_eq_some_iff] at h
  obtain ⟨o, h, rfl⟩ := h
  obtain ⟨m, hm, rfl⟩ := engine_of_redrawn h
  obtain ⟨hb', -⟩ | ⟨-, scale, hs, rfl⟩ := fit_cases hm
  · exact absurd (hb.symm.trans hb') Bool.noConfusion
  · rw [Viewport.fitScale?, Arith.clamp?_eq hf, Option.some.injEq] at hs
    change _ ≤ scale ∧ scale ≤ _
    rw [← hs]
    exact ⟨le_max_left _ _, max_le hf (min_le_right _ _)⟩

end Engine

end Exact

section Roots

variable [ExactRoots α]

namespace Engine

variable {c : Config α} {e e' : Engine α} {g : Payload α} {i : EngineInput α}

theorem next_setsZoom (hz : c.zoom.Proper) (ht : c.slider.Proper) (he : e.Zoomable c)
    (hi : e.SetsZoom i) (h : e.next? i = some e') :
    e'.Zoomable c ∧ Mirrors e'.slider e'.viewport := by
  obtain ⟨m, hm, hr⟩ := next_rezoom hi h
  have hmz : m.Zoomable c := effects_induct hm he fun hx hc ↦ hx.zoomable hz ht hc
  exact ⟨hr.zoomable hz ht hmz, hr.mirrors hz ht hmz⟩

theorem run_load_fit (hz : c.zoom.Proper) (ht : c.slider.Proper) (hv : g.Visible c.metrics)
    (width height : α) : ∃ e, (create c).run? [.load g, .fit width height] = some e ∧
      (e.Zoomable c ∧ Mirrors e.slider e.viewport) ∧
      c.zoom.minFitScale ≤ e.viewport.scale ∧ e.viewport.scale ≤ c.zoom.maxFitScale := by
  obtain ⟨m, hm, -, hshows, hboxed⟩ := withGraph_loadable (c := c) hv.loadable
  have hload : (create c).next? (.load g) = some m := next_load hm
  have hmz : m.Zoomable c :=
    run_induct (run?_cons_of_next hload []) (zoomable_create c) fun hx hc ↦ hx.zoomable hz ht hc
  have hb : m.scene.bounds.isEmpty = false := by
    rw [hshows.bounds_eq hboxed]
    exact hv.isEmpty_around
  obtain ⟨e, hfit, -⟩ := hmz.next hz ht (i := .fit width height) trivial
  refine ⟨e, (run?_cons_of_next hload _).trans (run?_cons_of_next hfit []),
    next_setsZoom (i := .fit width height) hz ht hmz hb hfit, ?_⟩
  have hscale := next_fit_scale (hmz.policy_eq ▸ hz.minFitScale_le) hb hfit
  rwa [hmz.policy_eq] at hscale

theorem run_fitted (hz : c.zoom.Proper) (ht : c.slider.Proper) (hv : g.Visible c.metrics)
    {width height : α} {rest : List (EngineInput α)}
    (h : (create c).run? (.load g :: .fit width height :: rest) = some e) :
    e.Zoomable c ∧ Mirrors e.slider e.viewport := by
  obtain ⟨m, hm, hmirror, -⟩ := run_load_fit hz ht hv width height
  have hrest : m.run? rest = some e := (run?_append_of_run hm rest).symm.trans h
  exact run_induct (P := fun m ↦ m.Zoomable c ∧ Mirrors m.slider m.viewport) hrest hmirror
    fun hx hc ↦ ⟨hx.zoomable hz ht hc.1, hx.mirrors hz ht hc.1 hc.2⟩

/-- A press that does not move the handle changes nothing, unless the slider cannot be dragged to the
scale. That becomes then what it is at the end of the track, with the middle of the screen in place, and
a handle that was above 1 goes there. -/
theorem press_in_place (hg : g.Loadable) (hne : g.nodes ≠ []) {width height : α}
    {rest : List (EngineInput α)}
    (h : (create .standard).run? (.load g :: .fit width height :: rest) = some e)
    {p q : Point α} (hq : q.y = p.y) :
    ∃ e', e.run? [.grabSlider p, .move q, .release] = some e' ∧
      (1 / 5 < e.viewport.scale → e.viewport.scale ≤ 1980449 / 200000 →
        e'.viewport = e.viewport ∧ e'.slider.position = e.slider.position) ∧
      (1980449 / 200000 < e.viewport.scale → e.slider.position < 1 ∧ e'.slider.position = 1 ∧
        e'.viewport.scale = 1980449 / 200000) ∧
      (e.viewport.scale ≤ 1 / 5 → e.slider.position = 200 ∧ e'.slider.position = 200 ∧
        e'.viewport.scale = 1 / 5 + 49 / 5 * (1 / 10000) ^ 2) ∧
      e'.viewport.toModel e.area.center = e.viewport.toModel e.area.center := by
  have hz : (ZoomPolicy.standard : ZoomPolicy α).Proper := ZoomPolicy.proper_standard
  have ht : (SliderTrack.standard : SliderTrack α).Ascending := SliderTrack.ascending_standard
  obtain ⟨he, hm⟩ := run_fitted hz ht.toProper (Payload.visible_standard hg hne) h
  obtain ⟨htop, hbottom⟩ := ZoomPolicy.scaleAt_standard (α := α)
  have hmin := (ZoomPolicy.zoom_standard (α := α)).1
  have hpolicy : e.viewport.policy = .standard := he.policy_eq
  have htrack : e.slider.track = .standard := he.track_eq
  obtain ⟨e', hrun, hpress⟩ :=
    press_cases (he.slidable hz ht.toProper) (htrack ▸ ht) hm hq
  have hkept := hpress.kept
  have habove := hpress.top
  have hbelow := hpress.bottom
  rw [hpolicy, htrack, htop] at habove
  rw [hpolicy, htrack, hmin, htop] at hkept
  rw [hpolicy, htrack, hmin, hbottom, SliderTrack.length_standard] at hbelow
  exact ⟨e', hrun, hkept, habove, hbelow, hpress.center_eq⟩

def single : Payload ℝ := ⟨[⟨"a", none, 0, 0, "ready"⟩], []⟩

theorem single_loadable : single.Loadable ∧ single.nodes ≠ [] :=
  ⟨by decide, List.cons_ne_nil _ _⟩

theorem run_single : ∃ e : Engine ℝ,
    (create .standard).run? [.load single, .fit 640 480] = some e ∧
      e.viewport.policy = .standard ∧ 3 / 5 ≤ e.viewport.scale ∧ e.viewport.scale ≤ 2 := by
  obtain ⟨hg, hne⟩ := single_loadable
  obtain ⟨-, -, -, hmin, hmax⟩ := ZoomPolicy.zoom_standard (α := ℝ)
  obtain ⟨e, h, ⟨he, -⟩, hlow, hhigh⟩ := run_load_fit (c := .standard)
    ZoomPolicy.proper_standard SliderTrack.proper_standard (Payload.visible_standard hg hne) 640 480
  exact ⟨e, h, he.policy_eq, hmin.symm.trans_le hlow, hhigh.trans_eq hmax⟩

theorem press_in_place_fitted : ∃ e e' : Engine ℝ,
    (create .standard).run? [.load single, .fit 640 480] = some e ∧
      e.run? [.grabSlider ⟨5, 100⟩, .move ⟨9, 100⟩, .release] = some e' ∧
      e'.viewport = e.viewport ∧ e'.slider.position = e.slider.position := by
  obtain ⟨e, h, -, hlow, hhigh⟩ := run_single
  obtain ⟨e', hrun, hkept, -⟩ := press_in_place (p := ⟨5, 100⟩) (q := ⟨9, 100⟩)
    single_loadable.1 single_loadable.2 h rfl
  obtain ⟨hviewport, hposition⟩ := hkept (by linarith) (by linarith)
  exact ⟨e, e', h, hrun, hviewport, hposition⟩

/-- The wheel leads past the largest scale, where the handle is above 1. A press brings both back. -/
theorem press_lowers_overshot : single.Loadable ∧ single.nodes ≠ [] ∧ ∃ e e' : Engine ℝ,
    (create .standard).run?
      [.load single, .fit 640 480, .enterSurface, .wheel 60 ⟨320, 240⟩] = some e ∧
      e.run? [.grabSlider ⟨5, 100⟩, .move ⟨5, 100⟩, .release] = some e' ∧
      e'.viewport.transform ≠ e.viewport.transform ∧ e'.slider.position ≠ e.slider.position := by
  obtain ⟨hg, hne⟩ := single_loadable
  obtain ⟨m, hm, hpolicy, hlow, hhigh⟩ := run_single
  obtain ⟨hmin, hmax, hin, -⟩ := ZoomPolicy.zoom_standard (α := ℝ)
  have hnotches : (60 : Int32).toInt.natAbs = 60 := by decide
  have hf : m.viewport.wheelFactor? 60 = some ((21 / 20) ^ 60) := by
    rw [Viewport.wheelFactor?_of_nonneg (by decide), hpolicy, hin, hnotches]
  have hr : m.viewport.refuses ((21 / 20) ^ 60) = false := by
    apply Viewport.refuses_between
    · rw [hpolicy, hmin]
      linarith
    · rw [hpolicy, hmax]
      linarith
  obtain ⟨e, hwheel, hscale⟩ : ∃ e, (m.setInside true).next? (.wheel 60 ⟨320, 240⟩) = some e ∧
      e.viewport.scale = (21 / 20) ^ 60 * m.viewport.scale :=
    ⟨_, next_wheel (e := m.setInside true) rfl (by decide) hf hr _, Viewport.scale_zoomAt hr _⟩
  have henter : m.next? .enterSurface = some (m.setInside true) := rfl
  have h : (create .standard).run?
      [.load single, .fit 640 480, .enterSurface, .wheel 60 ⟨320, 240⟩] = some e :=
    (run?_append_of_run hm _).trans
      ((run?_cons_of_next henter _).trans (run?_cons_of_next hwheel []))
  have hz : (ZoomPolicy.standard : ZoomPolicy ℝ).Proper := ZoomPolicy.proper_standard
  have ht : (SliderTrack.standard : SliderTrack ℝ).Ascending := SliderTrack.ascending_standard
  obtain ⟨he, hmirror⟩ :=
    run_fitted (c := .standard) hz ht.toProper (Payload.visible_standard hg hne) h
  have hpolicy' : e.viewport.policy = .standard := he.policy_eq
  have htrack : e.slider.track = .standard := he.track_eq
  have hover : e.viewport.policy.scaleAt e.slider.track.topPercent < e.viewport.scale := by
    rw [hpolicy', htrack, ZoomPolicy.scaleAt_standard.1, hscale]
    calc (1980449 / 200000 : ℝ) < (21 / 20) ^ 60 * (3 / 5) := by norm_num
      _ ≤ (21 / 20) ^ 60 * m.viewport.scale := mul_le_mul_of_nonneg_left hlow (by positivity)
  have habove := (hmirror.position_lt_one_iff (htrack ▸ ht) (hpolicy' ▸ hz.minZoom_lt)).mpr hover
  obtain ⟨e', hrun, hpress⟩ := press_cases (he.slidable hz ht.toProper) (htrack ▸ ht) hmirror
    (p := ⟨5, 100⟩) (q := ⟨5, 100⟩) rfl
  obtain ⟨-, hposition, hscale'⟩ := hpress.top hover
  refine ⟨hg, hne, e, e', h, hrun, fun htransform ↦ ?_, hposition.trans_ne habove.ne'⟩
  exact hover.ne (hscale'.symm.trans (congrArg Transform.scale htransform))

end Engine

end Roots

end Diagram
