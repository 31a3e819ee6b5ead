import Diagram.Proofs.Exact
import Diagram.Slider
import Diagram.Viewport

namespace Diagram

variable {α : Type}

theorem Viewport.wheelFactor?_eq_none_iff [Arith α] (v : Viewport α) (notches : Int32) :
    v.wheelFactor? notches = none ↔ notches = Int32.minValue := by
  unfold wheelFactor?
  split
  · next h =>
    refine iff_of_false nofun ?_
    rintro rfl
    exact absurd h (by decide)
  · split
    · next h => exact iff_of_true rfl h
    · next h => exact iff_of_false nofun h

section Exact

variable [ExactArith α]

/-- Bounds between which there is a scale, and factors that keep a scale positive. -/
structure ZoomPolicy.Proper (p : ZoomPolicy α) : Prop where
  minZoom_nonneg : 0 ≤ p.minZoom
  minZoom_lt : p.minZoom < p.maxZoom
  minFitScale_pos : 0 < p.minFitScale
  minFitScale_le : p.minFitScale ≤ p.maxFitScale
  wheelIn_pos : 0 < p.wheelIn
  wheelOut_pos : 0 < p.wheelOut

/-- A track with a place for the handle, at the bottom of which something is left of the diagram. -/
structure SliderTrack.Proper (t : SliderTrack α) : Prop where
  one_le_length : 1 ≤ t.length
  minPercent_pos : 0 < t.minPercent
  minPercent_le : t.minPercent ≤ 1

theorem ZoomPolicy.proper_standard : (standard : ZoomPolicy α).Proper := by
  constructor <;> simp only [standard, ExactArith.ofScientific_eq] <;> norm_num

theorem SliderTrack.proper_standard : (standard : SliderTrack α).Proper := by
  constructor <;> simp only [standard, ExactArith.ofScientific_eq] <;> norm_num

namespace Viewport

variable {v : Viewport α}

@[simp]
theorem scale_pan (v : Viewport α) (d : Offset α) : (v.pan d).scale = v.scale := by
  simp [pan, scale, Transform.pan, Transform.next, Transform.shifting]

theorem scale_zoomAt {factor : α} (hr : v.refuses factor = false) (focus : Point α) :
    (v.zoomAt factor focus).scale = factor * v.scale := by
  simp only [zoomAt, hr, Bool.false_eq_true, ↓reduceIte]
  rfl

theorem policy_zoomAt (v : Viewport α) (factor : α) (focus : Point α) :
    (v.zoomAt factor focus).policy = v.policy := by
  unfold zoomAt
  split <;> rfl

theorem refuses_standard (factor : α) : (unmoved .standard : Viewport α).refuses factor = false := by
  have hscale : (unmoved .standard : Viewport α).scale = 1 := ExactArith.one_eq
  have hmax : ¬ (ZoomPolicy.standard : ZoomPolicy α).maxZoom < 1 := by
    simp only [ZoomPolicy.standard, ExactArith.ofScientific_eq]
    norm_num
  have hmin : ¬ 1 < (ZoomPolicy.standard : ZoomPolicy α).minZoom := by
    simp only [ZoomPolicy.standard, ExactArith.ofScientific_eq]
    norm_num
  rw [refuses, hscale]
  simp [unmoved, hmax, hmin]

theorem wheelFactor?_one (v : Viewport α) : v.wheelFactor? 1 = some v.policy.wheelIn := by
  have hpos : (0 : Int32) ≤ 1 := by decide
  have hint : (1 : Int32).toInt.toNat = 1 := by decide
  rw [wheelFactor?, if_pos hpos, hint, Arith.power_eq, pow_one]

theorem scale_setScaleAt (hs : v.scale ≠ 0) (scale : α) (focus : Point α) :
    (v.setScaleAt scale focus).scale = scale :=
  div_mul_cancel₀ scale hs

theorem scale_zoomToPercent (hs : v.scale ≠ 0) (percent : α) (size : Size α) :
    (v.zoomToPercent percent size).scale =
      v.policy.minZoom + (v.policy.maxZoom - v.policy.minZoom) * percent ^ 2 := by
  rw [zoomToPercent, scale_setScaleAt hs, Arith.power_eq]
  rfl

theorem scale_zoomToPercent_pos (hmin : 0 ≤ v.policy.minZoom)
    (hmax : v.policy.minZoom < v.policy.maxZoom) (hs : v.scale ≠ 0) {percent : α}
    (hp : 0 < percent) (size : Size α) : 0 < (v.zoomToPercent percent size).scale := by
  rw [scale_zoomToPercent hs]
  exact add_pos_of_nonneg_of_pos hmin (mul_pos (sub_pos.mpr hmax) (pow_pos hp 2))

theorem zoomPercent_eq (v : Viewport α) :
    v.zoomPercent = max 0 (min ((v.scale - v.policy.minZoom) / v.zoomSpan) 1) := by
  rw [zoomPercent, ExactArith.zero_eq, ExactArith.one_eq, Arith.clamp_eq zero_le_one]

theorem zoomPercent_mem (v : Viewport α) : 0 ≤ v.zoomPercent ∧ v.zoomPercent ≤ 1 := by
  rw [zoomPercent_eq]
  exact ⟨le_max_left _ _, max_le zero_le_one (min_le_right _ _)⟩

theorem zoomPercent_zoomToPercent (hz : v.policy.Proper) (hs : v.scale ≠ 0) {percent : α}
    (hp : 0 ≤ percent) (hp' : percent ≤ 1) (size : Size α) :
    (v.zoomToPercent percent size).zoomPercent = percent ^ 2 := by
  have hspan : v.policy.maxZoom - v.policy.minZoom ≠ 0 := (sub_pos.mpr hz.minZoom_lt).ne'
  have hfrac : ((v.zoomToPercent percent size).scale - v.policy.minZoom) /
      (v.policy.maxZoom - v.policy.minZoom) = percent ^ 2 := by
    rw [scale_zoomToPercent hs, add_sub_cancel_left, mul_div_cancel_left₀ _ hspan]
  have hsq : percent ^ 2 ≤ 1 := pow_le_one₀ hp hp'
  rw [zoomPercent_eq]
  change max 0 (min (((v.zoomToPercent percent size).scale - v.policy.minZoom) /
      (v.policy.maxZoom - v.policy.minZoom)) 1) = percent ^ 2
  rw [hfrac, min_eq_left hsq, max_eq_right (pow_nonneg hp 2)]

theorem wheelFactor?_pos (hz : v.policy.Proper) {notches : Int32} {factor : α}
    (hf : v.wheelFactor? notches = some factor) : 0 < factor := by
  unfold wheelFactor? at hf
  split at hf
  · cases hf
    exact Arith.power_pos hz.wheelIn_pos _
  · split at hf
    · cases hf
    · cases hf
      exact Arith.power_pos hz.wheelOut_pos _

theorem fitScale_pos {p : ZoomPolicy α} (hz : p.Proper) {graphHeight height scale : α}
    (hf : fitScale? p graphHeight height = some scale) : 0 < scale := by
  rw [fitScale?, Arith.clamp?_eq hz.minFitScale_le, Option.some.injEq] at hf
  exact hz.minFitScale_pos.trans_le (hf ▸ le_max_left _ _)

end Viewport

namespace Slider

variable {s s' : Slider α}

theorem moveTo_eq (hl : 1 ≤ s.track.length) (position : α) :
    s.moveTo? position = some { s with position := max 1 (min position s.track.length) } := by
  rw [moveTo?, ExactArith.one_eq, Arith.clamp?_eq hl]
  rfl

theorem moveTo_mem (hl : 1 ≤ s.track.length) {position : α} (hm : s.moveTo? position = some s') :
    s'.track = s.track ∧ 0 ≤ s'.position ∧ s'.position ≤ s'.track.length := by
  rw [moveTo_eq hl, Option.some.injEq] at hm
  subst hm
  exact ⟨rfl, zero_le_one.trans (le_max_left _ _), max_le hl (min_le_right _ _)⟩

theorem percent_mem (ht : s.track.Proper) (h₀ : 0 ≤ s.position)
    (h₁ : s.position ≤ s.track.length) : 0 < s.percent ∧ s.percent ≤ 1 ∧
      (s.percent = 1 - s.normalized ∨
        s.position = s.track.length ∧ s.percent = s.track.minPercent) := by
  have hl : 0 < s.track.length := zero_lt_one.trans_le ht.one_le_length
  have hn : s.normalized ≤ 1 := (div_le_one hl).mpr h₁
  have hn₀ : 0 ≤ s.normalized := div_nonneg h₀ hl.le
  unfold percent
  simp only [ExactArith.one_eq, ExactArith.zero_eq, beq_iff_eq]
  split_ifs with hz
  · have hb : s.position = s.track.length := (div_eq_one_iff_eq hl.ne').mp (sub_eq_zero.mp hz).symm
    exact ⟨ht.minPercent_pos, ht.minPercent_le, .inr ⟨hb, rfl⟩⟩
  · have hp : 0 < 1 - s.normalized := (sub_nonneg.mpr hn).lt_of_ne' hz
    exact ⟨hp, sub_le_self 1 hn₀, .inl rfl⟩

end Slider

/-- The handle is on the track, and as far up as the scale is between its bounds. It can also be at the
bottom while the scale is the least that the slider zooms to. -/
structure Mirrors (s : Slider α) (v : Viewport α) : Prop where
  position_nonneg : 0 ≤ s.position
  position_le : s.position ≤ s.track.length
  percent_eq : (1 - s.normalized) ^ 2 = v.zoomPercent ∨
    s.position = s.track.length ∧ v.zoomPercent = s.track.minPercent ^ 2

theorem Mirrors.congr {s s' : Slider α} {v v' : Viewport α} (h : Mirrors s v)
    (ht : s'.track = s.track) (hp : s'.position = s.position) (hv : v'.policy = v.policy)
    (hs : v'.scale = v.scale) : Mirrors s' v' := by
  have hn : s'.normalized = s.normalized := by rw [Slider.normalized, hp, ht, Slider.normalized]
  have hz : v'.zoomPercent = v.zoomPercent := by
    simp only [Viewport.zoomPercent, Viewport.zoomSpan, hv, hs]
  refine ⟨hp ▸ h.position_nonneg, hp ▸ ht ▸ h.position_le, ?_⟩
  rw [hn, hz, hp, ht]
  exact h.percent_eq

theorem mirrors_zoomToPercent {s : Slider α} {v : Viewport α} (ht : s.track.Proper)
    (h₀ : 0 ≤ s.position) (h₁ : s.position ≤ s.track.length) (hz : v.policy.Proper)
    (hs : v.scale ≠ 0) (size : Size α) : Mirrors s (v.zoomToPercent s.percent size) := by
  obtain ⟨hp, hp', he⟩ := s.percent_mem ht h₀ h₁
  have hzoom := Viewport.zoomPercent_zoomToPercent hz hs hp.le hp' size
  refine ⟨h₀, h₁, ?_⟩
  rw [hzoom]
  rcases he with he | ⟨hb, he⟩
  · exact .inl (by rw [he])
  · exact .inr ⟨hb, by rw [he]⟩

end Exact

section Roots

variable [ExactRoots α]

theorem Slider.position_sync (s : Slider α) (v : Viewport α) :
    (s.sync v.zoomPercent).position =
      s.track.length - s.track.length * Arith.sqrt v.zoomPercent := by
  obtain ⟨h₀, h₁⟩ := v.zoomPercent_mem
  simp only [sync, ExactArith.zero_eq, ExactArith.one_eq, Arith.clamp_eq zero_le_one, min_eq_left h₁,
    max_eq_right h₀]

theorem Slider.position_sync_lt {s : Slider α} (hl : 0 < s.track.length) {v : Viewport α}
    (hv : 0 < v.zoomPercent) : (s.sync v.zoomPercent).position < s.track.length := by
  have hroot : Arith.sqrt v.zoomPercent ≠ 0 := by
    intro h
    have hsq := Arith.sqrt_mul_self hv.le
    rw [h, mul_zero] at hsq
    exact hv.ne hsq
  have hpos := (Arith.sqrt_nonneg v.zoomPercent).lt_of_ne' hroot
  rw [position_sync]
  exact sub_lt_self _ (mul_pos hl hpos)

theorem mirrors_sync {s : Slider α} (hl : 0 < s.track.length) (v : Viewport α) :
    Mirrors (s.sync v.zoomPercent) v := by
  obtain ⟨h₀, h₁⟩ := v.zoomPercent_mem
  have hr₀ := Arith.sqrt_nonneg v.zoomPercent
  have hr₁ := Arith.sqrt_le_one h₀ h₁
  have hpos := s.position_sync v
  have hnorm : 1 - (s.sync v.zoomPercent).normalized = Arith.sqrt v.zoomPercent := by
    rw [Slider.normalized, hpos]
    change 1 - (s.track.length - s.track.length * Arith.sqrt v.zoomPercent) / s.track.length = _
    field_simp
    ring
  refine ⟨?_, ?_, .inl ?_⟩
  · rw [hpos]
    nlinarith
  · rw [hpos]
    exact sub_le_self _ (mul_nonneg hl.le hr₀)
  · rw [hnorm, pow_two, Arith.sqrt_mul_self h₀]

end Roots

end Diagram
