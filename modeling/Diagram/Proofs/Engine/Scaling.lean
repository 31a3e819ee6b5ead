import Diagram.Proofs.Engine.Mirroring
import Diagram.Proofs.Turning

namespace Diagram

variable {α : Type}

variable [ExactArith α]

/-- Positive bounds, and a wheel that never shrinks the diagram one way or enlarges it the other. -/
structure ZoomPolicy.Directed (p : ZoomPolicy α) : Prop where
  minZoom_pos : 0 < p.minZoom
  minZoom_lt : p.minZoom < p.maxZoom
  minFitScale_pos : 0 < p.minFitScale
  minFitScale_le : p.minFitScale ≤ p.maxFitScale
  wheelOut_pos : 0 < p.wheelOut
  wheelOut_le_one : p.wheelOut ≤ 1
  one_le_wheelIn : 1 ≤ p.wheelIn

namespace ZoomPolicy

variable {p : ZoomPolicy α} {k : ℕ} {scale : α}

theorem Directed.proper (h : p.Directed) : p.Proper where
  minZoom_nonneg := h.minZoom_pos.le
  minZoom_lt := h.minZoom_lt
  minFitScale_pos := h.minFitScale_pos
  minFitScale_le := h.minFitScale_le
  wheelIn_pos := zero_lt_one.trans_le h.one_le_wheelIn
  wheelOut_pos := h.wheelOut_pos

theorem directed_standard : (standard : ZoomPolicy α).Directed := by
  constructor <;> simp only [standard, ExactArith.ofScientific_eq] <;> norm_num

/-- The least scale that the start, a fit, or a turn of `k` notches within the bounds leaves. -/
def leastScale (p : ZoomPolicy α) (k : ℕ) : α :=
  min (min 1 p.minFitScale) (p.minZoom * p.wheelOut ^ k)

def greatestScale (p : ZoomPolicy α) (k : ℕ) : α :=
  max (max 1 p.maxFitScale) (p.maxZoom * p.wheelIn ^ k)

structure Admits (p : ZoomPolicy α) (k : ℕ) (scale : α) : Prop where
  least_le : p.leastScale k ≤ scale
  le_greatest : scale ≤ p.greatestScale k

theorem admits_one (p : ZoomPolicy α) (k : ℕ) : p.Admits k 1 :=
  ⟨(min_le_left _ _).trans (min_le_left _ _), (le_max_left _ _).trans (le_max_left _ _)⟩

theorem admits_of_fit (h₀ : p.minFitScale ≤ scale) (h₁ : scale ≤ p.maxFitScale) :
    p.Admits k scale :=
  ⟨((min_le_left _ _).trans (min_le_right _ _)).trans h₀,
    h₁.trans ((le_max_right _ _).trans (le_max_left _ _))⟩

theorem leastScale_le (p : ZoomPolicy α) (k : ℕ) : p.leastScale k ≤ p.minZoom * p.wheelOut ^ k :=
  min_le_right _ _

theorem le_greatestScale (p : ZoomPolicy α) (k : ℕ) :
    p.maxZoom * p.wheelIn ^ k ≤ p.greatestScale k := le_max_right _ _

theorem Directed.leastScale_pos (h : p.Directed) (k : ℕ) : 0 < p.leastScale k :=
  lt_min (lt_min one_pos h.minFitScale_pos) (mul_pos h.minZoom_pos (pow_pos h.wheelOut_pos k))

theorem Directed.admits_of_zoom (h : p.Directed) (h₀ : p.minZoom ≤ scale)
    (h₁ : scale ≤ p.maxZoom) : p.Admits k scale := by
  have hout : p.wheelOut ^ k ≤ 1 := pow_le_one₀ h.wheelOut_pos.le h.wheelOut_le_one
  have hin : 1 ≤ p.wheelIn ^ k := one_le_pow₀ h.one_le_wheelIn
  have hmax : 0 ≤ p.maxZoom := (h.minZoom_pos.trans h.minZoom_lt).le
  constructor
  · exact (p.leastScale_le k).trans ((mul_le_of_le_one_right h.minZoom_pos.le hout).trans h₀)
  · exact (h₁.trans (le_mul_of_one_le_right hmax hin)).trans (p.le_greatestScale k)

end ZoomPolicy

namespace Viewport

variable {v : Viewport α} {notches : Int32} {k : ℕ}

theorem not_refuses_in {factor : α} (hr : v.refuses factor = false) (hf : 1 < factor) :
    v.scale ≤ v.policy.maxZoom := by
  by_contra! h
  simp [refuses, h, hf] at hr

theorem not_refuses_out {factor : α} (hr : v.refuses factor = false) (hf : factor < 1) :
    v.policy.minZoom ≤ v.scale := by
  by_contra! h
  simp [refuses, h, hf] at hr

theorem admits_turn (hz : v.policy.Directed) (hs : 0 < v.scale) (hk : notches.toInt.natAbs ≤ k)
    {factor : α} (hf : v.wheelFactor? notches = some factor) (hr : v.refuses factor = false)
    (h : v.policy.Admits k v.scale) : v.policy.Admits k (factor * v.scale) := by
  -- The turn was not refused, so the scale was within the bound that the turn leads to.
  obtain ⟨-, rfl⟩ | ⟨-, rfl⟩ := wheelFactor?_cases hf
  · have hge : 1 ≤ v.policy.wheelIn ^ notches.toInt.natAbs := one_le_pow₀ hz.one_le_wheelIn
    rcases hge.lt_or_eq with hlt | heq
    · refine ⟨h.least_le.trans (le_mul_of_one_le_left hs.le hge),
        le_trans ?_ (v.policy.le_greatestScale k)⟩
      rw [mul_comm v.policy.maxZoom]
      exact mul_le_mul (pow_le_pow_right₀ hz.one_le_wheelIn hk) (not_refuses_in hr hlt) hs.le
        (zero_le_one.trans (one_le_pow₀ hz.one_le_wheelIn))
    · rwa [← heq, one_mul]
  · have hle : v.policy.wheelOut ^ notches.toInt.natAbs ≤ 1 :=
      pow_le_one₀ hz.wheelOut_pos.le hz.wheelOut_le_one
    rcases hle.lt_or_eq with hlt | heq
    · refine ⟨(v.policy.leastScale_le k).trans ?_,
        (mul_le_of_le_one_left hs.le hle).trans h.le_greatest⟩
      rw [mul_comm]
      exact mul_le_mul (pow_le_pow_of_le_one hz.wheelOut_pos.le hz.wheelOut_le_one hk)
        (not_refuses_out hr hlt) hz.minZoom_pos.le (pow_pos hz.wheelOut_pos _).le
    · rwa [heq, one_mul]

theorem admits_fit (hz : v.policy.Directed) {graphHeight height scale : α}
    (hf : fitScale? v.policy graphHeight height = some scale) : v.policy.Admits k scale := by
  rw [fitScale?, Arith.clamp?_eq hz.minFitScale_le, Option.some.injEq] at hf
  subst hf
  exact ZoomPolicy.admits_of_fit (le_max_left _ _) (max_le hz.minFitScale_le (min_le_right _ _))

theorem admits_zoomToPercent (hz : v.policy.Directed) (hs : v.scale ≠ 0) {percent : α}
    (h₀ : 0 ≤ percent) (h₁ : percent ≤ 1) (size : Size α) :
    v.policy.Admits k (v.zoomToPercent percent size).scale := by
  have hspan : 0 ≤ v.policy.maxZoom - v.policy.minZoom := (sub_pos.mpr hz.minZoom_lt).le
  have hle : (v.policy.maxZoom - v.policy.minZoom) * percent ^ 2 ≤
      v.policy.maxZoom - v.policy.minZoom :=
    mul_le_of_le_one_right hspan (pow_le_one₀ h₀ h₁)
  have hge : 0 ≤ (v.policy.maxZoom - v.policy.minZoom) * percent ^ 2 :=
    mul_nonneg hspan (pow_nonneg h₀ 2)
  rw [scale_zoomToPercent hs]
  exact hz.admits_of_zoom (by linarith) (by linarith)

end Viewport

namespace Engine

variable {c : Config α} {e e' : Engine α} {i : EngineInput α}

theorem Zoomable.admits_moveTo (hz : c.zoom.Directed) (ht : c.slider.Proper) {k : ℕ}
    (he : e.Zoomable c) {position : α} {slider : Slider α}
    (hm : e.slider.moveTo? position = some slider) :
    c.zoom.Admits k (e.viewport.zoomToPercent slider.percent e.area).scale := by
  have hl : 1 ≤ e.slider.track.length := he.track_eq ▸ ht.one_le_length
  obtain ⟨htrack, h₀, h₁⟩ := Slider.moveTo_mem hl hm
  obtain ⟨hpos, hle, -⟩ := Slider.percent_mem (htrack.trans he.track_eq ▸ ht) h₀ h₁
  rw [← he.policy_eq] at hz ⊢
  exact Viewport.admits_zoomToPercent hz he.scale_pos.ne' hpos.le hle e.area

theorem next_admits (hz : c.zoom.Directed) (ht : c.slider.Proper) {k : ℕ} (he : e.Zoomable c)
    (hk : ∀ n focus, i = .wheel n focus → n.toInt.natAbs ≤ k)
    (ha : c.zoom.Admits k e.viewport.scale) (h : e.next? i = some e') :
    c.zoom.Admits k e'.viewport.scale := by
  obtain ⟨redraws, m, hm, rfl⟩ := next_leads h
  cases hm with
  | slide _ hm => exact he.admits_moveTo hz ht hm
  | place _ hm => exact he.admits_moveTo hz ht hm
  | fit _ hf =>
    rw [← he.policy_eq] at hz ⊢
    exact Viewport.admits_fit hz hf
  | @turn notches focus factor _ _ hf hr =>
    change c.zoom.Admits k (e.viewport.zoomAt factor focus).scale
    rw [Viewport.scale_zoomAt hr]
    rw [← he.policy_eq] at hz ha ⊢
    exact Viewport.admits_turn hz he.scale_pos (hk notches focus rfl) hf hr ha
  | pan _ => exact (Viewport.scale_pan e.viewport _).symm ▸ ha
  | center _ hv =>
    obtain rfl | ⟨p, rfl⟩ := hv
    · exact ha
    · exact ha
  | _ => exact ha

theorem run_admits (hz : c.zoom.Directed) (ht : c.slider.Proper) {k : ℕ}
    {inputs : List (EngineInput α)} (he : e.Zoomable c)
    (hk : ∀ n focus, .wheel n focus ∈ inputs → n.toInt.natAbs ≤ k)
    (ha : c.zoom.Admits k e.viewport.scale) (h : e.run? inputs = some e') :
    c.zoom.Admits k e'.viewport.scale := by
  refine (run_steps (P := fun m ↦ m.Zoomable c ∧ c.zoom.Admits k m.viewport.scale) h ⟨he, ha⟩
    fun i hi hm hp ↦ ⟨hp.1.effects hz.proper ht (next_effects hm), ?_⟩).2
  exact next_admits hz ht hp.1 (fun n focus heq ↦ hk n focus (heq ▸ hi)) hp.2 hm

/-- What positions, drags and the places of the slider are divided by. -/
structure Divisible (e : Engine α) : Prop where
  scale_pos : 0 < e.viewport.scale
  zoomSpan_pos : 0 < e.viewport.zoomSpan
  length_pos : 0 < e.slider.track.length

/-- In every run nothing is divided by zero, and the scale leaves its bounds by no more than one turn of
the wheel. Every run goes through in which the wheel turns by numbers that have a negation. -/
theorem scale_bounded (hz : c.zoom.Directed) (ht : c.slider.Proper)
    (inputs : List (EngineInput α)) :
    (∀ e, (create c).run? inputs = some e → e.Divisible ∧
      ∀ k : ℕ, (∀ n focus, .wheel n focus ∈ inputs → n.toInt.natAbs ≤ k) →
        0 < c.zoom.leastScale k ∧ c.zoom.Admits k e.viewport.scale) ∧
    ((∀ i ∈ inputs, i.Negatable) → ∃ e, (create c).run? inputs = some e) := by
  constructor
  · intro e h
    have he := (zoomable_create c).effects hz.proper ht (run_effects h)
    have hscale : (create c).viewport.scale = 1 := ExactArith.one_eq
    refine ⟨⟨he.scale_pos, ?_, ?_⟩, fun k hk ↦ ⟨hz.leastScale_pos k, ?_⟩⟩
    · rw [Viewport.zoomSpan, he.policy_eq]
      exact sub_pos.mpr hz.minZoom_lt
    · rw [he.track_eq]
      exact zero_lt_one.trans_le ht.one_le_length
    · exact run_admits hz ht (zoomable_create c) hk (hscale ▸ c.zoom.admits_one k) h
  · intro hn
    obtain ⟨e, h, -⟩ := run_total (fun i hi hc ↦ Zoomable.next hz.proper ht hc (hn i hi))
      (zoomable_create c)
    exact ⟨e, h⟩

theorem scale_bounded_standard : ∃ e : Engine ℝ, (create .standard).run?
    [.enterSurface, .wheel 7 .origin, .wheel (-3) ⟨3, 4⟩, .clickZoom true] = some e ∧
      (ZoomPolicy.standard : ZoomPolicy ℝ).Directed ∧
      (SliderTrack.standard : SliderTrack ℝ).Proper ∧
      (ZoomPolicy.standard : ZoomPolicy ℝ).Admits 7 e.viewport.scale := by
  have hz : (ZoomPolicy.standard : ZoomPolicy ℝ).Directed := ZoomPolicy.directed_standard
  have ht : (SliderTrack.standard : SliderTrack ℝ).Proper := SliderTrack.proper_standard
  obtain ⟨hbounds, hrun⟩ := scale_bounded (c := .standard) hz ht
    [.enterSurface, .wheel 7 .origin, .wheel (-3) ⟨3, 4⟩, .clickZoom true]
  obtain ⟨e, h⟩ := hrun (by simp [EngineInput.Negatable]; decide)
  refine ⟨e, h, hz, ht, ((hbounds e h).2 7 fun n focus hn ↦ ?_).2⟩
  simp only [List.mem_cons, reduceCtorEq, EngineInput.wheel.injEq, List.not_mem_nil, or_false,
    false_or] at hn
  obtain ⟨rfl, -⟩ | ⟨rfl, -⟩ := hn
  · decide
  · decide

end Engine

end Diagram
