import Diagram.Proofs.Zooming

namespace Diagram

variable {α : Type}

/-- What moves the view of itself, and not to show something. -/
inductive ViewStep (α : Type)
  | pan (d : Offset α)
  | zoom (factor : α) (focus : Point α)
  | setScale (scale : α) (focus : Point α)

namespace ViewStep

def focus? : ViewStep α → Option (Point α)
  | pan _ => none
  | zoom _ focus => some focus
  | setScale _ focus => some focus

def setsScale : ViewStep α → Bool
  | setScale _ _ => true
  | _ => false

end ViewStep

section Steps

variable [Arith α]

def Point.stretch (p focus : Point α) (k : α) : Point α :=
  ⟨focus.x + k * (p.x - focus.x), focus.y + k * (p.y - focus.y)⟩

namespace Viewport

def take (v : Viewport α) : ViewStep α → Viewport α
  | .pan d => v.pan d
  | .zoom factor focus => v.zoomAt factor focus
  | .setScale scale focus => v.setScaleAt scale focus

def follow (v : Viewport α) (steps : List (ViewStep α)) : Viewport α := steps.foldl take v

def image (v : Viewport α) : ViewStep α → Point α → Point α
  | .pan d, p => p + d
  | .zoom factor focus, p => if v.refuses factor then p else p.stretch focus factor
  | .setScale scale focus, p => p.stretch focus (scale / v.scale)

def images (v : Viewport α) : List (ViewStep α) → Point α → Point α
  | [], p => p
  | x :: steps, p => (v.take x).images steps (v.image x p)

/-- The factor of a step, if it zooms by one and is not refused. -/
def factor? (v : Viewport α) : ViewStep α → Option α
  | .zoom factor _ => if v.refuses factor then none else some factor
  | _ => none

def factors (v : Viewport α) : List (ViewStep α) → List α
  | [] => []
  | x :: steps => (v.factor? x).toList ++ (v.take x).factors steps

end Viewport

end Steps

variable [ExactArith α]

namespace Transform

theorem apply_next (t u : Transform α) (p : Point α) :
    (t.next u).apply p = u.apply (t.apply p) := by
  simp only [apply, next, Point.mk.injEq]
  constructor <;> ring

theorem apply_pan (t : Transform α) (d : Offset α) (p : Point α) :
    (t.pan d).apply p = t.apply p + d := by
  rw [pan, apply_next]
  ext
  · simp only [apply, shifting, ExactArith.one_eq, one_mul, Point.add_x]
    exact add_comm _ _
  · simp only [apply, shifting, ExactArith.one_eq, one_mul, Point.add_y]
    exact add_comm _ _

theorem apply_zoom (t : Transform α) (k : α) (focus p : Point α) :
    (t.zoom k focus).apply p = (t.apply p).stretch focus k := by
  rw [zoom, apply_next]
  simp only [apply, scalingAbout, Point.stretch, Point.mk.injEq]
  constructor <;> ring

theorem invert_apply {t : Transform α} (ht : t.scale ≠ 0) (p : Point α) :
    t.invert (t.apply p) = p := by
  ext
  · simp only [invert, apply, add_sub_cancel_left, mul_div_cancel_left₀ _ ht]
  · simp only [invert, apply, add_sub_cancel_left, mul_div_cancel_left₀ _ ht]

theorem apply_invert {t : Transform α} (ht : t.scale ≠ 0) (p : Point α) :
    t.apply (t.invert p) = p := by
  ext
  · simp only [invert, apply, mul_div_cancel₀ _ ht, add_sub_cancel]
  · simp only [invert, apply, mul_div_cancel₀ _ ht, add_sub_cancel]

theorem zoom_zoom (t : Transform α) (k k' : α) (focus : Point α) :
    (t.zoom k focus).zoom k' focus = t.zoom (k' * k) focus := by
  ext
  · simp only [zoom, next, scalingAbout]
    ring
  · simp only [zoom, next, scalingAbout]
    ring
  · exact (mul_assoc k' k t.scale).symm

end Transform

theorem Point.stretch_self (p : Point α) (k : α) : p.stretch p k = p := by
  simp [stretch]

def ViewStep.Proper : ViewStep α → Prop
  | pan _ => True
  | zoom factor _ => factor ≠ 0
  | setScale scale _ => scale ≠ 0

namespace Viewport

variable {v : Viewport α} {x : ViewStep α} {steps : List (ViewStep α)}

theorem toScreen_take (v : Viewport α) (x : ViewStep α) (p : Point α) :
    (v.take x).toScreen p = v.image x (v.toScreen p) := by
  cases x with
  | pan d => exact Transform.apply_pan _ d p
  | zoom factor focus =>
    simp only [take, zoomAt, image]
    split
    · rfl
    · exact Transform.apply_zoom _ factor focus p
  | setScale scale focus => exact Transform.apply_zoom _ _ focus p

theorem toScreen_follow (v : Viewport α) (steps : List (ViewStep α)) (p : Point α) :
    (v.follow steps).toScreen p = v.images steps (v.toScreen p) := by
  induction steps generalizing v with
  | nil => rfl
  | cons x steps ih =>
    rw [images, ← toScreen_take]
    exact ih (v.take x)

theorem setScaleAt_setScaleAt {scale : α} (hs : v.scale ≠ 0) (hscale : scale ≠ 0) (scale' : α)
    (focus : Point α) :
    (v.setScaleAt scale focus).setScaleAt scale' focus = v.setScaleAt scale' focus := by
  have hk : scale' / scale * (scale / v.scale) = scale' / v.scale := by
    rw [div_mul_div_comm, mul_comm scale, mul_div_mul_right _ _ hscale]
  have htwice : (v.setScaleAt scale focus).setScaleAt scale' focus = { v with
      transform := (v.transform.zoom (scale / v.scale) focus).zoom (scale' / scale) focus } := by
    rw [setScaleAt, scale_setScaleAt hs]
    rfl
  rw [htwice, Transform.zoom_zoom, hk]
  rfl

theorem image_focus {focus : Point α} (hx : x.focus? = some focus) : v.image x focus = focus := by
  cases x with
  | pan d => cases hx
  | zoom factor _ =>
    cases hx
    simp only [image, Point.stretch_self, ite_self]
  | setScale scale _ =>
    cases hx
    exact Point.stretch_self focus _

theorem scale_take (hx : x.setsScale = false) :
    (v.take x).scale = (v.factor? x).toList.prod * v.scale := by
  cases x with
  | pan d =>
    have hnone : v.factor? (.pan d) = none := rfl
    rw [hnone, Option.toList_none, List.prod_nil, one_mul]
    exact scale_pan v d
  | zoom factor focus =>
    cases hr : v.refuses factor with
    | true =>
      simp only [take, zoomAt, factor?, hr, ↓reduceIte, Option.toList_none, List.prod_nil, one_mul]
    | false =>
      rw [take, scale_zoomAt hr]
      simp only [factor?, hr, Bool.false_eq_true, ↓reduceIte, Option.toList_some,
        List.prod_singleton]
  | setScale scale focus => cases hx

theorem scale_follow (hx : ∀ x ∈ steps, x.setsScale = false) :
    (v.follow steps).scale = (v.factors steps).prod * v.scale := by
  induction steps generalizing v with
  | nil => exact (one_mul v.scale).symm
  | cons x steps ih =>
    have hrest : ((v.take x).follow steps).scale = _ :=
      ih fun y hy ↦ hx y (List.mem_cons_of_mem x hy)
    rw [factors, List.prod_append, mul_comm (v.factor? x).toList.prod, mul_assoc,
      ← scale_take (hx x List.mem_cons_self)]
    exact hrest

theorem scale_take_ne_zero (hs : v.scale ≠ 0) (hx : x.Proper) : (v.take x).scale ≠ 0 := by
  cases x with
  | pan d => exact (scale_pan v d).trans_ne hs
  | zoom factor focus =>
    cases hr : v.refuses factor with
    | true => simpa only [take, zoomAt, hr, ↓reduceIte] using hs
    | false => exact (scale_zoomAt hr focus).trans_ne (mul_ne_zero hx hs)
  | setScale scale focus => exact (scale_setScaleAt hs scale focus).trans_ne hx

theorem scale_follow_ne_zero (hs : v.scale ≠ 0) (hx : ∀ x ∈ steps, x.Proper) :
    (v.follow steps).scale ≠ 0 :=
  List.foldlRecOn (motive := fun m ↦ m.scale ≠ 0) steps take hs
    fun _ hm x hmem ↦ scale_take_ne_zero hm (hx x hmem)

theorem follow_concat (v : Viewport α) (steps : List (ViewStep α)) (x : ViewStep α) :
    v.follow (steps ++ [x]) = (v.follow steps).take x := List.foldl_concat ..

/-- A view is what its steps made of it, one after the other. -/
structure Composes (v : Viewport α) (steps : List (ViewStep α)) : Prop where
  toScreen_eq : ∀ p, (v.follow steps).toScreen p = v.images steps (v.toScreen p)
  scale_eq : (∀ x ∈ steps, x.setsScale = false) →
    (v.follow steps).scale = (v.factors steps).prod * v.scale
  /-- What came before the last scale that was set does not matter. -/
  scale_eq_of_set : ∀ pre scale focus post, steps = pre ++ .setScale scale focus :: post →
    (∀ x ∈ post, x.setsScale = false) → (v.follow steps).scale =
      ((v.follow (pre ++ [.setScale scale focus])).factors post).prod * scale
  focus_fixed : ∀ pre x post focus, steps = pre ++ x :: post → x.focus? = some focus →
    (v.follow (pre ++ [x])).toScreen ((v.follow pre).toModel focus) = focus
  toModel_toScreen : ∀ pre, pre <+: steps → ∀ p,
    (v.follow pre).toModel ((v.follow pre).toScreen p) = p
  toScreen_toModel : ∀ pre, pre <+: steps → ∀ p,
    (v.follow pre).toScreen ((v.follow pre).toModel p) = p

theorem follow_composes (hs : v.scale ≠ 0) (hx : ∀ x ∈ steps, x.Proper) : v.Composes steps := by
  have hne (pre : List (ViewStep α)) (hp : pre <+: steps) : (v.follow pre).scale ≠ 0 :=
    scale_follow_ne_zero hs fun x hmem ↦ hx x (hp.subset hmem)
  refine ⟨toScreen_follow v steps, scale_follow, ?_, ?_, ?_, ?_⟩
  · rintro pre scale focus post rfl hpost
    have hset : (v.follow (pre ++ [.setScale scale focus])).scale = scale := by
      rw [follow_concat]
      exact scale_setScaleAt (hne pre (List.prefix_append ..)) scale focus
    have hfollow : v.follow (pre ++ .setScale scale focus :: post) =
        (v.follow (pre ++ [.setScale scale focus])).follow post := by
      rw [List.append_cons]
      exact List.foldl_append
    rw [hfollow, scale_follow hpost, hset]
  · rintro pre x post focus rfl hf
    have hfix : (v.follow pre).toScreen ((v.follow pre).toModel focus) = focus :=
      Transform.apply_invert (hne pre (List.prefix_append ..)) focus
    rw [follow_concat, toScreen_take, hfix, image_focus hf]
  · exact fun pre hp ↦ Transform.invert_apply (hne pre hp)
  · exact fun pre hp ↦ Transform.apply_invert (hne pre hp)

noncomputable def overzoomed : Viewport ℝ :=
  ⟨⟨⟨40, 12⟩, 2⟩, { ZoomPolicy.standard with maxZoom := 1 }⟩

theorem follow_composes_overzoomed :
    overzoomed.scale ≠ 0 ∧ overzoomed.refuses 3 = true ∧
      overzoomed.Composes [.zoom 3 ⟨100, 50⟩, .setScale 5 ⟨100, 50⟩, .pan ⟨15, -7⟩] ∧
      (overzoomed.follow [.zoom 3 ⟨100, 50⟩, .setScale 5 ⟨100, 50⟩, .pan ⟨15, -7⟩]).scale = 5 := by
  have hs : overzoomed.scale ≠ 0 := two_ne_zero
  have hrefused : overzoomed.refuses 3 = true := by
    simp only [refuses, overzoomed, scale, ExactArith.one_eq]
    norm_num
  have hx : ∀ x ∈ [ViewStep.zoom 3 ⟨100, 50⟩, .setScale 5 ⟨100, 50⟩, .pan ⟨15, -7⟩],
      ViewStep.Proper (α := ℝ) x := by
    simp [ViewStep.Proper]
  have h := follow_composes hs hx
  refine ⟨hs, hrefused, h, ?_⟩
  rw [h.scale_eq_of_set [.zoom 3 ⟨100, 50⟩] 5 ⟨100, 50⟩ [.pan ⟨15, -7⟩] rfl
    (by simp [ViewStep.setsScale])]
  exact one_mul 5

end Viewport

end Diagram
