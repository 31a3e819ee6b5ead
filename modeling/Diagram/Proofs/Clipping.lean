import Diagram.Proofs.Exact
import Diagram.Scene.Node
import Mathlib.Order.Bounds.Basic
import Mathlib.Tactic.FieldSimp

namespace Diagram

variable {α : Type} [ExactArith α]

/-- The point at `t` of the line that is at `p` for 0 and at `q` for 1. -/
def Point.toward (p q : Point α) (t : α) : Point α :=
  ⟨p.x + t * (q.x - p.x), p.y + t * (q.y - p.y)⟩

def Borders (center : Point α) (half : Offset α) (p : Point α) : Prop :=
  |p.x - center.x| = half.x ∧ |p.y - center.y| ≤ half.y ∨
    |p.y - center.y| = half.y ∧ |p.x - center.x| ≤ half.x

def Within (center : Point α) (half : Offset α) (p : Point α) : Prop :=
  |p.x - center.x| < half.x ∧ |p.y - center.y| < half.y

/-- When a ray from the center of a box, going by `d` in each unit of time, crosses the lines that
the sides of the box are on. -/
def exits (d half : Offset α) : Set α :=
  {t | d.x ≠ 0 ∧ t = half.x / |d.x| ∨ d.y ≠ 0 ∧ t = half.y / |d.y|}

/-- The ray leaves the box at `t`: it has come as far as one side, and no farther than any. -/
structure LeavesAt (d half : Offset α) (t : α) : Prop where
  pos : 0 < t
  le_x : t * |d.x| ≤ half.x
  le_y : t * |d.y| ≤ half.y
  meets : t * |d.x| = half.x ∨ t * |d.y| = half.y

variable {d half : Offset α} {inner outer p q : Point α} {s t u : α}

theorem leavesAt_of_x (hx : 0 < half.x) (hdx : d.x ≠ 0) (h : |d.y| * half.x ≤ half.y * |d.x|) :
    LeavesAt d half (half.x / |d.x|) where
  pos := div_pos hx (abs_pos.mpr hdx)
  le_x := (div_mul_cancel₀ _ (abs_ne_zero.mpr hdx)).le
  le_y := by
    rw [div_mul_eq_mul_div, div_le_iff₀ (abs_pos.mpr hdx), mul_comm half.x]
    exact h
  meets := .inl (div_mul_cancel₀ _ (abs_ne_zero.mpr hdx))

theorem leavesAt_of_y (hy : 0 < half.y) (hdy : d.y ≠ 0) (h : half.y * |d.x| ≤ |d.y| * half.x) :
    LeavesAt d half (half.y / |d.y|) where
  pos := div_pos hy (abs_pos.mpr hdy)
  le_x := by
    rw [div_mul_eq_mul_div, div_le_iff₀ (abs_pos.mpr hdy), mul_comm half.x]
    exact h
  le_y := (div_mul_cancel₀ _ (abs_ne_zero.mpr hdy)).le
  meets := .inr (div_mul_cancel₀ _ (abs_ne_zero.mpr hdy))

theorem LeavesAt.isLeast (h : LeavesAt d half t) (hx : 0 < half.x) (hy : 0 < half.y) :
    IsLeast (exits d half) t := by
  have hmem {c k : α} (hk : 0 < k) (hm : t * |c| = k) : c ≠ 0 ∧ t = k / |c| := by
    have hc : c ≠ 0 := by
      rintro rfl
      rw [abs_zero, mul_zero] at hm
      exact hk.ne hm
    exact ⟨hc, eq_div_of_mul_eq (abs_ne_zero.mpr hc) hm⟩
  constructor
  · exact h.meets.imp (hmem hx) (hmem hy)
  · rintro u (⟨hdx, rfl⟩ | ⟨hdy, rfl⟩)
    · exact (le_div_iff₀ (abs_pos.mpr hdx)).mpr h.le_x
    · exact (le_div_iff₀ (abs_pos.mpr hdy)).mpr h.le_y

theorem steep_iff (hx : 0 < half.x) (hdx : d.x ≠ 0) :
    half.y / half.x < d.y / d.x ∨ d.y / d.x < -(half.y / half.x) ↔
      half.y * |d.x| < |d.y| * half.x := by
  rw [lt_neg, ← lt_abs, abs_div, div_lt_div_iff₀ hx (abs_pos.mpr hdx)]

theorem boundaryPoint_flat (hx : 0 < half.x) (hdx : (outer - inner).x ≠ 0)
    (h : |(outer - inner).y| * half.x ≤ half.y * |(outer - inner).x|) :
    boundaryPoint outer inner half = inner.toward outer (half.x / |(outer - inner).x|) := by
  have hflat := not_or.mp (mt (steep_iff hx hdx).mp (not_lt.mpr h))
  simp only [Point.sub_x, Point.sub_y] at hdx hflat ⊢
  simp only [boundaryPoint, Point.toward, ExactArith.zero_eq, ExactArith.one_eq, beq_iff_eq,
    if_neg hdx, if_neg hflat.1, if_neg hflat.2]
  generalize outer.x - inner.x = dx at hdx
  generalize outer.y - inner.y = dy
  rcases lt_or_gt_of_ne hdx with hneg | hpos
  · rw [abs_of_neg hneg, if_neg (not_lt.mpr hneg.le), if_neg (not_lt.mpr hneg.le)]
    split
    · next hdy =>
      rw [hdy]
      ext
      · field_simp
        ring
      · ring
    · ext <;> field_simp
  · rw [abs_of_pos hpos, if_pos hpos, if_pos hpos]
    split
    · next hdy =>
      rw [hdy]
      ext
      · field_simp
      · ring
    · ext <;> field_simp

theorem ne_zero_of_steep (hy : 0 < half.y) (h : half.y * |d.x| < |d.y| * half.x) : d.y ≠ 0 := by
  intro hdy
  rw [hdy, abs_zero, zero_mul] at h
  exact h.not_ge (mul_nonneg hy.le (abs_nonneg _))

theorem boundaryPoint_steep (hx : 0 < half.x) (hy : 0 < half.y)
    (h : half.y * |(outer - inner).x| < |(outer - inner).y| * half.x) :
    boundaryPoint outer inner half = inner.toward outer (half.y / |(outer - inner).y|) := by
  have hdy := ne_zero_of_steep hy h
  have hsteep (hdx : (outer - inner).x ≠ 0) := (steep_iff hx hdx).mpr h
  have hdiagonal : 0 < half.y / half.x := div_pos hy hx
  simp only [Point.sub_x, Point.sub_y] at hdy hsteep ⊢
  simp only [boundaryPoint, Point.toward, ExactArith.zero_eq, ExactArith.one_eq, beq_iff_eq,
    if_neg hdy]
  generalize outer.x - inner.x = dx at hsteep
  generalize outer.y - inner.y = dy at hdy hsteep
  split
  · next hdx =>
    rw [hdx]
    rcases lt_or_gt_of_ne hdy with hneg | hpos
    · rw [abs_of_neg hneg, if_neg (not_lt.mpr hneg.le)]
      ext
      · ring
      · field_simp
        ring
    · rw [abs_of_pos hpos, if_pos hpos]
      ext
      · ring
      · field_simp
  · next hdx =>
    -- For either sign of the slope there are two of `dx` and `dy`, and the lines are mirrored.
    rcases hsteep hdx with hup | hdown
    · rw [if_pos hup]
      rcases div_pos_iff.mp (hdiagonal.trans hup) with ⟨hdy, hdx⟩ | ⟨hdy, hdx⟩
      · rw [abs_of_pos hdy, if_pos hdx]
        ext <;> field_simp
      · rw [abs_of_neg hdy, if_neg (not_lt.mpr hdx.le)]
        ext <;> field_simp
    · rw [if_neg (hdown.trans (neg_lt_self hdiagonal)).not_gt, if_pos hdown]
      rcases div_neg_iff.mp (hdown.trans (neg_neg_of_pos hdiagonal)) with ⟨hdy, hdx⟩ | ⟨hdy, hdx⟩
      · rw [abs_of_pos hdy, if_neg (not_lt.mpr hdx.le)]
        ext <;> field_simp <;> ring
      · rw [abs_of_neg hdy, if_pos hdx]
        ext <;> field_simp <;> ring

theorem boundaryPoint_leaves (hne : outer ≠ inner) (hx : 0 < half.x) (hy : 0 < half.y) :
    ∃ t, LeavesAt (outer - inner) half t ∧
      boundaryPoint outer inner half = inner.toward outer t := by
  rcases le_or_gt (|(outer - inner).y| * half.x) (half.y * |(outer - inner).x|) with h | h
  · have hdx : (outer - inner).x ≠ 0 := by
      intro hdx
      rw [hdx, abs_zero, mul_zero] at h
      have hdy : (outer - inner).y = 0 :=
        abs_nonpos_iff.mp (nonpos_of_mul_nonpos_left h hx)
      exact hne (Point.ext (sub_eq_zero.mp hdx) (sub_eq_zero.mp hdy))
    exact ⟨_, leavesAt_of_x hx hdx h, boundaryPoint_flat hx hdx h⟩
  · exact ⟨_, leavesAt_of_y hy (ne_zero_of_steep hy h) h.le, boundaryPoint_steep hx hy h⟩

theorem LeavesAt.borders (h : LeavesAt (q - p) half t) : Borders p half (p.toward q t) := by
  simp only [Borders, Point.toward, add_sub_cancel_left, abs_mul, abs_of_pos h.pos]
  exact h.meets.imp (⟨·, h.le_y⟩) (⟨·, h.le_x⟩)

theorem leavesAt_of_borders (hx : 0 < half.x) (hy : 0 < half.y) (hu : 0 ≤ u)
    (hb : Borders p half (p.toward q u)) : LeavesAt (q - p) half u := by
  have hpos {c k : α} (hk : 0 < k) (hc : u * |c| = k) : 0 < u :=
    pos_of_mul_pos_left (hk.trans_eq hc.symm) (abs_nonneg c)
  simp only [Borders, Point.toward, add_sub_cancel_left, abs_mul, abs_of_nonneg hu] at hb
  rcases hb with ⟨hm, hle⟩ | ⟨hm, hle⟩
  · exact ⟨hpos hx hm, hm.le, hle, .inl hm⟩
  · exact ⟨hpos hy hm, hle, hm.le, .inr hm⟩

theorem LeavesAt.not_within (h : LeavesAt (q - p) half t) (hu : t ≤ u) :
    ¬Within p half (p.toward q u) := by
  simp only [Within, Point.toward, add_sub_cancel_left, abs_mul, abs_of_pos (h.pos.trans_le hu)]
  rintro ⟨hwx, hwy⟩
  rcases h.meets with hm | hm
  · exact (hm ▸ mul_le_mul_of_nonneg_right hu (abs_nonneg _)).not_gt hwx
  · exact (hm ▸ mul_le_mul_of_nonneg_right hu (abs_nonneg _)).not_gt hwy

theorem LeavesAt.within (h : LeavesAt (q - p) half t) (hx : 0 < half.x) (hy : 0 < half.y)
    (ht : 1 < t) : Within p half q := by
  have hlt {c k : α} (hk : 0 < k) (hle : t * |c| ≤ k) : |c| < k := by
    rcases eq_or_ne c 0 with rfl | hc
    · rwa [abs_zero]
    · exact (lt_mul_of_one_lt_left (abs_pos.mpr hc) ht).trans_le hle
  exact ⟨hlt hx h.le_x, hlt hy h.le_y⟩

theorem Point.toward_one (p q : Point α) : p.toward q 1 = q := by
  simp only [toward, one_mul, add_sub_cancel]

/-- The point is where the ray from the center leaves the box, and the ray has no other on the border.
It is no farther away than `outer`, unless that is inside of the box. -/
theorem boundaryPoint_exact (outer inner : Point α) (half : Offset α) (hne : outer ≠ inner)
    (hx : 0 < half.x) (hy : 0 < half.y) : ∃ t, IsLeast (exits (outer - inner) half) t ∧ 0 < t ∧
      boundaryPoint outer inner half = inner.toward outer t ∧
      Borders inner half (boundaryPoint outer inner half) ∧
      (∀ u, 0 ≤ u → Borders inner half (inner.toward outer u) →
        inner.toward outer u = boundaryPoint outer inner half) ∧
      ((∃ u, 0 ≤ u ∧ u ≤ 1 ∧ inner.toward outer u = boundaryPoint outer inner half) ↔
        ¬Within inner half outer) := by
  obtain ⟨t, ht, hpoint⟩ := boundaryPoint_leaves hne hx hy
  have hunique {u : α} (hu : 0 ≤ u) (hb : Borders inner half (inner.toward outer u)) : u = t :=
    ((leavesAt_of_borders hx hy hu hb).isLeast hx hy).unique (ht.isLeast hx hy)
  rw [hpoint]
  refine ⟨t, ht.isLeast hx hy, ht.pos, rfl, ht.borders, fun u hu hb ↦ by rw [hunique hu hb], ?_⟩
  constructor
  · rintro ⟨u, hu, hle, heq⟩
    obtain rfl := hunique hu (heq ▸ ht.borders)
    rw [← inner.toward_one outer]
    exact ht.not_within hle
  · intro hout
    exact ⟨t, ht.pos.le, not_lt.mp (mt (ht.within hx hy) hout), rfl⟩

theorem boundaryPoint_exact_left :
    (⟨-3, 4⟩ : Point ℝ) ≠ ⟨1, 1⟩ ∧
      boundaryPoint ⟨-3, 4⟩ ⟨1, 1⟩ ⟨2, 1⟩ = (⟨-1 / 3, 2⟩ : Point ℝ) := by
  have hne : (⟨-3, 4⟩ : Point ℝ) ≠ ⟨1, 1⟩ := by simp
  obtain ⟨t, ht, -, hpoint, -⟩ := boundaryPoint_exact _ _ ⟨2, 1⟩ hne two_pos one_pos
  have hleaves : LeavesAt ((⟨-3, 4⟩ : Point ℝ) - (⟨1, 1⟩ : Point ℝ)) ⟨2, 1⟩ (1 / 3) := by
    constructor <;> norm_num
  have hthird : t = 1 / 3 := ht.unique (hleaves.isLeast two_pos one_pos)
  refine ⟨hne, ?_⟩
  rw [hpoint, hthird]
  ext <;> norm_num [Point.toward]

theorem Point.beq_iff {p q : Point α} : (p == q) = true ↔ p = q := by
  rw [Point.ext_iff]
  exact Bool.and_eq_true_iff.trans (and_congr beq_iff_eq beq_iff_eq)

theorem Point.toward_reverse (p q : Point α) (t : α) : q.toward p t = p.toward q (1 - t) := by
  ext <;> simp only [toward] <;> ring

theorem Point.toward_toward (p q : Point α) (s u v : α) :
    (p.toward q s).toward (p.toward q u) v = p.toward q (s + v * (u - s)) := by
  ext <;> simp only [toward] <;> ring

/-- Seen from either end of a line, boxes at the two ends that are apart on one of the axes are left
before they meet. -/
theorem LeavesAt.add_le_one {half' : Offset α} (h : LeavesAt (q - p) half s)
    (h' : LeavesAt (p - q) half' t) (hx : 0 < half.x + half'.x) (hy : 0 < half.y + half'.y)
    (hapart : half.x + half'.x ≤ |q.x - p.x| ∨ half.y + half'.y ≤ |q.y - p.y|) : s + t ≤ 1 := by
  have hle {c k k' : α} (hk : 0 < k + k') (hs : s * |c| ≤ k) (ht : t * |c| ≤ k')
      (hc : k + k' ≤ |c|) : s + t ≤ 1 := by
    refine le_of_mul_le_mul_right ?_ (hk.trans_le hc)
    calc (s + t) * |c| = s * |c| + t * |c| := add_mul s t |c|
      _ ≤ k + k' := add_le_add hs ht
      _ ≤ |c| := hc
      _ = 1 * |c| := (one_mul |c|).symm
  have hx' := h'.le_x
  have hy' := h'.le_y
  rw [Point.sub_x, abs_sub_comm] at hx'
  rw [Point.sub_y, abs_sub_comm] at hy'
  rcases hapart with hc | hc
  · exact hle hx h.le_x hx' hc
  · exact hle hy h.le_y hy' hc

/-- Between boxes that at most touch, the line of an edge runs forward along the line of the centers,
from the border of the one box to that of the other, and through the inside of neither. -/
theorem reroute_forward (e : Edge α) (a b : Node α) (hne : a.position ≠ b.position)
    (hax : 0 < a.clipHalf.x) (hay : 0 < a.clipHalf.y) (hbx : 0 < b.clipHalf.x)
    (hby : 0 < b.clipHalf.y)
    (hapart : a.clipHalf.x + b.clipHalf.x ≤ |b.position.x - a.position.x| ∨
      a.clipHalf.y + b.clipHalf.y ≤ |b.position.y - a.position.y|) :
    ∃ s u, 0 < s ∧ s ≤ u ∧ u < 1 ∧
      (e.reroute a b).start = a.position.toward b.position s ∧
      (e.reroute a b).finish = a.position.toward b.position u ∧
      Borders a.position a.clipHalf (e.reroute a b).start ∧
      Borders b.position b.clipHalf (e.reroute a b).finish ∧
      ∀ v, 0 ≤ v → v ≤ 1 →
        ¬Within a.position a.clipHalf ((e.reroute a b).start.toward (e.reroute a b).finish v) ∧
        ¬Within b.position b.clipHalf ((e.reroute a b).start.toward (e.reroute a b).finish v) := by
  obtain ⟨s, hs, hstart⟩ := boundaryPoint_leaves hne.symm hax hay
  obtain ⟨w, hw, hfinish⟩ := boundaryPoint_leaves hne hbx hby
  have hsw : s + w ≤ 1 :=
    hs.add_le_one hw (add_pos hax hbx) (add_pos hay hby) hapart
  have hline : lineBetween a b =
      (a.position.toward b.position s, b.position.toward a.position w) := by
    rw [lineBetween, if_neg (mt Point.beq_iff.mp hne), hstart, hfinish]
  -- On the way from `a`, the box around `b` is entered at `1 - w`.
  have hreverse := Point.toward_reverse a.position b.position w
  have hborders := hw.borders
  simp only [Edge.reroute, hline]
  rw [hreverse] at hborders ⊢
  refine ⟨s, 1 - w, hs.pos, by linarith, by linarith [hw.pos], rfl, rfl, hs.borders, hborders, ?_⟩
  intro v h₀ h₁
  rw [Point.toward_toward]
  have hlow : s ≤ s + v * (1 - w - s) :=
    le_add_of_nonneg_right (mul_nonneg h₀ (by linarith))
  have hhigh : w ≤ 1 - (s + v * (1 - w - s)) := by
    have hmul := mul_le_of_le_one_left (show 0 ≤ 1 - w - s by linarith) h₁
    linarith
  refine ⟨hs.not_within hlow, ?_⟩
  have hnot := hw.not_within hhigh
  rwa [Point.toward_reverse, sub_sub_cancel] at hnot

noncomputable def touching : Node ℝ × Node ℝ :=
  (.create .standard "a" "a" ⟨0, 0⟩ "ready", .create .standard "b" "wide" ⟨38, 7⟩ "ready")

theorem touching_clipHalf :
    touching.1.clipHalf = ⟨29 / 2, 33 / 2⟩ ∧ touching.2.clipHalf = ⟨47 / 2, 33 / 2⟩ := by
  have hlen : "wide".length = 4 := rfl
  have hlen' : "a".length = 1 := rfl
  constructor <;> ext <;>
    norm_num [touching, Node.create, Node.clipHalf, Size.grow, Size.half, NodeMetrics.standard,
      ExactArith.ofScientific_eq, hlen, hlen']

theorem reroute_forward_touching : ∃ s u : ℝ, 0 < s ∧ s ≤ u ∧ u < 1 ∧
    (Edge.create 0 1 "ready" touching.1 touching.2).start = Point.toward ⟨0, 0⟩ ⟨38, 7⟩ s ∧
    (Edge.create 0 1 "ready" touching.1 touching.2).finish = Point.toward ⟨0, 0⟩ ⟨38, 7⟩ u := by
  obtain ⟨ha, hb⟩ := touching_clipHalf
  have hne : touching.1.position ≠ touching.2.position := by simp [touching, Node.create]
  have hapart : touching.1.clipHalf.x + touching.2.clipHalf.x ≤
      |touching.2.position.x - touching.1.position.x| := by
    rw [ha, hb]
    norm_num [touching, Node.create]
  obtain ⟨s, u, hs, hsu, hu, hstart, hfinish, -⟩ :=
    reroute_forward (.create 0 1 "ready" touching.1 touching.2) touching.1 touching.2 hne
      (by norm_num [ha]) (by norm_num [ha]) (by norm_num [hb]) (by norm_num [hb]) (.inl hapart)
  exact ⟨s, u, hs, hsu, hu, hstart, hfinish⟩

end Diagram
