import Mathlib.Order.Bounds.Image
import Diagram.Proofs.Exact
import Diagram.Frame

namespace Diagram

variable {α : Type}

def Node.extent (n : Node α) : Point α × Size α := (n.position, n.size)

namespace BoundingBox

variable [Arith α]

def low (b : BoundingBox α) : Point α := ⟨b.minX, b.minY⟩

def high (b : BoundingBox α) : Point α := ⟨b.maxX, b.maxY⟩

def around (xs : List (Point α × Size α)) : BoundingBox α :=
  xs.foldl (fun b x ↦ b.cover x.1 x.2.half) .empty

theorem around_concat (xs : List (Point α × Size α)) (x : Point α × Size α) :
    around (xs ++ [x]) = (around xs).cover x.1 x.2.half := by
  simp only [around, List.foldl_append, List.foldl_cons, List.foldl_nil]

theorem around_eq (xs : List (Point α × Size α)) : around xs =
    { left := (xs.map fun x ↦ x.1.x - x.2.half.x).foldl lower none
      top := (xs.map fun x ↦ x.1.y - x.2.half.y).foldl lower none
      right := (xs.map fun x ↦ x.1.x + x.2.half.x).foldl raise none
      bottom := (xs.map fun x ↦ x.1.y + x.2.half.y).foldl raise none } := by
  have h (b : BoundingBox α) : xs.foldl (fun b x ↦ b.cover x.1 x.2.half) b =
      { left := (xs.map fun x ↦ x.1.x - x.2.half.x).foldl lower b.left
        top := (xs.map fun x ↦ x.1.y - x.2.half.y).foldl lower b.top
        right := (xs.map fun x ↦ x.1.x + x.2.half.x).foldl raise b.right
        bottom := (xs.map fun x ↦ x.1.y + x.2.half.y).foldl raise b.bottom } := by
    induction xs generalizing b with
    | nil => rfl
    | cons x xs ih => exact ih (b.cover x.1 x.2.half)
  exact h .empty

end BoundingBox

section Exact

variable [ExactArith α]

/-- The corners of the smallest box around some rectangles. -/
structure Spans (rs : List (Rect α)) (low high : Point α) : Prop where
  left : IsLeast {x | x ∈ rs.map fun r ↦ r.corner.x} low.x
  top : IsLeast {y | y ∈ rs.map fun r ↦ r.corner.y} low.y
  right : IsGreatest {x | x ∈ rs.map fun r ↦ r.opposite.x} high.x
  bottom : IsGreatest {y | y ∈ rs.map fun r ↦ r.opposite.y} high.y

omit [ExactArith α] in
theorem setOf_mem_map (f : α → α) (xs : List α) : {x | x ∈ xs.map f} = f '' {x | x ∈ xs} := by
  ext y
  simp

namespace Spans

variable {rs : List (Rect α)} {low high : Point α}

theorem width_le (h : Spans rs low high) {r : Rect α} (hr : r ∈ rs) :
    r.size.width ≤ high.x - low.x := by
  have hleft : low.x ≤ r.corner.x := h.left.2 (List.mem_map.mpr ⟨r, hr, rfl⟩)
  have hright : r.corner.x + r.size.width ≤ high.x := h.right.2 (List.mem_map.mpr ⟨r, hr, rfl⟩)
  linarith

theorem height_le (h : Spans rs low high) {r : Rect α} (hr : r ∈ rs) :
    r.size.height ≤ high.y - low.y := by
  have htop : low.y ≤ r.corner.y := h.top.2 (List.mem_map.mpr ⟨r, hr, rfl⟩)
  have hbottom : r.corner.y + r.size.height ≤ high.y := h.bottom.2 (List.mem_map.mpr ⟨r, hr, rfl⟩)
  linarith

theorem applyRect (h : Spans rs low high) {t : Transform α} (ht : 0 < t.scale) :
    Spans (rs.map t.applyRect) (t.apply low) (t.apply high) := by
  have hmono (shift : α) : Monotone fun x ↦ shift + t.scale * x := by
    intro a b hab
    exact add_le_add_right (mul_le_mul_of_nonneg_left hab ht.le) shift
  have hopposite (r : Rect α) : (t.applyRect r).opposite = t.apply r.opposite := by
    simp only [Transform.applyRect, Transform.apply, Rect.opposite]
    ext <;> ring
  refine ⟨?_, ?_, ?_, ?_⟩
  · have hx := (hmono t.shift.x).map_isLeast h.left
    rw [← setOf_mem_map, List.map_map] at hx
    rwa [List.map_map]
  · have hy := (hmono t.shift.y).map_isLeast h.top
    rw [← setOf_mem_map, List.map_map] at hy
    rwa [List.map_map]
  · have hx := (hmono t.shift.x).map_isGreatest h.right
    rw [← setOf_mem_map, List.map_map] at hx
    simp only [List.map_map, Function.comp_def, hopposite] at hx ⊢
    exact hx
  · have hy := (hmono t.shift.y).map_isGreatest h.bottom
    rw [← setOf_mem_map, List.map_map] at hy
    simp only [List.map_map, Function.comp_def, hopposite] at hy ⊢
    exact hy

end Spans

theorem isLeast_of_min? {xs : List α} {a : α} (h : xs.min? = some a) : IsLeast {x | x ∈ xs} a := by
  obtain ⟨hmem, hle⟩ := List.min?_eq_some_iff.mp h
  exact ⟨hmem, hle⟩

theorem isGreatest_of_max? {xs : List α} {a : α} (h : xs.max? = some a) :
    IsGreatest {x | x ∈ xs} a := by
  obtain ⟨hmem, hle⟩ := List.max?_eq_some_iff.mp h
  exact ⟨hmem, hle⟩

theorem min?_perm {xs ys : List α} (h : xs.Perm ys) : xs.min? = ys.min? := by
  ext a
  simp only [List.min?_eq_some_iff, h.mem_iff]

theorem max?_perm {xs ys : List α} (h : xs.Perm ys) : xs.max? = ys.max? := by
  ext a
  simp only [List.max?_eq_some_iff, h.mem_iff]

namespace BoundingBox

theorem lower_some (s v : α) : lower (some s) v = some (min s v) := by
  simp only [lower, BEq.rfl, ↓reduceIte, Option.elim_some, Option.some.injEq]
  split
  · next h => exact (min_eq_right h.le).symm
  · next h => exact (min_eq_left (not_lt.mp h)).symm

theorem raise_some (s v : α) : raise (some s) v = some (max s v) := by
  simp only [raise, BEq.rfl, ↓reduceIte, Option.elim_some, Option.some.injEq]
  split
  · next h => exact (max_eq_right h.le).symm
  · next h => exact (max_eq_left (not_lt.mp h)).symm

omit [ExactArith α] in
theorem foldl_some {f : Option α → α → Option α} {g : α → α → α}
    (hf : ∀ s v, f (some s) v = some (g s v)) (s : α) (xs : List α) :
    xs.foldl f (some s) = some (xs.foldl g s) := by
  induction xs generalizing s with
  | nil => rfl
  | cons v xs ih => rw [List.foldl_cons, hf, ih, List.foldl_cons]

theorem foldl_lower (xs : List α) : xs.foldl lower none = xs.min? := by
  cases xs with
  | nil => rfl
  | cons v xs =>
    have hv : lower none v = some v := by simp [lower]
    rw [List.foldl_cons, hv, foldl_some lower_some, List.min?_cons']

theorem foldl_raise (xs : List α) : xs.foldl raise none = xs.max? := by
  cases xs with
  | nil => rfl
  | cons v xs =>
    have hv : raise none v = some v := by simp [raise]
    rw [List.foldl_cons, hv, foldl_some raise_some, List.max?_cons']

variable {xs ys : List (Point α × Size α)}

theorem around_perm (h : xs.Perm ys) : around xs = around ys := by
  simp only [around_eq, foldl_lower, foldl_raise, min?_perm (h.map _), max?_perm (h.map _)]

theorem around_sides (hne : xs ≠ []) : ∃ l t r b,
    around xs = ⟨some l, some t, some r, some b⟩ ∧
      Spans (xs.map fun x ↦ Rect.centered x.1 x.2) ⟨l, t⟩ ⟨r, b⟩ := by
  have hmin (f : Point α × Size α → α) : ∃ a, (xs.map f).min? = some a :=
    Option.isSome_iff_exists.mp (List.isSome_min?_of_ne_nil (by simpa using hne))
  have hmax (f : Point α × Size α → α) : ∃ a, (xs.map f).max? = some a :=
    Option.isSome_iff_exists.mp (List.isSome_max?_of_ne_nil (by simpa using hne))
  obtain ⟨l, hl⟩ := hmin fun x ↦ x.1.x - x.2.half.x
  obtain ⟨t, ht⟩ := hmin fun x ↦ x.1.y - x.2.half.y
  obtain ⟨r, hr⟩ := hmax fun x ↦ x.1.x + x.2.half.x
  obtain ⟨b, hb⟩ := hmax fun x ↦ x.1.y + x.2.half.y
  have hopposite (x : Point α × Size α) : (Rect.centered x.1 x.2).opposite =
      ⟨x.1.x + x.2.half.x, x.1.y + x.2.half.y⟩ := by
    simp only [Rect.centered, Rect.opposite, Size.half, ExactArith.two_eq]
    ext <;> ring
  refine ⟨l, t, r, b, ?_, ?_, ?_, ?_, ?_⟩
  · rw [around_eq, foldl_lower, foldl_lower, foldl_raise, foldl_raise, hl, ht, hr, hb]
  · rw [List.map_map]
    exact isLeast_of_min? hl
  · rw [List.map_map]
    exact isLeast_of_min? ht
  · simp only [List.map_map, Function.comp_def, hopposite]
    exact isGreatest_of_max? hr
  · simp only [List.map_map, Function.comp_def, hopposite]
    exact isGreatest_of_max? hb

theorem spans_around (hne : xs ≠ []) :
    Spans (xs.map fun x ↦ Rect.centered x.1 x.2) (around xs).low (around xs).high := by
  obtain ⟨l, t, r, b, hbox, hspans⟩ := around_sides hne
  rw [hbox]
  exact hspans

theorem isEmpty_around (hne : xs ≠ []) (hsize : ∀ x ∈ xs, 0 ≤ x.2.width ∧ 0 ≤ x.2.height) :
    (around xs).isEmpty = false := by
  obtain ⟨l, t, r, b, hbox, hspans⟩ := around_sides hne
  obtain ⟨x, hx⟩ := List.exists_mem_of_ne_nil xs hne
  have hmem := List.mem_map_of_mem (f := fun x ↦ Rect.centered x.1 x.2) hx
  have hwidth : x.2.width ≤ r - l := hspans.width_le hmem
  have hheight : x.2.height ≤ b - t := hspans.height_le hmem
  obtain ⟨hw, hh⟩ := hsize x hx
  have hlr : ¬ r < l := by linarith
  have htb : ¬ b < t := by linarith
  simp [hbox, isEmpty, isEmptySpan, hlr, htb]

end BoundingBox

end Exact

end Diagram
