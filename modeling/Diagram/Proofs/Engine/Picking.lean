import Diagram.Proofs.Exact
import Diagram.Proofs.Engine.Pointing
import Diagram.Proofs.Engine.Runs

namespace Diagram

def Frame.topmost? {α : Type} [Arith α] (f : Frame α) (p : Point α) : Option (NodeShape α) :=
  (f.nodes.filter fun n ↦ n.rect.contains p).getLast?

variable {α : Type} [ExactArith α]

theorem Point.isZero_sub_iff {p q : Point α} : (p - q).isZero = true ↔ p = q := by
  simp [Offset.isZero, Point.ext_iff, sub_eq_zero]

theorem Node.contains_position {n : Node α} (hw : 0 ≤ n.size.width) (hh : 0 ≤ n.size.height) :
    n.bounds.contains n.position = true := by
  simp only [bounds, Rect.centered, Rect.contains, Rect.opposite, Size.half, ExactArith.two_eq,
    Bool.and_eq_true, decide_eq_true_eq]
  refine ⟨⟨⟨?_, ?_⟩, ?_⟩, ?_⟩ <;> linarith

namespace Transform

theorem contains_applyRect {t : Transform α} (ht : 0 < t.scale) (r : Rect α) (p : Point α) :
    (t.applyRect r).contains p = r.contains (t.invert p) := by
  have hlow (shift a x : α) : shift + t.scale * a ≤ x ↔ a ≤ (x - shift) / t.scale := by
    rw [le_div_iff₀ ht]
    constructor <;> intro h <;> linarith
  have hhigh (shift a b x : α) :
      x ≤ shift + t.scale * a + b * t.scale ↔ (x - shift) / t.scale ≤ a + b := by
    rw [div_le_iff₀ ht]
    constructor <;> intro h <;> linarith
  simp only [Rect.contains, Rect.opposite, applyRect, apply, invert, hlow, hhigh]
  rfl

end Transform

namespace Engine

variable {e e' : Engine α}

theorem nodeAt?_eq_topmost (hs : 0 < e.viewport.scale) (p : Point α) :
    e.nodeAt? p = (e.render.topmost? p).map NodeShape.id := by
  have hc (n : Node α) : (NodeShape.ofNode e.viewport.transform e.config.palette n).rect.contains p =
      n.bounds.contains (e.viewport.toModel p) :=
    Transform.contains_applyRect hs n.bounds p
  have hf : e.render.topmost? p = (e.scene.nodeAt? (e.viewport.toModel p)).map
      (NodeShape.ofNode e.viewport.transform e.config.palette) := by
    simp only [Frame.topmost?, render, Frame.ofScene, List.filter_map, List.getLast?_map,
      List.getLast?_filter, Scene.nodeAt?, Function.comp_def, hc]
  rw [hf, Option.map_map]
  rfl

/-- The pointer comes to a point, is pressed, is told `n` times that it is still there, and is
released. -/
def click (p : Point α) (n : Nat) : List (EngineInput α) :=
  .hover p :: .press p :: (List.replicate n (.move p) ++ [.release])

theorem next_move_still {intent : DragIntent} {target : Option String}
    (hg : e.pointer.gesture = .pressed intent target) :
    e.next? (.move e.pointer.last) = some e := by
  have hz : (e.pointer.last - e.pointer.last).isZero = true := Point.isZero_sub_iff.mpr rfl
  simp only [next?, step?, Pointer.move, hg, hz, ↓reduceIte]
  rfl

theorem run_moves_still {intent : DragIntent} {target : Option String}
    (hg : e.pointer.gesture = .pressed intent target) (n : Nat) :
    e.run? (List.replicate n (.move e.pointer.last)) = some e := by
  induction n with
  | zero => rfl
  | succ n ih =>
    rw [List.replicate_succ, run?_cons_of_next (next_move_still hg), ih]

theorem run_click (e : Engine α) (p : Point α) (n : Nat) : ∃ pointer,
    e.run? (click p n) = some { e with
      pointer
      scene := (e.nodeAt? p).elim e.scene fun id ↦ e.scene.edit (.select id) } := by
  let hovering : Pointer α := { e.pointer with hovered := e.nodeAt? p }
  let down : Pointer α := hovering.press p e.scene
  have hg : down.gesture = .pressed (hovering.intent e.scene) (e.nodeAt? p) := rfl
  have hover : e.next? (.hover p) = some { e with pointer := hovering } :=
    congrArg some (hoverAt_eq e p)
  have press : { e with pointer := hovering }.next? (.press p) =
      some { e with pointer := down } := rfl
  have moves : { e with pointer := down }.run? (List.replicate n (.move p)) =
      some { e with pointer := down } := run_moves_still hg n
  have release := next_release_pressed (e := { e with pointer := down }) hg
  refine ⟨{ down with gesture := .idle }, ?_⟩
  simp only [click, run?_cons, run?_append, hover, press, moves, release, Option.bind_eq_bind,
    Option.bind_some]
  rfl

/-- What a click on a shape, or beside all of them, makes of an engine. -/
structure Clicked (e : Engine α) (shape : Option (NodeShape α)) (e' : Engine α) : Prop where
  viewport_eq : e'.viewport = e.viewport
  positions_eq : e'.scene.nodes.map Node.position = e.scene.nodes.map Node.position
  selected : ∀ s, shape = some s →
    e'.selectedId? = some s.id ∧ ∀ n ∈ e'.scene.nodes, n.selected = true ↔ n.id = s.id
  untouched : shape = none → e'.scene = e.scene

/-- Hovering and clicking go by what is drawn. -/
theorem click_topmost {c : Config α} {inputs : List (EngineInput α)}
    (h : (create c).run? inputs = some e) (hs : 0 < e.viewport.scale) (p : Point α) :
    e.nodeAt? p = (e.render.topmost? p).map NodeShape.id ∧
      (e.hoverAt p).pointer.hovered = (e.render.topmost? p).map NodeShape.id ∧
      ∀ n, ∃ e', e.run? (click p n) = some e' ∧ e.Clicked (e.render.topmost? p) e' := by
  have hat := nodeAt?_eq_topmost hs p
  refine ⟨hat, ?_, fun n ↦ ?_⟩
  · rw [hoverAt_eq, ← hat]
  obtain ⟨pointer, hr⟩ := run_click e p n
  refine ⟨_, hr, ?_⟩
  have hsound := (run_scene h).2.sound
  cases ht : e.render.topmost? p with
  | none =>
    rw [ht, Option.map_none] at hat
    rw [hat]
    exact ⟨rfl, rfl, nofun, fun _ ↦ rfl⟩
  | some shape =>
    rw [ht, Option.map_some] at hat
    obtain ⟨node, hn, hid⟩ := Option.map_eq_some_iff.mp hat
    have hmem : node ∈ e.scene.nodes := by
      simpa using List.mem_of_find?_eq_some hn
    obtain ⟨s', hsel⟩ := hsound.select_exists hmem
    rw [hid] at hsel
    rw [hat]
    simp only [Option.elim_some, Scene.edit_select hsel]
    have hb := congrArg Scene.nodes (Scene.bare_select hsel)
    refine ⟨rfl, ?_, ?_, nofun⟩
    · simpa [Scene.bare, Node.bare, Function.comp_def] using congrArg (Array.map Node.position) hb
    · rintro _ ⟨⟩
      exact hsound.select_marks hsel

def stacked : Payload ℝ := ⟨[⟨"a", none, 0, 0, "ready"⟩, ⟨"b", none, 0, 0, "ready"⟩], []⟩

theorem click_topmost_stacked : ∃ e e' : Engine ℝ,
    (create .standard).run? [.load stacked] = some e ∧ 0 < e.viewport.scale ∧
      e.run? (click .origin 2) = some e' ∧ e'.selectedId? = some "b" := by
  let a : Node ℝ := .create .standard "a" "a" ⟨0, 0⟩ "ready"
  let b : Node ℝ := .create .standard "b" "b" ⟨0, 0⟩ "ready"
  obtain ⟨s, hs, hn⟩ : ∃ s, (create .standard).sceneOf stacked = .ok s ∧ s.nodes = #[a, b] := by
    simp [sceneOf, stacked, create, Scene.addNode, Scene.empty, Scene.record, Scene.setEnabled,
      Scene.setEnabledHandles, Config.standard, Config.isTerminal, NodeEntry.shownLabel, Node.create,
      Functor.map, Except.map, bind, Except.bind, pure, Except.pure, a, b]
  let e : Engine ℝ := { create .standard with scene := s }
  have hr : (create .standard).run? [.load stacked] = some e := by
    simp only [run?_cons, next?, step?, load, hs, bind, Except.bind, pure, Except.pure]
    rfl
  have hscale : 0 < e.viewport.scale := by
    simp [e, create, Viewport.unmoved, Viewport.scale, Transform.identity]
  have hw : 0 ≤ b.size.width := by
    simp only [b, Node.create, NodeMetrics.standard, ExactArith.ofNat_cast,
      ExactArith.ofScientific_eq]
    positivity
  have hh : 0 ≤ b.size.height := by
    simp only [b, Node.create, NodeMetrics.standard, ExactArith.ofScientific_eq]
    positivity
  have hmodel : e.viewport.toModel .origin = b.position := by
    simp [Viewport.toModel, Transform.invert, Point.origin, e, b, create, Viewport.unmoved,
      Transform.identity, Node.create, Offset.zero]
  have hat : e.nodeAt? .origin = some "b" := by
    simp [nodeAt?, Scene.nodeAt?, hmodel, e, hn, Node.contains_position hw hh]
    rfl
  obtain ⟨htop, -, hc⟩ := click_topmost hr hscale .origin
  obtain ⟨e', hr', hc⟩ := hc 2
  rw [hat, eq_comm, Option.map_eq_some_iff] at htop
  obtain ⟨shape, hshape, hid⟩ := htop
  exact ⟨e, e', hr, hscale, hr', hid ▸ (hc.selected shape hshape).1⟩

end Engine

end Diagram
