import Diagram.Frame
import Diagram.Proofs.Composing
import Diagram.Proofs.Scene.Routing
import Diagram.Proofs.Scene.Selecting

namespace Diagram

variable {α β γ : Type}

theorem getElem?_filterMap {f : β → Option γ} {xs : List β} (h : ∀ x ∈ xs, (f x).isSome)
    (k : Nat) : (xs.filterMap f)[k]? = xs[k]? >>= f := by
  induction xs generalizing k with
  | nil => rfl
  | cons x xs ih =>
    obtain ⟨hx, hxs⟩ := List.forall_mem_cons.mp h
    obtain ⟨y, hy⟩ := Option.isSome_iff_exists.mp hx
    rw [List.filterMap_cons_some hy]
    cases k with
    | zero => exact hy.symm
    | succ k => exact ih hxs k

namespace Scene

variable {s : Scene α}

theorem Indexed.find?_id (hs : s.Indexed) (id : String) :
    s.nodes.toList.find? (·.id == id) = s.node? id := by
  cases hf : s.nodes.toList.find? (·.id == id) with
  | none =>
    cases hh : s.handle? id with
    | none => rw [node?, hh, Option.bind_eq_bind, Option.bind_none]
    | some h =>
      obtain ⟨n, hn, hid⟩ := hs.node_of_handle hh
      have hmem := Array.mem_toList_iff.mpr (Array.mem_of_getElem? hn)
      exact absurd (beq_iff_eq.mpr hid) (List.find?_eq_none.mp hf n hmem)
  | some n =>
    have hmem := Array.mem_toList_iff.mp (List.mem_of_find?_eq_some hf)
    obtain ⟨h, hn⟩ := Array.mem_iff_getElem?.mp hmem
    have hbeq : (n.id == id) = true := List.find?_some (p := fun m : Node α ↦ m.id == id) hf
    have hid : n.id = id := eq_of_beq hbeq
    rw [node?, ← hid, hs.handle_of_node hn, Option.bind_eq_bind, Option.bind_some, hn]

end Scene

section Drawing

variable [Arith α]

theorem EdgeLine.ofEdge?_eq {s : Scene α} {e : Edge α} {a b : Node α}
    (ha : s.nodes[e.source]? = some a) (hb : s.nodes[e.target]? = some b) (t : Transform α)
    (p : Palette) : ofEdge? t p s e =
      some ⟨a.id, b.id, t.apply e.start, t.apply e.finish, p.edgeColor e.status⟩ := by
  simp only [ofEdge?, ha, hb]
  rfl

/-- A frame that shows each node and each edge of a scene in its place, and nothing else. -/
structure Frame.Shows (f : Frame α) (s : Scene α) (t : Transform α) (p : Palette) : Prop where
  length_nodes : f.nodes.length = s.nodes.size
  node : ∀ {h : Nat} {n : Node α}, s.nodes[h]? = some n →
    f.nodes[h]? = some (.ofNode t p n)
  node?_eq : ∀ id, f.node? id = (s.node? id).map (.ofNode t p)
  length_edges : f.edges.length = s.edges.size
  edge : ∀ {k : Nat} {e : Edge α}, s.edges[k]? = some e →
    ∃ a b, s.nodes[e.source]? = some a ∧ s.nodes[e.target]? = some b ∧ f.edges[k]? =
      some ⟨a.id, b.id, t.apply e.start, t.apply e.finish, p.edgeColor e.status⟩

theorem Scene.Sound.shows {s : Scene α} (hs : s.Sound) (t : Transform α) (p : Palette) :
    (Frame.ofScene s t p).Shows s t p := by
  have hends {e : Edge α} (he : e ∈ s.edges) :
      ∃ a b, s.nodes[e.source]? = some a ∧ s.nodes[e.target]? = some b := by
    have hlt := hs.linked.ends_lt e he
    exact ⟨_, _, Array.getElem?_eq_getElem hlt.1, Array.getElem?_eq_getElem hlt.2⟩
  have hdrawn : ∀ e ∈ s.edges.toList, (EdgeLine.ofEdge? t p s e).isSome := by
    intro e he
    obtain ⟨a, b, ha, hb⟩ := hends (Array.mem_toList_iff.mp he)
    rw [EdgeLine.ofEdge?_eq ha hb, Option.isSome_some]
  constructor
  case length_nodes => rw [Frame.ofScene, List.length_map, Array.length_toList]
  case node =>
    intro h n hn
    rw [Frame.ofScene, List.getElem?_map, Array.getElem?_toList, hn, Option.map_some]
  case node?_eq =>
    intro id
    rw [Frame.node?, Frame.ofScene, List.find?_map, ← hs.indexed.find?_id]
    rfl
  case length_edges => rw [Frame.ofScene, List.filterMap_length_eq_length.mpr hdrawn, Array.length_toList]
  case edge =>
    intro k e he
    obtain ⟨a, b, ha, hb⟩ := hends (Array.mem_of_getElem? he)
    refine ⟨a, b, ha, hb, ?_⟩
    rw [Frame.ofScene, getElem?_filterMap hdrawn, Array.getElem?_toList, he, Option.bind_eq_bind,
      Option.bind_some, EdgeLine.ofEdge?_eq ha hb]

def NodeShape.through (n : NodeShape α) (u : Transform α) : NodeShape α :=
  { n with rect := ⟨u.apply n.rect.corner,
    ⟨n.rect.size.width * u.scale, n.rect.size.height * u.scale⟩⟩ }

def EdgeLine.through (l : EdgeLine α) (u : Transform α) : EdgeLine α :=
  { l with start := u.apply l.start, finish := u.apply l.finish }

def Frame.through (f : Frame α) (u : Transform α) : Frame α :=
  { f with
    transform := f.transform.next u
    nodes := f.nodes.map (·.through u)
    edges := f.edges.map (·.through u) }

end Drawing

section Exact

variable [ExactArith α]

theorem NodeShape.ofNode_next (t u : Transform α) (p : Palette) (n : Node α) :
    ofNode (t.next u) p n = (ofNode t p n).through u := by
  have hscale (x : α) : x * (t.next u).scale = x * t.scale * u.scale := by
    rw [mul_assoc, mul_comm t.scale]
    rfl
  simp only [ofNode, through, Transform.applyRect, Transform.apply_next, hscale]

theorem NodeShape.opposite_through (n : NodeShape α) (u : Transform α) :
    (n.through u).rect.opposite = u.apply n.rect.opposite := by
  simp only [through, Rect.opposite, Transform.apply, Point.mk.injEq]
  constructor <;> ring

theorem EdgeLine.ofEdge?_next (t u : Transform α) (p : Palette) (s : Scene α) (e : Edge α) :
    ofEdge? (t.next u) p s e = (ofEdge? t p s e).map (·.through u) := by
  unfold ofEdge?
  cases s.nodes[e.source]? with
  | none => rfl
  | some a =>
    cases s.nodes[e.target]? with
    | none => rfl
    | some b =>
      simp only [Option.bind_eq_bind, Option.bind_some, Transform.apply_next]
      rfl

theorem Frame.ofScene_next (s : Scene α) (t u : Transform α) (p : Palette) :
    ofScene s (t.next u) p = (ofScene s t p).through u := by
  have hnodes : s.nodes.toList.map (NodeShape.ofNode (t.next u) p) =
      (s.nodes.toList.map (NodeShape.ofNode t p)).map (·.through u) := by
    rw [List.map_map]
    exact List.map_congr_left fun n _ ↦ NodeShape.ofNode_next t u p n
  have hedges : s.edges.toList.filterMap (EdgeLine.ofEdge? (t.next u) p s) =
      (s.edges.toList.filterMap (EdgeLine.ofEdge? t p s)).map (·.through u) := by
    rw [List.map_filterMap]
    exact List.filterMap_congr fun e _ ↦ EdgeLine.ofEdge?_next t u p s e
  simp only [ofScene, through, hnodes, hedges]

end Exact

/-- A frame leaves out nothing of a scene and finds each node by its id. Without rounding, to change
the view and then draw is to draw and then change what was drawn. -/
theorem Frame.ofScene_shows [Arith α] [ExactArith β] {metrics : NodeMetrics α} {s : Scene α}
    (hs : s.Reachable metrics) (t : Transform α) (p : Palette) (s' : Scene β) (t' u : Transform β) :
    (ofScene s t p).Shows s t p ∧ ofScene s' (t'.next u) p = (ofScene s' t' p).through u ∧
      ∀ n ∈ (ofScene s' t' p).nodes, (n.through u).rect.opposite = u.apply n.rect.opposite :=
  ⟨hs.sound.shows t p, ofScene_next s' t' u p, fun n _ ↦ n.opposite_through u⟩

theorem Frame.ofScene_shows_loop :
    (ofScene (.run .standard Scene.movedLoop) (.shifting ⟨5.0, 7.0⟩) .standard).edges.length = 1 ∧
      ofScene (.run .standard [.addNode "a" "A" ⟨3, 4⟩ "ready"] : Scene ℝ)
          (Transform.identity.next (.scalingAbout 2 ⟨1, 1⟩)) .standard =
        (ofScene (.run .standard [.addNode "a" "A" ⟨3, 4⟩ "ready"]) .identity .standard).through
          (.scalingAbout 2 ⟨1, 1⟩) := by
  have hs : (Scene.run .standard Scene.movedLoop).Reachable .standard := ⟨Scene.movedLoop, 0, rfl⟩
  have h := ofScene_shows hs (.shifting ⟨5.0, 7.0⟩) .standard
    (.run .standard [.addNode "a" "A" ⟨3, 4⟩ "ready"] : Scene ℝ) .identity (.scalingAbout 2 ⟨1, 1⟩)
  refine ⟨?_, h.2.1⟩
  rw [h.1.length_edges]
  simp [Scene.run, Scene.movedLoop, Scene.edit, Scene.perform, Scene.addNode, Scene.addEdge,
    Scene.moveNode, Scene.moveHandle, Scene.endpoint, Scene.handle?, Scene.require, Scene.record,
    Scene.empty, Node.create, Node.edges, bind, Except.bind, pure, Except.pure]

end Diagram
