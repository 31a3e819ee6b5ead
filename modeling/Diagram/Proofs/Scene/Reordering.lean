import Diagram.Proofs.Scene.Carrying

namespace Diagram

variable {α : Type} [Arith α]

namespace Node

def follow (n : Node α) (moves : List (String × Offset α)) : Node α :=
  (moves.filter (·.1 = n.id)).foldl (fun n m ↦ n.moveBy m.2) n

theorem core_follow (n : Node α) (moves : List (String × Offset α)) :
    (n.follow moves).core = n.core :=
  List.foldlRecOn (motive := fun m : Node α ↦ m.core = n.core) _ _ rfl fun _ hm _ _ ↦ hm

theorem follow_follow (n : Node α) (moves moves' : List (String × Offset α)) :
    (n.follow moves).follow moves' = n.follow (moves ++ moves') := by
  have hid : (n.follow moves).id = n.id := congrArg (·.1) (core_follow n moves)
  rw [follow, hid, follow, follow, List.filter_append, List.foldl_append]

theorem follow_singleton (n : Node α) (id : String) (d : Offset α) :
    n.follow [(id, d)] = if n.id = id then n.moveBy d else n := by
  by_cases hid : n.id = id
  · simp [follow, hid]
  · simp [follow, hid, Ne.symm hid]

end Node

namespace Scene

/-- Some moves, one after the other, up to the first that fails. -/
def moveNodes (s : Scene α) (moves : List (String × Offset α)) : Except SceneError (Scene α) :=
  moves.foldlM (fun s m ↦ s.moveNode m.1 m.2) s

/-- A scene with each node where its own moves take it and every edge drawn anew. -/
def displace (s : Scene α) (moves : List (String × Offset α)) : Scene α :=
  s.redraw (s.nodes.map (·.follow moves))

variable {s : Scene α} {moves moves' : List (String × Offset α)}

theorem shape_displace (s : Scene α) (moves : List (String × Offset α)) :
    (s.displace moves).shape = s.shape := by
  simp only [shape, displace, redraw, Array.map_map, Prod.mk.injEq, true_and]
  exact ⟨Array.map_congr_left fun n _ ↦ n.core_follow moves,
    Array.map_congr_left fun e _ ↦ core_rerouteEdge _ e⟩

theorem routed_displace (s : Scene α) (moves : List (String × Offset α)) :
    (s.displace moves).Routed := routed_redraw s _

theorem Routed.displace_nil (hs : s.Routed) : s.displace [] = s := by
  have hnodes : s.nodes.map (·.follow []) = s.nodes := Array.map_id _
  rw [displace, hnodes, hs.redraw_self]

theorem displace_displace (s : Scene α) (moves moves' : List (String × Offset α)) :
    (s.displace moves).displace moves' = s.displace (moves ++ moves') := by
  have hnodes : (s.nodes.map (·.follow moves)).map (·.follow moves') =
      s.nodes.map (·.follow (moves ++ moves')) := by
    simp only [Array.map_map, Function.comp_def, Node.follow_follow]
  have hsize : (s.nodes.map (·.follow (moves ++ moves'))).size =
      (s.nodes.map (·.follow moves)).size := by
    simp only [Array.size_map]
  calc (s.displace moves).displace moves'
      = (s.displace moves).redraw ((s.nodes.map (·.follow moves)).map (·.follow moves')) := rfl
    _ = (s.redraw (s.nodes.map (·.follow moves))).redraw
          (s.nodes.map (·.follow (moves ++ moves'))) := by rw [hnodes, displace]
    _ = s.displace (moves ++ moves') := redraw_redraw s hsize

theorem Routed.moveNode_eq (hs : s.Routed) (hl : s.Linked) (hi : s.Indexed) {id : String} {h : Nat}
    (hh : s.handle? id = some h) (d : Offset α) : s.moveNode id d = .ok (s.displace [(id, d)]) := by
  have hnodes : s.nodes.modify h (·.moveBy d) = s.nodes.map (·.follow [(id, d)]) := by
    simp only [hi.modify_eq hh, Node.follow_singleton]
  have hmove : s.moveNode id d = .ok (s.moveHandle h d) := by
    rw [moveNode, require, hh]
    rfl
  rw [hmove, hs.moveHandle_eq hl, carry, hnodes, displace, redraw]

theorem Routed.moveNodes_eq (hs : s.Routed) (hl : s.Linked) (hi : s.Indexed)
    (hknown : ∀ m ∈ moves, ∃ h, s.handle? m.1 = some h) :
    s.moveNodes moves = .ok (s.displace moves) := by
  induction moves generalizing s with
  | nil => exact congrArg Except.ok hs.displace_nil.symm
  | cons m moves ih =>
    obtain ⟨⟨h, hh⟩, hknown⟩ := List.forall_mem_cons.mp hknown
    have hshape := shape_displace s [m]
    have hrest : (s.displace [m]).moveNodes moves = .ok ((s.displace [m]).displace moves) :=
      ih (routed_displace s [m]) (hl.of_shape hshape) (hi.of_shape hshape) hknown
    rw [moveNodes, List.foldlM_cons, hs.moveNode_eq hl hi hh]
    exact hrest.trans (congrArg Except.ok (displace_displace s [m] moves))

theorem displace_congr (s : Scene α)
    (horder : ∀ id, moves.filter (·.1 = id) = moves'.filter (·.1 = id)) :
    s.displace moves = s.displace moves' := by
  have hfollow (n : Node α) : n.follow moves = n.follow moves' := by
    rw [Node.follow, horder, Node.follow]
  simp only [displace, hfollow]

/-- The order of moves matters to no node but their own: where each node has the same moves in the
same order, whatever comes between them, the scene is the same in the end. -/
theorem moveNodes_reordered {metrics : NodeMetrics α} (hs : s.Reachable metrics)
    (hknown : ∀ m ∈ moves, ∃ n ∈ s.nodes, n.id = m.1)
    (horder : ∀ id, moves.filter (·.1 = id) = moves'.filter (·.1 = id)) :
    ∃ s', s.moveNodes moves = .ok s' ∧ s.moveNodes moves' = .ok s' := by
  obtain ⟨hl, hr⟩ := hs.routed
  have hi := hs.sound.indexed
  have hmem {m : String × Offset α} (hm : m ∈ moves') : m ∈ moves := by
    have hown : m ∈ moves'.filter (·.1 = m.1) := List.mem_filter.mpr ⟨hm, by simp⟩
    rw [← horder] at hown
    exact List.mem_of_mem_filter hown
  have hhandle : ∀ m ∈ moves, ∃ h, s.handle? m.1 = some h := by
    intro m hm
    obtain ⟨n, hn, hid⟩ := hknown m hm
    obtain ⟨h, hh⟩ := Array.mem_iff_getElem?.mp hn
    exact ⟨h, hid ▸ hi.handle_of_node hh⟩
  refine ⟨s.displace moves, hr.moveNodes_eq hl hi hhandle, ?_⟩
  rw [displace_congr s horder]
  exact hr.moveNodes_eq hl hi fun m hm ↦ hhandle m (hmem hm)

/-- Two nodes joined twice one way and once the other, one of them with itself as well. -/
def tangle : List (SceneEdit Float) := [
  .addNode "a" "A" ⟨0.0, 0.0⟩ "ready", .addNode "b" "B" ⟨200.0, 0.0⟩ "ready",
  .addEdge "a" "b" "ready", .addEdge "a" "b" "failed", .addEdge "b" "a" "ready",
  .addEdge "a" "a" "ready"]

theorem moveNodes_reordered_tangle : ∃ s',
    (run .standard tangle).moveNodes [("a", ⟨0.1, 0.0⟩), ("b", ⟨5.0, 7.0⟩), ("a", ⟨0.2, 3.0⟩)] =
        .ok s' ∧
      (run .standard tangle).moveNodes [("b", ⟨5.0, 7.0⟩), ("a", ⟨0.1, 0.0⟩), ("a", ⟨0.2, 3.0⟩)] =
        .ok s' := by
  refine moveNodes_reordered ⟨tangle, 0, rfl⟩ ?_ fun id ↦ ?_
  · simp [run, tangle, edit, perform, addNode, addEdge, endpoint, handle?, record, empty, Node.create,
      bind, Except.bind, pure, Except.pure, Std.HashMap.getElem_insert]
  · by_cases ha : "a" = id
    · subst ha
      rfl
    · by_cases hb : "b" = id <;> simp [ha, hb]

end Scene

end Diagram
