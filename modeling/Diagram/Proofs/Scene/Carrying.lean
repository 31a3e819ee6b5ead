import Diagram.Proofs.Exact
import Diagram.Proofs.Scene.Routing
import Diagram.Proofs.Scene.Selecting

namespace Diagram

variable {α β : Type}

namespace Node

variable [ExactArith α]

end Node

namespace Scene

section Drawing

variable [Arith α]

theorem rerouteEdge_eq {nodes : Array (Node α)} {e : Edge α} {a b : Node α}
    (ha : nodes[e.source]? = some a) (hb : nodes[e.target]? = some b) :
    rerouteEdge nodes e = e.reroute a b := by
  simp only [rerouteEdge, ha, hb]

/-- Only the last drawing of an edge is seen. -/
theorem rerouteEdge_rerouteEdge {nodes nodes' : Array (Node α)} (hn : nodes'.size = nodes.size)
    (e : Edge α) : rerouteEdge nodes' (rerouteEdge nodes e) = rerouteEdge nodes' e := by
  have hsome {j : Nat} {n : Node α} (hj : nodes[j]? = some n) : ∃ n', nodes'[j]? = some n' := by
    have hlt := (Array.getElem?_eq_some_iff.mp hj).1
    exact ⟨_, Array.getElem?_eq_getElem (hn ▸ hlt)⟩
  cases hs : nodes[e.source]? with
  | none => simp only [rerouteEdge, hs]
  | some a =>
    cases ht : nodes[e.target]? with
    | none => simp only [rerouteEdge, hs, ht]
    | some b =>
      obtain ⟨a', hs'⟩ := hsome hs
      obtain ⟨b', ht'⟩ := hsome ht
      rw [rerouteEdge_eq hs ht, rerouteEdge_eq hs' ht']
      exact rerouteEdge_eq hs' ht'

theorem redraw_redraw (s : Scene α) {nodes nodes' : Array (Node α)} (hn : nodes'.size = nodes.size) :
    (s.redraw nodes).redraw nodes' = s.redraw nodes' := by
  simp only [redraw, Array.map_map, Function.comp_def, rerouteEdge_rerouteEdge hn]

variable {s : Scene α}

theorem Routed.redraw_self (hs : s.Routed) : s.redraw s.nodes = s := by
  have hedges : s.edges.map (rerouteEdge s.nodes) = s.edges :=
    (Array.map_congr_left hs).trans (Array.map_id _)
  simp only [redraw, hedges]

theorem Reachable.routed {metrics : NodeMetrics α} (hs : s.Reachable metrics) :
    s.Linked ∧ s.Routed := by
  obtain ⟨edits, readings, rfl⟩ := hs
  exact routed_run metrics edits readings

theorem Linked.carry (hs : s.Linked) (h : Nat) (d : Offset α) : (s.carry h d).Linked := by
  refine hs.of_shape ?_
  simp only [shape, Scene.carry, Array.map_map, Prod.mk.injEq, true_and]
  refine ⟨map_modify Node.core (·.moveBy d) (fun _ ↦ rfl) s.nodes h, ?_⟩
  exact Array.map_congr_left fun e _ ↦ core_rerouteEdge _ e

theorem Routed.moveSelected_eq (hs : s.Routed) (hl : s.Linked) {h : Nat} (hsel : s.selection = [h])
    (d : Offset α) : s.moveSelected d = s.carry h d := by
  rw [moveSelected, hsel, List.foldl_cons, List.foldl_nil, hs.moveHandle_eq hl]

end Drawing

variable [ExactArith α] {s : Scene α}

end Scene

end Diagram
