import Diagram.Proofs.Scene.Linking

namespace Diagram

variable {α : Type}

def Node.place (n : Node α) : Point α × Size α × α := (n.position, n.size, n.border)

variable [Arith α]

theorem lineBetween_congr {a a' b b' : Node α} (ha : a'.place = a.place) (hb : b'.place = b.place) :
    lineBetween a' b' = lineBetween a b := by
  simp only [Node.place, Prod.mk.injEq] at ha hb
  obtain ⟨hpa, hsa, hba⟩ := ha
  obtain ⟨hpb, hsb, hbb⟩ := hb
  simp only [lineBetween, Node.clipHalf, hpa, hsa, hba, hpb, hsb, hbb]

namespace Scene

theorem rerouteEdge_idem (nodes : Array (Node α)) (e : Edge α) :
    rerouteEdge nodes (rerouteEdge nodes e) = rerouteEdge nodes e := by
  cases ha : nodes[e.source]? with
  | none => simp [rerouteEdge, ha]
  | some a =>
    cases hb : nodes[e.target]? with
    | none => simp [rerouteEdge, ha, hb]
    | some b => simp [rerouteEdge, ha, hb, Edge.reroute]

theorem rerouteEdge_congr {nodes nodes' : Array (Node α)} {e : Edge α}
    (hs : nodes'[e.source]?.map Node.place = nodes[e.source]?.map Node.place)
    (ht : nodes'[e.target]?.map Node.place = nodes[e.target]?.map Node.place) :
    rerouteEdge nodes' e = rerouteEdge nodes e := by
  cases ha : nodes[e.source]? with
  | none =>
    simp only [ha, Option.map_none, Option.map_eq_none_iff] at hs
    simp only [rerouteEdge, ha, hs]
  | some a =>
    obtain ⟨a', ha', hpa⟩ := Option.map_eq_some_iff.mp (hs.trans (congrArg _ ha))
    cases hb : nodes[e.target]? with
    | none =>
      simp only [hb, Option.map_none, Option.map_eq_none_iff] at ht
      simp only [rerouteEdge, ha, ha', hb, ht]
    | some b =>
      obtain ⟨b', hb', hpb⟩ := Option.map_eq_some_iff.mp (ht.trans (congrArg _ hb))
      simp only [rerouteEdge, ha, ha', hb, hb', Edge.reroute, lineBetween_congr hpa hpb]

/-- To draw an edge anew would change nothing. -/
def Routed (s : Scene α) : Prop := ∀ e ∈ s.edges, rerouteEdge s.nodes e = e

variable {s s' : Scene α}

theorem Routed.of_bare (hs : s.Routed) (h : s'.bare = s.bare) : s'.Routed := by
  have he : s'.edges = s.edges := by simpa only [bare] using congrArg Scene.edges h
  have hn (j : Nat) : s'.nodes[j]?.map Node.place = s.nodes[j]?.map Node.place := by
    have hj := congrArg (fun t : Scene α ↦ t.nodes[j]?.map Node.place) h
    simp only [bare, Array.getElem?_map, Option.map_map] at hj
    exact hj
  intro e hm
  rw [rerouteEdge_congr (hn e.source) (hn e.target)]
  exact hs e (he ▸ hm)

def redraw (s : Scene α) (nodes : Array (Node α)) : Scene α :=
  { s with nodes, edges := s.edges.map (rerouteEdge nodes) }

theorem routed_redraw (s : Scene α) (nodes : Array (Node α)) : (s.redraw nodes).Routed := by
  intro e' hm
  obtain ⟨e, -, rfl⟩ := Array.mem_map.mp hm
  exact rerouteEdge_idem nodes e

def carry (s : Scene α) (h : Nat) (d : Offset α) : Scene α :=
  let nodes := s.nodes.modify h (·.moveBy d)
  { s with nodes, edges := s.edges.map (rerouteEdge nodes) }

theorem routed_carry (s : Scene α) (h : Nat) (d : Offset α) : (s.carry h d).Routed :=
  routed_redraw s _

/-- The edges of the moved node are drawn anew, and the others do not need to be. -/
theorem Routed.moveHandle_eq (hs : s.Routed) (hl : s.Linked) (h : Nat) (d : Offset α) :
    s.moveHandle h d = s.carry h d := by
  have hn (j : Nat) (hj : j ≠ h) : (s.nodes.modify h (·.moveBy d))[j]?.map Node.place =
      s.nodes[j]?.map Node.place := by
    rw [Array.getElem?_modify, if_neg (Ne.symm hj)]
  have hedges : (s.moveHandle h d).edges = (s.carry h d).edges := by
    apply Array.ext_getElem?
    intro k
    simp only [Scene.moveHandle, carry, getElem?_foldl_modify _ (rerouteEdge_idem _),
      Array.getElem?_map]
    split
    · rfl
    · next hout =>
      cases he : s.edges[k]? with
      | none => rfl
      | some e =>
        have hne := hl.ends_ne he hout
        rw [Option.map_some, rerouteEdge_congr (hn _ hne.1) (hn _ hne.2),
          hs e (Array.mem_of_getElem? he)]
  simp only [Scene.moveHandle, carry, Scene.mk.injEq, true_and, and_true] at hedges ⊢
  exact hedges

theorem Routed.moveHandle (hs : s.Routed) (hl : s.Linked) (h : Nat) (d : Offset α) :
    (s.moveHandle h d).Routed := hs.moveHandle_eq hl h d ▸ routed_carry s h d

theorem Routed.addNode (hs : s.Routed) (hl : s.Linked) {h : Nat} {id label : String} {p : Point α}
    {status : String} (hr : s.addNode id label p status = .ok (h, s')) : s'.Routed := by
  obtain ⟨-, -, rfl⟩ := addNode_ok hr
  intro e he
  have hlt := hl.ends_lt e he
  have hn (j : Nat) (hj : j < s.nodes.size) (n : Node α) :
      (s.nodes.push n)[j]?.map Node.place = s.nodes[j]?.map Node.place := by
    rw [Array.getElem?_push, if_neg (Nat.ne_of_lt hj)]
  rw [rerouteEdge_congr (hn _ hlt.1 _) (hn _ hlt.2 _)]
  exact hs e he

theorem Routed.addEdge (hs : s.Routed) {k : Nat} {source target status : String}
    (hr : s.addEdge source target status = .ok (k, s')) : s'.Routed := by
  obtain ⟨a, b, n, m, ⟨-, ha⟩, ⟨-, hb⟩, -, rfl⟩ := addEdge_ok hr
  have hn (j : Nat) : (joinedNodes s.nodes a b s.edges.size)[j]?.map Node.place =
      s.nodes[j]?.map Node.place := by
    rw [getElem?_joinedNodes, Option.map_map]
    rfl
  intro e he
  rw [rerouteEdge_congr (hn _) (hn _)]
  rcases Array.mem_push.mp he with he | rfl
  · exact hs e he
  · simp only [rerouteEdge, Edge.create, ha, hb, Edge.reroute]

theorem routed_run (metrics : NodeMetrics α) (edits : List (SceneEdit α)) (readings : Nat := 0) :
    (run metrics edits readings).Linked ∧ (run metrics edits readings).Routed := by
  refine run_induct (P := fun s ↦ s.Linked ∧ s.Routed) ⟨linked_empty metrics readings, ?_⟩ ?_ edits
  · intro e he
    simp [empty] at he
  · refine fun s e hs ↦ edit_induct (P := fun s ↦ s.Linked ∧ s.Routed) ?_ ?_ ?_ ?_ e hs
    · exact fun hb hs ↦ ⟨hs.1.of_shape (shape_of_bare hb), hs.2.of_bare hb⟩
    · exact fun h d hs ↦ ⟨hs.1.of_shape (shape_moveHandle _ h d), hs.2.moveHandle hs.1 h d⟩
    · exact fun hr hs ↦ ⟨hs.1.addNode hr, hs.2.addNode hs.1 hr⟩
    · exact fun hr hs ↦ ⟨hs.1.addEdge hr, hs.2.addEdge hr⟩

/-- The ends of an edge are where drawing it anew between its two nodes would put them, which is at
the centers of the nodes if these coincide. -/
def Current (s : Scene α) (e : Edge α) : Prop :=
  ∃ a b, s.nodes[e.source]? = some a ∧ s.nodes[e.target]? = some b ∧ e.reroute a b = e ∧
    ((a.position == b.position) = true → e.start = a.position ∧ e.finish = b.position)

/-- Whatever was added, moved, selected or enabled, no edge is left where its nodes were before. -/
theorem edges_current (metrics : NodeMetrics α) (edits : List (SceneEdit α)) :
    ∀ e ∈ (run metrics edits).edges, (run metrics edits).Current e := by
  intro e he
  obtain ⟨hl, hr⟩ := routed_run metrics edits
  have hlt := hl.ends_lt e he
  obtain ⟨a, ha⟩ : ∃ a, (run metrics edits).nodes[e.source]? = some a :=
    ⟨_, Array.getElem?_eq_getElem hlt.1⟩
  obtain ⟨b, hb⟩ : ∃ b, (run metrics edits).nodes[e.target]? = some b :=
    ⟨_, Array.getElem?_eq_getElem hlt.2⟩
  have hre := hr e he
  simp only [rerouteEdge, ha, hb] at hre
  refine ⟨a, b, ha, hb, hre, fun hp ↦ ?_⟩
  rw [← hre]
  simp only [Edge.reroute, lineBetween, if_pos hp, and_self]

def movedLoop : List (SceneEdit Float) := [
  .addNode "a" "a" ⟨0.0, 0.0⟩ "ready", .addEdge "a" "a" "ready", .moveNode "a" ⟨3.0, 4.0⟩]

theorem edges_current_movedLoop :
    ∃ e ∈ (run .standard movedLoop).edges, (run .standard movedLoop).Current e := by
  have hsize : 0 < (run NodeMetrics.standard movedLoop).edges.size := by
    simp [run, movedLoop, edit, perform, addNode, addEdge, moveNode, moveHandle, endpoint, handle?,
      require, record, empty, Node.create, Node.edges, bind, Except.bind, pure, Except.pure]
  exact ⟨_, Array.getElem_mem hsize, edges_current _ _ _ (Array.getElem_mem hsize)⟩

end Scene

end Diagram
