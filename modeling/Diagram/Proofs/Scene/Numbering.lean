import Diagram.Proofs.Scene.Selecting
import Mathlib.Data.List.Nodup

namespace Diagram

variable {α : Type}

theorem pairwise_positions (xs : Array Nat) (a : Nat) : (positions xs a).Pairwise (· < ·) :=
  List.pairwise_lt_range.filter _

namespace Scene

/-- The nodes, the index, the edges and the lists of edges at the nodes tell of one graph. -/
structure Coherent (s : Scene α) : Prop where
  ids_nodup : (s.nodes.toList.map Node.id).Nodup
  handle_iff : ∀ id h, s.handle? id = some h ↔ ∃ n, s.nodes[h]? = some n ∧ n.id = id
  ends_lt : ∀ e ∈ s.edges, e.source < s.nodes.size ∧ e.target < s.nodes.size
  outEdges_sorted : ∀ n ∈ s.nodes, n.outEdges.Pairwise (· < ·)
  mem_outEdges : ∀ {h : Nat} {n : Node α}, s.nodes[h]? = some n →
    ∀ k, k ∈ n.outEdges ↔ ∃ e, s.edges[k]? = some e ∧ e.source = h
  inEdges_sorted : ∀ n ∈ s.nodes, n.inEdges.Pairwise (· < ·)
  mem_inEdges : ∀ {h : Nat} {n : Node α}, s.nodes[h]? = some n →
    ∀ k, k ∈ n.inEdges ↔ ∃ e, s.edges[k]? = some e ∧ e.target = h

/-- What is numbered in one scene has the same number in the other. -/
structure Keeps (s s' : Scene α) : Prop where
  node : ∀ {h : Nat} {n : Node α}, s.nodes[h]? = some n → ∃ n', s'.nodes[h]? = some n' ∧
    n'.id = n.id ∧ n'.label = n.label ∧ n'.size = n.size ∧ n'.border = n.border
  edge : ∀ {k : Nat} {e : Edge α}, s.edges[k]? = some e → ∃ e', s'.edges[k]? = some e' ∧
    e'.source = e.source ∧ e'.target = e.target ∧ e'.status = e.status

variable {s s' s'' : Scene α}

theorem Indexed.ids_nodup (hs : s.Indexed) : (s.nodes.toList.map Node.id).Nodup := by
  have hid (h : Nat) : (s.nodes.toList.map Node.id)[h]? = s.idOf? h := by
    rw [List.getElem?_map, Array.getElem?_toList, idOf?]
  rw [List.nodup_iff_getElem?_ne_getElem?]
  intro i j hij hj heq
  obtain ⟨id, hi⟩ : ∃ id, s.idOf? j = some id := ⟨_, hid j ▸ List.getElem?_eq_getElem hj⟩
  rw [hid, hid, hi] at heq
  have hh := ((hs id i).mpr heq).symm.trans ((hs id j).mpr hi)
  exact Nat.ne_of_lt hij (Option.some.inj hh)

theorem mem_positions_map {f : Edge α → Nat} {h k : Nat} :
    k ∈ positions (s.edges.map f) h ↔ ∃ e, s.edges[k]? = some e ∧ f e = h := by
  rw [mem_positions, Array.getElem?_map, Option.map_eq_some_iff]

theorem Sound.coherent (hs : s.Sound) : s.Coherent where
  ids_nodup := hs.indexed.ids_nodup
  handle_iff id h := (hs.indexed id h).trans Option.map_eq_some_iff
  ends_lt := hs.linked.ends_lt
  outEdges_sorted n hn := by
    obtain ⟨h, hh⟩ := Array.mem_iff_getElem?.mp hn
    rw [hs.linked.outEdges_eq hh]
    exact pairwise_positions _ h
  mem_outEdges hn k := by
    rw [hs.linked.outEdges_eq hn]
    exact mem_positions_map
  inEdges_sorted n hn := by
    obtain ⟨h, hh⟩ := Array.mem_iff_getElem?.mp hn
    rw [hs.linked.inEdges_eq hh]
    exact pairwise_positions _ h
  mem_inEdges hn k := by
    rw [hs.linked.inEdges_eq hn]
    exact mem_positions_map

theorem Keeps.refl (s : Scene α) : s.Keeps s :=
  ⟨fun hn ↦ ⟨_, hn, rfl, rfl, rfl, rfl⟩, fun he ↦ ⟨_, he, rfl, rfl, rfl⟩⟩

theorem Keeps.trans (h : s.Keeps s') (h' : s'.Keeps s'') : s.Keeps s'' := by
  refine ⟨fun hn ↦ ?_, fun he ↦ ?_⟩
  · obtain ⟨n', hn', hid, hlabel, hsize, hborder⟩ := h.node hn
    obtain ⟨n'', hn'', hid', hlabel', hsize', hborder'⟩ := h'.node hn'
    exact ⟨n'', hn'', hid'.trans hid, hlabel'.trans hlabel, hsize'.trans hsize,
      hborder'.trans hborder⟩
  · obtain ⟨e', he', hsource, htarget, hstatus⟩ := h.edge he
    obtain ⟨e'', he'', hsource', htarget', hstatus'⟩ := h'.edge he'
    exact ⟨e'', he'', hsource'.trans hsource, htarget'.trans htarget, hstatus'.trans hstatus⟩

theorem keeps_of_shape (h : s'.shape = s.shape) : s.Keeps s' := by
  refine ⟨fun {j n} hn ↦ ?_, fun {k e} he ↦ ?_⟩
  · obtain ⟨n', hn', hc⟩ := node_of_shape h.symm hn
    simp only [Node.core, Prod.mk.injEq] at hc
    exact ⟨n', hn', hc.1, hc.2.1, hc.2.2.1, hc.2.2.2.1⟩
  · have hk := congrArg (·[k]?) (map_edges_of_shape h id)
    simp only [id_eq, Array.getElem?_map, he, Option.map_some, Option.map_eq_some_iff] at hk
    obtain ⟨e', he', hc⟩ := hk
    simp only [Edge.core, Prod.mk.injEq] at hc
    exact ⟨e', he', hc⟩

variable [Arith α]

theorem keeps_addNode {h : Nat} {id label : String} {p : Point α} {status : String}
    (hr : s.addNode id label p status = .ok (h, s')) : s.Keeps s' := by
  obtain ⟨-, -, rfl⟩ := addNode_ok hr
  refine ⟨fun {j n} hn ↦ ⟨n, ?_, rfl, rfl, rfl, rfl⟩, fun he ↦ ⟨_, he, rfl, rfl, rfl⟩⟩
  have hlt := (Array.getElem?_eq_some_iff.mp hn).1
  exact (Array.getElem?_push_lt hlt).trans (Array.getElem?_eq_getElem hlt ▸ hn)

theorem keeps_addEdge {k : Nat} {source target status : String}
    (hr : s.addEdge source target status = .ok (k, s')) : s.Keeps s' := by
  obtain ⟨a, b, n, m, -, -, -, rfl⟩ := addEdge_ok hr
  refine ⟨fun hn ↦ ⟨_, (getElem?_joinedNodes ..).trans (congrArg _ hn), rfl, rfl, rfl, rfl⟩,
    fun {j e} he ↦ ⟨e, ?_, rfl, rfl, rfl⟩⟩
  have hlt := (Array.getElem?_eq_some_iff.mp he).1
  exact (Array.getElem?_push_lt hlt).trans (Array.getElem?_eq_getElem hlt ▸ he)

theorem keeps_edit (s : Scene α) (e : SceneEdit α) : s.Keeps (s.edit e) :=
  edit_induct (fun hb hs ↦ hs.trans (keeps_of_shape (shape_of_bare hb)))
    (fun h d hs ↦ hs.trans (keeps_of_shape (shape_moveHandle _ h d)))
    (fun hr hs ↦ hs.trans (keeps_addNode hr)) (fun hr hs ↦ hs.trans (keeps_addEdge hr)) e (.refl s)

theorem keeps_foldl (s : Scene α) (edits : List (SceneEdit α)) : s.Keeps (edits.foldl edit s) :=
  List.foldlRecOn (motive := fun t ↦ s.Keeps t) edits edit (.refl s)
    fun t ht e _ ↦ ht.trans (keeps_edit t e)

def Numbers (s : Scene α) (h : Nat) : SceneEdit α → Prop
  | .addNode id label _ _ =>
    s.handle? id = some h ∧ ∃ n, s.nodes[h]? = some n ∧ n.id = id ∧ n.label = label
  | .addEdge source target status => ∃ e, s.edges[h]? = some e ∧
    s.handle? source = some e.source ∧ s.handle? target = some e.target ∧ e.status = status
  | _ => False

theorem Indexed.numbers (hs : s.Indexed) {x : SceneEdit α} {h : Nat}
    (hr : s.perform x = .ok (some h, s')) : s'.Numbers h x := by
  cases x with
  | addNode id label p status =>
    obtain ⟨⟨k, t⟩, ha, hr⟩ := bind_ok hr
    cases hr
    have hi := hs.addNode ha
    obtain ⟨-, rfl, rfl⟩ := addNode_ok ha
    refine ⟨(hi id _).mpr ?_, _, Array.getElem?_push_size, rfl, rfl⟩
    exact congrArg (Option.map Node.id) Array.getElem?_push_size
  | addEdge source target status =>
    obtain ⟨⟨k, t⟩, ha, hr⟩ := bind_ok hr
    cases hr
    obtain ⟨a, b, n, m, ⟨hsource, -⟩, ⟨htarget, -⟩, rfl, rfl⟩ := addEdge_ok ha
    exact ⟨_, Array.getElem?_push_size, hsource, htarget, rfl⟩
  | moveNode id d =>
    obtain ⟨t, -, hr⟩ := bind_ok hr
    cases hr
  | select id =>
    obtain ⟨t, -, hr⟩ := bind_ok hr
    cases hr
  | _ => cases hr

/-- A scene is coherent whatever was done to it, and a number that was once handed out stays with what
it was handed out for. -/
theorem run_coherent (metrics : NodeMetrics α) (edits : List (SceneEdit α)) :
    (run metrics edits).Coherent ∧
      ∀ pre x post h s, edits = pre ++ x :: post →
        (run metrics pre).perform x = .ok (some h, s) →
          s.Numbers h x ∧ s.Keeps (run metrics edits) := by
  refine ⟨(sound_run metrics edits).coherent, ?_⟩
  rintro pre x post h s rfl hr
  refine ⟨(sound_run metrics pre).indexed.numbers hr, ?_⟩
  have hx : (run metrics pre).edit x = s := by rw [edit, hr]
  rw [run, List.foldl_append, List.foldl_cons, ← run, hx]
  exact keeps_foldl s post

theorem run_coherent_loop : ∃ s : Scene Float,
    (run .standard [.addNode "a" "A" ⟨0.0, 0.0⟩ "ready"]).perform (.addEdge "a" "a" "failed") =
        .ok (some 0, s) ∧
      s.Numbers 0 (.addEdge "a" "a" "failed") ∧
      s.Keeps (run .standard [.addNode "a" "A" ⟨0.0, 0.0⟩ "ready", .addEdge "a" "a" "failed",
        .moveNode "a" ⟨3.0, 4.0⟩, .addNode "b" "B" ⟨0.0, 0.0⟩ "ready"]) := by
  obtain ⟨s, hs⟩ : ∃ s : Scene Float,
      (run .standard [.addNode "a" "A" ⟨0.0, 0.0⟩ "ready"]).perform (.addEdge "a" "a" "failed") =
        .ok (some 0, s) := by
    simp [run, edit, perform, addNode, addEdge, endpoint, handle?, record, empty, bind, Except.bind,
      pure, Except.pure]
  exact ⟨s, hs, (run_coherent _ _).2 [_] _ _ 0 s rfl hs⟩

end Scene

end Diagram
