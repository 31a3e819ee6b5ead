import Diagram.Proofs.Scene.Marking

namespace Diagram

variable {α : Type}

def positions (xs : Array Nat) (a : Nat) : List Nat :=
  (List.range xs.size).filter fun k ↦ xs[k]? = some a

theorem mem_positions {xs : Array Nat} {a k : Nat} : k ∈ positions xs a ↔ xs[k]? = some a := by
  simp only [positions, List.mem_filter, List.mem_range, decide_eq_true_eq, and_iff_right_iff_imp]
  intro h
  exact (Array.getElem?_eq_some_iff.mp h).1

theorem positions_push (xs : Array Nat) (b a : Nat) :
    positions (xs.push b) a = positions xs a ++ if b = a then [xs.size] else [] := by
  have hold : (List.range xs.size).filter (fun k ↦ (xs.push b)[k]? = some a) = positions xs a := by
    apply List.filter_congr
    intro k hk
    rw [Array.getElem?_push, if_neg (Nat.ne_of_lt (List.mem_range.mp hk))]
  simp only [positions, Array.size_push, List.range_succ, List.filter_append] at hold ⊢
  rw [hold]
  by_cases h : b = a <;> simp [h]

/-- What of a node no edit but the joining of an edge changes. -/
def Node.core (n : Node α) : String × String × Size α × α × List Nat × List Nat :=
  (n.id, n.label, n.size, n.border, n.outEdges, n.inEdges)

def Edge.core (e : Edge α) : Nat × Nat × String := (e.source, e.target, e.status)

namespace Scene

/-- A scene without marks and places. Only additions change it. -/
def shape (s : Scene α) := (s.index, s.nodes.map Node.core, s.edges.map Edge.core)

/-- The index knows each node by its id, and no other id. -/
def Indexed (s : Scene α) : Prop := ∀ id h, s.handle? id = some h ↔ s.idOf? h = some id

/-- Edges end at nodes, and a node lists the edges that end at it. -/
structure Linked (s : Scene α) : Prop where
  ends_lt : ∀ e ∈ s.edges, e.source < s.nodes.size ∧ e.target < s.nodes.size
  outEdges_eq : ∀ {h n}, s.nodes[h]? = some n → n.outEdges = positions (s.edges.map Edge.source) h
  inEdges_eq : ∀ {h n}, s.nodes[h]? = some n → n.inEdges = positions (s.edges.map Edge.target) h

variable {s s' : Scene α}

theorem shape_of_bare (h : s'.bare = s.bare) : s'.shape = s.shape := by
  have hc (t : Scene α) : t.bare.shape = t.shape := by
    simp only [shape, bare, Array.map_map]
    rfl
  rw [← hc s', h, hc s]

theorem node_of_shape (h : s'.shape = s.shape) {j : Nat} {n' : Node α}
    (hn : s'.nodes[j]? = some n') : ∃ n, s.nodes[j]? = some n ∧ n.core = n'.core := by
  have hm : s'.nodes.map Node.core = s.nodes.map Node.core := congrArg (·.2.1) h
  have hj := congrArg (·[j]?) hm
  simp only [Array.getElem?_map, hn, Option.map_some] at hj
  exact Option.map_eq_some_iff.mp hj.symm

theorem map_edges_of_shape {β : Type} (h : s'.shape = s.shape) (f : Nat × Nat × String → β) :
    s'.edges.map (fun e ↦ f e.core) = s.edges.map (fun e ↦ f e.core) := by
  have hm : s'.edges.map Edge.core = s.edges.map Edge.core := congrArg (·.2.2) h
  simpa only [Array.map_map, Function.comp_def] using congrArg (Array.map f) hm

theorem size_of_shape (h : s'.shape = s.shape) : s'.nodes.size = s.nodes.size := by
  have hm : s'.nodes.map Node.core = s.nodes.map Node.core := congrArg (·.2.1) h
  simpa only [Array.size_map] using congrArg Array.size hm

theorem idOf?_of_shape (h : s'.shape = s.shape) (j : Nat) : s'.idOf? j = s.idOf? j := by
  have hm : s'.nodes.map Node.core = s.nodes.map Node.core := congrArg (·.2.1) h
  have hj := congrArg (fun xs ↦ xs[j]?.map Prod.fst) hm
  simp only [Array.getElem?_map, Option.map_map] at hj
  exact hj

theorem Indexed.of_shape (hs : s.Indexed) (h : s'.shape = s.shape) : s'.Indexed := by
  intro id j
  have hi : s'.index = s.index := congrArg (·.1) h
  rw [idOf?_of_shape h, handle?, hi]
  exact hs id j

theorem Linked.of_shape (hs : s.Linked) (h : s'.shape = s.shape) : s'.Linked := by
  refine ⟨fun e he ↦ ?_, fun {j n'} hn ↦ ?_, fun {j n'} hn ↦ ?_⟩
  · have hm : s'.edges.map Edge.core = s.edges.map Edge.core := congrArg (·.2.2) h
    have hc : e.core ∈ s.edges.map Edge.core := hm ▸ Array.mem_map_of_mem he
    obtain ⟨e₀, he₀, hc⟩ := Array.mem_map.mp hc
    simp only [Edge.core, Prod.mk.injEq] at hc
    rw [size_of_shape h, ← hc.1, ← hc.2.1]
    exact hs.ends_lt e₀ he₀
  · obtain ⟨n, hn, hc⟩ := node_of_shape h hn
    simp only [Node.core, Prod.mk.injEq] at hc
    rw [← hc.2.2.2.2.1, hs.outEdges_eq hn]
    exact congrArg (positions · j) (map_edges_of_shape h (·.1)).symm
  · obtain ⟨n, hn, hc⟩ := node_of_shape h hn
    simp only [Node.core, Prod.mk.injEq] at hc
    rw [← hc.2.2.2.2.2, hs.inEdges_eq hn]
    exact congrArg (positions · j) (map_edges_of_shape h (·.2.1)).symm

theorem endpoint_ok {source target id : String} {a : Nat} {n : Node α}
    (hr : s.endpoint source target id = .ok (a, n)) :
    s.handle? id = some a ∧ s.nodes[a]? = some n := by
  unfold endpoint at hr
  cases hi : s.handle? id with
  | none => simp [hi] at hr
  | some b =>
    cases hn : s.nodes[b]? with
    | none => simp [hi, hn] at hr
    | some m =>
      simp only [hi, hn, Option.bind_eq_bind, Option.bind_some, Option.map_some, Except.ok.injEq,
        Prod.mk.injEq] at hr
      obtain ⟨rfl, rfl⟩ := hr
      exact ⟨rfl, hn⟩

def joinedNodes (nodes : Array (Node α)) (a b k : Nat) : Array (Node α) :=
  (nodes.modify a fun n ↦ { n with outEdges := n.outEdges ++ [k] }).modify b
    fun n ↦ { n with inEdges := n.inEdges ++ [k] }

theorem map_joinedNodes {γ : Type} (v : Node α → γ) (nodes : Array (Node α)) (a b k : Nat)
    (hout : ∀ n ks, v { n with outEdges := ks } = v n)
    (hin : ∀ n ks, v { n with inEdges := ks } = v n) :
    (joinedNodes nodes a b k).map v = nodes.map v :=
  (map_modify v _ (fun n ↦ hin n _) _ b).trans (map_modify v _ (fun n ↦ hout n _) nodes a)

theorem getElem?_joinedNodes (nodes : Array (Node α)) (a b k h : Nat) :
    (joinedNodes nodes a b k)[h]? = nodes[h]?.map fun n ↦ { n with
      outEdges := n.outEdges ++ if a = h then [k] else []
      inEdges := n.inEdges ++ if b = h then [k] else [] } := by
  rw [joinedNodes, Array.getElem?_modify, Array.getElem?_modify]
  cases nodes[h]? with
  | none => by_cases ha : a = h <;> by_cases hb : b = h <;> simp [ha, hb]
  | some n => by_cases ha : a = h <;> by_cases hb : b = h <;> simp [ha, hb]

theorem Indexed.node_of_handle (hs : s.Indexed) {id : String} {h : Nat} (hh : s.handle? id = some h) :
    ∃ n, s.nodes[h]? = some n ∧ n.id = id :=
  Option.map_eq_some_iff.mp ((hs id h).mp hh)

theorem Indexed.handle_of_node (hs : s.Indexed) {h : Nat} {n : Node α} (hn : s.nodes[h]? = some n) :
    s.handle? n.id = some h :=
  (hs n.id h).mpr (congrArg _ hn)

theorem Indexed.modify_eq (hs : s.Indexed) {id : String} {h : Nat} (hh : s.handle? id = some h)
    (f : Node α → Node α) :
    s.nodes.modify h f = s.nodes.map fun n ↦ if n.id = id then f n else n := by
  apply Array.ext_getElem?
  intro j
  rw [Array.getElem?_modify, Array.getElem?_map]
  cases hn : s.nodes[j]? with
  | none => simp
  | some n =>
    have hj := hs.handle_of_node hn
    have hiff : h = j ↔ n.id = id := by
      constructor
      · rintro rfl
        exact Option.some.inj (((hs n.id h).mp hj).symm.trans ((hs id h).mp hh))
      · rintro rfl
        exact Option.some.inj (hh.symm.trans hj)
    by_cases hid : n.id = id
    · simp [hid, hiff.mpr hid]
    · simp [hid, mt hiff.mp hid]

theorem indexed_empty (metrics : NodeMetrics α) (readings : Nat) :
    (empty metrics readings).Indexed := by
  intro id h
  simp [handle?, idOf?, empty]

theorem linked_empty (metrics : NodeMetrics α) (readings : Nat) :
    (empty metrics readings).Linked := by
  refine ⟨fun e he ↦ ?_, fun hn ↦ ?_, fun hn ↦ ?_⟩
  · simp [empty] at he
  · simp [empty] at hn
  · simp [empty] at hn

theorem Linked.positions_eq_nil (hs : s.Linked) {h : Nat} (hh : s.nodes.size ≤ h) :
    positions (s.edges.map Edge.source) h = [] ∧ positions (s.edges.map Edge.target) h = [] := by
  constructor
  · refine List.eq_nil_iff_forall_not_mem.mpr fun k hk ↦ ?_
    rw [mem_positions, Array.getElem?_map, Option.map_eq_some_iff] at hk
    obtain ⟨e, he, rfl⟩ := hk
    have := (hs.ends_lt e (Array.mem_of_getElem? he)).1
    omega
  · refine List.eq_nil_iff_forall_not_mem.mpr fun k hk ↦ ?_
    rw [mem_positions, Array.getElem?_map, Option.map_eq_some_iff] at hk
    obtain ⟨e, he, rfl⟩ := hk
    have := (hs.ends_lt e (Array.mem_of_getElem? he)).2
    omega

theorem Linked.ends_ne (hs : s.Linked) {h k : Nat} {e : Edge α} (he : s.edges[k]? = some e)
    (hk : k ∉ (s.nodes[h]?.map Node.edges).getD []) : e.source ≠ h ∧ e.target ≠ h := by
  have hlt := hs.ends_lt e (Array.mem_of_getElem? he)
  constructor
  · rintro rfl
    have hn := Array.getElem?_eq_getElem hlt.1
    have hmem : k ∈ positions (s.edges.map Edge.source) e.source := by
      rw [mem_positions, Array.getElem?_map, he]
      rfl
    rw [← hs.outEdges_eq hn] at hmem
    exact hk (by simp [hn, Node.edges, hmem])
  · rintro rfl
    have hn := Array.getElem?_eq_getElem hlt.2
    have hmem : k ∈ positions (s.edges.map Edge.target) e.target := by
      rw [mem_positions, Array.getElem?_map, he]
      rfl
    rw [← hs.inEdges_eq hn] at hmem
    exact hk (by simp [hn, Node.edges, hmem])

variable [Arith α]

theorem addNode_ok {h : Nat} {id label : String} {p : Point α} {status : String}
    (hr : s.addNode id label p status = .ok (h, s')) :
    s.handle? id = none ∧ h = s.nodes.size ∧
      s' = { s with
        nodes := s.nodes.push (.create s.metrics id label p status)
        index := s.index.insert id s.nodes.size
        bounds := s.bounds.cover p (Node.create s.metrics id label p status).size.half
        log := s.log.push (.nodeAdded id status) } := by
  unfold addNode at hr
  cases hc : s.index.contains id with
  | true => simp [hc] at hr
  | false =>
    simp only [hc, Bool.false_eq_true, ↓reduceIte, Except.ok.injEq, Prod.mk.injEq] at hr
    rw [Std.HashMap.contains_eq_isSome_getElem?, Option.isSome_eq_false_iff,
      Option.isNone_iff_eq_none] at hc
    exact ⟨hc, hr.1.symm, hr.2.symm⟩

theorem addEdge_ok {k : Nat} {source target status : String}
    (hr : s.addEdge source target status = .ok (k, s')) :
    ∃ a b n m, (s.handle? source = some a ∧ s.nodes[a]? = some n) ∧
      (s.handle? target = some b ∧ s.nodes[b]? = some m) ∧ k = s.edges.size ∧
      s' = { s with
        nodes := joinedNodes s.nodes a b s.edges.size
        edges := s.edges.push (.create a b status n m)
        log := s.log.push (.edgeAdded source target) } := by
  obtain ⟨⟨a, n⟩, ha, hr⟩ := bind_ok hr
  obtain ⟨⟨b, m⟩, hb, hr⟩ := bind_ok hr
  cases hr
  exact ⟨a, b, n, m, endpoint_ok ha, endpoint_ok hb, rfl, rfl⟩

theorem Indexed.addNode (hs : s.Indexed) {h : Nat} {id label : String} {p : Point α}
    {status : String} (hr : s.addNode id label p status = .ok (h, s')) : s'.Indexed := by
  obtain ⟨hnew, -, rfl⟩ := addNode_ok hr
  intro id' j
  have hs' := hs id' j
  simp only [handle?, idOf?, Std.HashMap.getElem?_insert, Array.getElem?_push] at hs' hnew ⊢
  by_cases hid : id = id'
  · subst hid
    by_cases hj : j = s.nodes.size
    · simp [hj, Node.create]
    · rw [if_neg hj]
      simp only [hnew, reduceCtorEq, false_iff] at hs'
      simp only [BEq.rfl, ↓reduceIte, Option.some.injEq, hs', iff_false]
      exact fun h ↦ hj h.symm
  · by_cases hj : j = s.nodes.size
    · subst hj
      simp only [beq_iff_eq, hid, ↓reduceIte, Option.map_some, Node.create, Option.some.injEq,
        iff_false]
      simpa using hs'
    · simpa [hid, hj] using hs'

theorem Indexed.addEdge (hs : s.Indexed) {k : Nat} {source target status : String}
    (hr : s.addEdge source target status = .ok (k, s')) : s'.Indexed := by
  obtain ⟨a, b, n, m, -, -, -, rfl⟩ := addEdge_ok hr
  intro id h
  have hid : (joinedNodes s.nodes a b s.edges.size)[h]?.map Node.id = s.idOf? h := by
    simp only [idOf?, getElem?_joinedNodes, Option.map_map, Function.comp_def]
  simp only [handle?, idOf?] at hid ⊢
  rw [hid]
  exact hs id h

theorem Linked.addNode (hs : s.Linked) {h : Nat} {id label : String} {p : Point α}
    {status : String} (hr : s.addNode id label p status = .ok (h, s')) : s'.Linked := by
  obtain ⟨-, -, rfl⟩ := addNode_ok hr
  refine ⟨fun e he ↦ ?_, fun {j n} hn ↦ ?_, fun {j n} hn ↦ ?_⟩
  · have := hs.ends_lt e he
    simp only [Array.size_push]
    omega
  · simp only [Array.getElem?_push] at hn
    split at hn
    · cases hn
      exact (hs.positions_eq_nil (by omega)).1.symm
    · exact hs.outEdges_eq hn
  · simp only [Array.getElem?_push] at hn
    split at hn
    · cases hn
      exact (hs.positions_eq_nil (by omega)).2.symm
    · exact hs.inEdges_eq hn

theorem Linked.addEdge (hs : s.Linked) {k : Nat} {source target status : String}
    (hr : s.addEdge source target status = .ok (k, s')) : s'.Linked := by
  obtain ⟨a, b, n, m, ⟨-, ha⟩, ⟨-, hb⟩, -, rfl⟩ := addEdge_ok hr
  have ha := (Array.getElem?_eq_some_iff.mp ha).1
  have hb := (Array.getElem?_eq_some_iff.mp hb).1
  refine ⟨fun e he ↦ ?_, fun {j n'} hn ↦ ?_, fun {j n'} hn ↦ ?_⟩
  · simp only [joinedNodes, Array.size_modify]
    rcases Array.mem_push.mp he with he | rfl
    · exact hs.ends_lt e he
    · exact ⟨ha, hb⟩
  · simp only [getElem?_joinedNodes, Option.map_eq_some_iff] at hn
    obtain ⟨n₀, hn₀, rfl⟩ := hn
    simp only [Array.map_push, positions_push, Array.size_map, hs.outEdges_eq hn₀]
    rfl
  · simp only [getElem?_joinedNodes, Option.map_eq_some_iff] at hn
    obtain ⟨n₀, hn₀, rfl⟩ := hn
    simp only [Array.map_push, positions_push, Array.size_map, hs.inEdges_eq hn₀]
    rfl

theorem core_rerouteEdge (nodes : Array (Node α)) (e : Edge α) :
    (rerouteEdge nodes e).core = e.core := by
  unfold rerouteEdge
  split <;> rfl

theorem shape_moveHandle (s : Scene α) (h : Nat) (d : Offset α) :
    (s.moveHandle h d).shape = s.shape := by
  have hf (nodes : Array (Node α)) (ks : List Nat) (edges : Array (Edge α)) :
      (ks.foldl (fun edges k ↦ edges.modify k (rerouteEdge nodes)) edges).map Edge.core =
        edges.map Edge.core := by
    induction ks generalizing edges with
    | nil => rfl
    | cons k ks ih =>
      exact (ih _).trans (map_modify Edge.core _ (core_rerouteEdge nodes) edges k)
  simp only [shape, moveHandle, hf, Prod.mk.injEq, true_and, and_true]
  exact map_modify Node.core (·.moveBy d) (fun _ ↦ rfl) s.nodes h

theorem Indexed.edit (hs : s.Indexed) (e : SceneEdit α) : (s.edit e).Indexed :=
  edit_induct (fun hb hs ↦ hs.of_shape (shape_of_bare hb))
    (fun h d hs ↦ hs.of_shape (shape_moveHandle _ h d))
    (fun hr hs ↦ hs.addNode hr) (fun hr hs ↦ hs.addEdge hr) e hs

theorem Linked.edit (hs : s.Linked) (e : SceneEdit α) : (s.edit e).Linked :=
  edit_induct (fun hb hs ↦ hs.of_shape (shape_of_bare hb))
    (fun h d hs ↦ hs.of_shape (shape_moveHandle _ h d))
    (fun hr hs ↦ hs.addNode hr) (fun hr hs ↦ hs.addEdge hr) e hs

end Scene

end Diagram
