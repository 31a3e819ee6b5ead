import Diagram.Payload.Basic
import Diagram.Proofs.Scene.Flagging
import Diagram.Proofs.Scene.Numbering
import Mathlib.Data.List.Induction

namespace Diagram

variable {α β γ ε : Type}

/-- A loop of which every step goes through has at its end what its steps build up. -/
theorem foldlM_build {P : List β → γ → Prop} {f : γ → β → Except ε γ} {xs : List β} {s : γ}
    (hs : P [] s)
    (hf : ∀ pre x post s, xs = pre ++ x :: post → P pre s →
      ∃ s', f s x = .ok s' ∧ P (pre ++ [x]) s') :
    ∃ s', xs.foldlM f s = .ok s' ∧ P xs s' := by
  induction xs using List.reverseRecOn with
  | nil => exact ⟨s, rfl, hs⟩
  | append_singleton xs x ih =>
    obtain ⟨m, hm, hp⟩ := ih fun pre y post t hxs ↦ hf pre y (post ++ [x]) t (by simp [hxs])
    obtain ⟨s', hs', hp'⟩ := hf xs x [] m rfl hp
    refine ⟨s', ?_, hp'⟩
    rw [List.foldlM_append, hm]
    change [x].foldlM f m = .ok s'
    simp only [List.foldlM_cons, List.foldlM_nil, hs', bind, Except.bind, pure, Except.pure]

def Payload.finished (g : Payload α) (c : Config α) : List String :=
  (g.nodes.filter fun n ↦ c.isTerminal n.status).map NodeEntry.id

def Node.unlinked (n : Node α) : Node α := { n with outEdges := [], inEdges := [] }

namespace Scene

variable {s s' : Scene α}

def named (s : Scene α) (e : Edge α) : Option String × Option String × String :=
  (s.idOf? e.source, s.idOf? e.target, e.status)

theorem endpoint_known (hs : s.Indexed) (source target : String) {id : String} {a : Nat}
    (ha : s.handle? id = some a) : ∃ n, s.endpoint source target id = .ok (a, n) := by
  obtain ⟨n, hn, -⟩ := hs.node_of_handle ha
  refine ⟨n, ?_⟩
  simp only [endpoint, ha, hn, Option.bind_eq_bind, Option.bind_some, Option.map_some]

theorem endpoint_unknown {source target id : String} (hid : s.handle? id = none) :
    s.endpoint source target id = .error (.unknownNode source target id) := by
  simp only [endpoint, hid, Option.bind_eq_bind, Option.bind_none]

theorem Indexed.handle_of_mem (hs : s.Indexed) {id : String}
    (hid : id ∈ s.nodes.toList.map Node.id) : ∃ h, s.handle? id = some h := by
  rw [List.mem_iff_getElem?] at hid
  obtain ⟨h, hh⟩ := hid
  rw [List.getElem?_map, Array.getElem?_toList] at hh
  exact ⟨h, (hs id h).mpr hh⟩

def finished (s : Scene α) (c : Config α) : List String :=
  (s.nodes.toList.filter fun n ↦ c.isTerminal n.status).map Node.id

theorem Indexed.filterMap_handle (hs : s.Indexed) {ids : List String}
    (hids : ∀ id ∈ ids, ∃ h, s.handle? id = some h) :
    (ids.filterMap s.handle?).filterMap s.idOf? = ids := by
  induction ids with
  | nil => rfl
  | cons id ids ih =>
    obtain ⟨h, hh⟩ := hids id List.mem_cons_self
    have hid := (hs id h).mp hh
    rw [List.filterMap_cons_some hh, List.filterMap_cons_some hid,
      ih fun id' h' ↦ hids id' (List.mem_cons_of_mem id h')]

theorem Indexed.handles_nodup (hs : s.Indexed) {ids : List String} (hids : ids.Nodup) :
    (ids.filterMap s.handle?).Nodup := by
  refine hids.filterMap fun id id' h hh hh' ↦ ?_
  have hid := (hs id h).mp hh
  have hid' := (hs id' h).mp hh'
  exact Option.some.inj (hid.symm.trans hid')

theorem Indexed.mem_finished (hs : s.Indexed) (c : Config α) {j : Nat} {n : Node α}
    (hn : s.nodes[j]? = some n) :
    j ∈ (s.finished c).filterMap s.handle? ↔ c.isTerminal n.status = true := by
  rw [hs.mem_handles hn, finished, List.mem_map]
  constructor
  · rintro ⟨n', hn', hid⟩
    obtain ⟨hmem, hterm⟩ := List.mem_filter.mp hn'
    obtain ⟨j', hj'⟩ := Array.mem_iff_getElem?.mp (Array.mem_toList_iff.mp hmem)
    have hj : s.handle? n.id = some j := (hs _ j).mpr (congrArg _ hn)
    rw [← hid, (hs _ j').mpr (congrArg _ hj'), Option.some.injEq] at hj
    rw [hj, hn] at hj'
    rwa [Option.some.inj hj']
  · intro hterm
    have hmem := Array.mem_toList_iff.mpr (Array.mem_of_getElem? hn)
    exact ⟨n, List.mem_filter.mpr ⟨hmem, hterm⟩, rfl⟩

variable [Arith α]

theorem addNode_unknown {id : String} (hid : s.handle? id = none) (label : String) (p : Point α)
    (status : String) : ∃ r, s.addNode id label p status = .ok r := by
  have hc : s.index.contains id = false := by
    rw [Std.HashMap.contains_eq_isSome_getElem?]
    exact congrArg Option.isSome hid
  simp only [addNode, hc, Bool.false_eq_true, ↓reduceIte]
  exact ⟨_, rfl⟩

theorem addNode_known {id : String} {h : Nat} (hid : s.handle? id = some h) (label : String)
    (p : Point α) (status : String) : s.addNode id label p status = .error (.duplicateId id) := by
  have hc : s.index.contains id = true := by
    rw [Std.HashMap.contains_eq_isSome_getElem?]
    exact congrArg Option.isSome hid
  rw [addNode, if_pos hc]

theorem addEdge_known (hs : s.Indexed) {source target : String} {a b : Nat}
    (ha : s.handle? source = some a) (hb : s.handle? target = some b) (status : String) :
    ∃ r, s.addEdge source target status = .ok r := by
  obtain ⟨n, hn⟩ := endpoint_known hs source target ha
  obtain ⟨m, hm⟩ := endpoint_known hs source target hb
  rw [addEdge, hn]
  dsimp only [bind, Except.bind]
  rw [hm]
  exact ⟨_, rfl⟩

def layNode (s : Scene α) (n : NodeEntry α) : Except SceneError (Scene α) :=
  Prod.snd <$> s.addNode n.id n.shownLabel ⟨n.x, n.y⟩ n.status

def layEdge (s : Scene α) (x : EdgeEntry) : Except SceneError (Scene α) :=
  Prod.snd <$> s.addEdge x.source x.target x.status

theorem layNodes_induct {P : Scene α → Prop} {ns : List (NodeEntry α)}
    (h : ns.foldlM Scene.layNode s = .ok s') (hs : P s)
    (step : ∀ {s s' : Scene α} {h : Nat} {id label : String} {p : Point α} {status : String},
      s.addNode id label p status = .ok (h, s') → P s → P s') : P s' := by
  refine foldlM_induct (fun {s n s'} hn hs ↦ ?_) ns h hs
  obtain ⟨_, hadd, rfl⟩ := map_ok hn
  exact step hadd hs

theorem layEdges_induct {P : Scene α → Prop} {es : List EdgeEntry}
    (h : es.foldlM Scene.layEdge s = .ok s') (hs : P s)
    (step : ∀ {s s' : Scene α} {k : Nat} {source target status : String},
      s.addEdge source target status = .ok (k, s') → P s → P s') : P s' := by
  refine foldlM_induct (fun {s x s'} hx hs ↦ ?_) es h hs
  obtain ⟨_, hadd, rfl⟩ := map_ok hx
  exact step hadd hs

/-- The scene consists of what was laid, and nothing has been done to it since. -/
structure Lays (s : Scene α) (m : NodeMetrics α) (ns : List (NodeEntry α)) (es : List EdgeEntry) :
    Prop where
  indexed : s.Indexed
  metrics_eq : s.metrics = m
  nodes_eq : s.nodes.toList.map Node.unlinked =
    ns.map fun n ↦ .create m n.id n.shownLabel ⟨n.x, n.y⟩ n.status
  edges_eq : s.edges.toList.map s.named = es.map fun x ↦ (some x.source, some x.target, x.status)
  selection_eq : s.selection = []
  log_eq : s.log.events = ns.map (fun n ↦ .nodeAdded n.id n.status) ++
    es.map fun x ↦ .edgeAdded x.source x.target

variable {m : NodeMetrics α} {ns : List (NodeEntry α)} {es : List EdgeEntry}

theorem lays_empty (m : NodeMetrics α) (readings : Nat) : (empty m readings).Lays m [] [] :=
  ⟨indexed_empty m readings, rfl, rfl, rfl, rfl, rfl⟩

theorem Lays.ids_eq (hs : s.Lays m ns es) :
    s.nodes.toList.map Node.id = ns.map NodeEntry.id := by
  have h := congrArg (List.map Node.id) hs.nodes_eq
  rw [List.map_map, List.map_map] at h
  exact h

theorem Lays.handle_of_mem (hs : s.Lays m ns es) {id : String} (hid : id ∈ ns.map NodeEntry.id) :
    ∃ h, s.handle? id = some h :=
  hs.indexed.handle_of_mem (hs.ids_eq ▸ hid)

theorem Lays.handle_of_not_mem (hs : s.Lays m ns es) {id : String}
    (hid : id ∉ ns.map NodeEntry.id) : s.handle? id = none := by
  refine Option.eq_none_iff_forall_ne_some.mpr fun h hh ↦ hid ?_
  obtain ⟨n, hn, rfl⟩ := hs.indexed.node_of_handle hh
  rw [← hs.ids_eq]
  exact List.mem_map_of_mem (Array.mem_toList_iff.mpr (Array.mem_of_getElem? hn))

theorem Lays.layNode (hs : s.Lays m ns []) {n : NodeEntry α} (hn : n.id ∉ ns.map NodeEntry.id) :
    ∃ s', s.layNode n = .ok s' ∧ s'.Lays m (ns ++ [n]) [] := by
  obtain ⟨⟨h, s'⟩, hr⟩ := addNode_unknown (hs.handle_of_not_mem hn) n.shownLabel ⟨n.x, n.y⟩ n.status
  refine ⟨s', by rw [Scene.layNode, hr]; rfl, ?_⟩
  have hi := hs.indexed.addNode hr
  -- No edge is there yet whose ends could be named anew.
  have hedges : s.edges.toList = [] := List.map_eq_nil_iff.mp hs.edges_eq
  obtain ⟨-, -, rfl⟩ := addNode_ok hr
  refine ⟨hi, hs.metrics_eq, ?_, ?_, hs.selection_eq, ?_⟩
  · rw [Array.toList_push, List.map_append, List.map_append, hs.nodes_eq, hs.metrics_eq]
    rfl
  · rw [hedges]
    rfl
  · have hlog := hs.log_eq
    rw [List.map_nil, List.append_nil] at hlog ⊢
    rw [Log.events_push, hlog, List.map_append]
    rfl

theorem Lays.layEdge (hs : s.Lays m ns es) {x : EdgeEntry} (hsource : x.source ∈ ns.map NodeEntry.id)
    (htarget : x.target ∈ ns.map NodeEntry.id) :
    ∃ s', s.layEdge x = .ok s' ∧ s'.Lays m ns (es ++ [x]) := by
  obtain ⟨a, ha⟩ := hs.handle_of_mem hsource
  obtain ⟨b, hb⟩ := hs.handle_of_mem htarget
  obtain ⟨⟨k, s'⟩, hr⟩ := addEdge_known hs.indexed ha hb x.status
  refine ⟨s', by rw [Scene.layEdge, hr]; rfl, ?_⟩
  have hi := hs.indexed.addEdge hr
  obtain ⟨a', b', n, m', ⟨ha', -⟩, ⟨hb', -⟩, -, rfl⟩ := addEdge_ok hr
  have hid (h : Nat) : (joinedNodes s.nodes a' b' s.edges.size)[h]?.map Node.id = s.idOf? h := by
    simp only [idOf?, getElem?_joinedNodes, Option.map_map, Function.comp_def]
  refine ⟨hi, hs.metrics_eq, ?_, ?_, hs.selection_eq, ?_⟩
  · have hmap := map_joinedNodes Node.unlinked s.nodes a' b' s.edges.size
      (fun _ _ ↦ rfl) fun _ _ ↦ rfl
    rw [← hs.nodes_eq, ← Array.toList_map, hmap, Array.toList_map]
  · have hold (e : Edge α) : named { s with
        nodes := joinedNodes s.nodes a' b' s.edges.size
        edges := s.edges.push (.create a' b' x.status n m')
        log := s.log.push (.edgeAdded x.source x.target) } e = s.named e := by
      simp only [named, idOf?, hid]
    have hnew : s.named (.create a' b' x.status n m') = (some x.source, some x.target, x.status) := by
      rw [named, Edge.create, (hs.indexed _ _).mp ha', (hs.indexed _ _).mp hb']
    rw [funext hold, Array.toList_push, List.map_append, List.map_append, hs.edges_eq,
      List.map_singleton, List.map_singleton, hnew]
  · rw [Log.events_push, hs.log_eq, List.map_append, List.append_assoc]
    rfl

theorem layNodes (m : NodeMetrics α) (readings : Nat) (h : (ns.map NodeEntry.id).Nodup) :
    ∃ s, ns.foldlM Scene.layNode (empty m readings) = .ok s ∧ s.Lays m ns [] := by
  refine foldlM_build (P := fun ns s ↦ Lays s m ns []) (lays_empty m readings) ?_
  rintro pre n post s rfl hs
  rw [List.map_append, List.map_cons] at h
  exact hs.layNode fun hn ↦ (List.nodup_append.mp h).2.2 _ hn _ List.mem_cons_self rfl

theorem Lays.layEdges (hs : s.Lays m ns [])
    (h : ∀ x ∈ es, x.source ∈ ns.map NodeEntry.id ∧ x.target ∈ ns.map NodeEntry.id) :
    ∃ s', es.foldlM Scene.layEdge s = .ok s' ∧ s'.Lays m ns es := by
  refine foldlM_build (P := fun es s ↦ Lays s m ns es) hs ?_
  rintro pre x post s rfl hs
  obtain ⟨hsource, htarget⟩ := h x (by simp)
  exact hs.layEdge hsource htarget

theorem Lays.enabled (hs : s.Lays m ns es) {h : Nat} {n : Node α} (hn : s.nodes[h]? = some n) :
    n.enabled = true := by
  have hh := congrArg (·[h]?) hs.nodes_eq
  simp only [List.getElem?_map, Array.getElem?_toList, hn, Option.map_some] at hh
  obtain ⟨x, -, hx⟩ := Option.map_eq_some_iff.mp hh.symm
  exact congrArg Node.enabled hx.symm

theorem Lays.finished_eq (hs : s.Lays m ns es) (c : Config α) :
    s.finished c = (ns.filter fun n ↦ c.isTerminal n.status).map NodeEntry.id := by
  have h := congrArg (fun l ↦ (l.filter fun n ↦ c.isTerminal n.status).map Node.id) hs.nodes_eq
  simp only [List.filter_map, List.map_map] at h
  exact h

/-- A scene that shows a graph as it was when it had been loaded. -/
structure Shows (s : Scene α) (c : Config α) (g : Payload α) : Prop where
  nodes_eq : s.nodes.toList.map Node.unlinked = g.nodes.map fun n ↦
    { Node.create c.metrics n.id (n.label.getD n.id) ⟨n.x, n.y⟩ n.status with
      enabled := !c.isTerminal n.status }
  edges_eq : s.edges.toList.map s.named =
    g.edges.map fun x ↦ (some x.source, some x.target, x.status)
  selection_eq : s.selection = []
  log_eq : s.log.events = g.nodes.map (fun n ↦ .nodeAdded n.id n.status) ++
    g.edges.map (fun x ↦ .edgeAdded x.source x.target) ++
    if g.finished c = [] then [] else [.enabledChanged (g.finished c) false]

theorem Lays.getElem?_finished (hs : s.Lays m ns es) (c : Config α) {j : Nat} {n : Node α}
    (hn : s.nodes[j]? = some n) :
    Node.unlinked
        (if j ∈ (s.finished c).filterMap s.handle? then { n with enabled := false } else n) =
      { n.unlinked with enabled := !c.isTerminal n.status } := by
  have hmem := hs.indexed.mem_finished c hn
  have henabled := hs.enabled hn
  cases hterm : c.isTerminal n.status with
  | true =>
    rw [if_pos (hmem.mpr hterm)]
    rfl
  | false =>
    rw [if_neg fun h ↦ Bool.false_ne_true (hterm.symm.trans (hmem.mp h))]
    simp only [Node.unlinked, henabled, Bool.not_false]

theorem Lays.shows {c : Config α} {g : Payload α} (hs : s.Lays c.metrics g.nodes g.edges) :
    (s.setEnabled (s.finished c) false).Shows c g := by
  have hfin : s.finished c = g.finished c := hs.finished_eq c
  have hbare := bare_setEnabledHandles s ((s.finished c).filterMap s.handle?) false
  have hsel := view_setEnabledHandles selection (fun _ _ ↦ rfl) false (fun _ _ ↦ rfl) s
    ((s.finished c).filterMap s.handle?)
  refine ⟨?_, ?_, hsel.trans hs.selection_eq, ?_⟩
  · apply List.ext_getElem?
    intro j
    have hj := congrArg (·[j]?) hs.nodes_eq
    simp only [List.getElem?_map, Array.getElem?_toList] at hj
    rw [setEnabled, nodes_setEnabledHandles, List.getElem?_map, Array.getElem?_toList,
      getElem?_foldl_setEnabledAt, List.getElem?_map]
    cases hn : s.nodes[j]? with
    | none =>
      rw [hn, Option.map_none] at hj
      rw [Option.map_eq_none_iff.mp hj.symm]
      rfl
    | some n =>
      rw [hn, Option.map_some] at hj
      obtain ⟨x, hx, hxn⟩ := Option.map_eq_some_iff.mp hj.symm
      have hstatus : x.status = n.status := congrArg Node.status hxn
      rw [hx, Option.map_some, Option.map_some, Option.map_some, hs.getElem?_finished c hn, ← hxn,
        ← hstatus]
      rfl
  · have hnamed : named (s.setEnabled (s.finished c) false) = s.named := by
      funext e
      simp only [named, idOf?_of_shape (shape_of_bare hbare), setEnabled]
    rw [hnamed, ← hs.edges_eq]
    exact congrArg (fun t ↦ t.edges.toList.map s.named) hbare
  · have hnodup : (s.finished c).Nodup := hs.indexed.ids_nodup.sublist (List.filter_sublist.map _)
    have hflag : ∀ h ∈ (s.finished c).filterMap s.handle?,
        ∃ n, s.nodes[h]? = some n ∧ n.enabled ≠ false := by
      intro h hh
      obtain ⟨id, -, hid⟩ := List.mem_filterMap.mp hh
      obtain ⟨n, hn, -⟩ := hs.indexed.node_of_handle hid
      exact ⟨n, hn, by simp [hs.enabled hn]⟩
    have hknown : ∀ id ∈ s.finished c, ∃ h, s.handle? id = some h := fun id hid ↦
      hs.indexed.handle_of_mem ((List.filter_sublist.map _).mem hid)
    rw [setEnabled, events_setEnabledHandles, snd_foldl_setEnabledAt,
      flips_eq_self (hs.indexed.handles_nodup hnodup) hflag, List.nil_append,
      hs.indexed.filterMap_handle hknown, hs.log_eq, hfin]

end Scene

end Diagram
