import Diagram.Proofs.Scene.Numbering

namespace Diagram

variable {α β γ ε : Type}

theorem foldlM_eq_foldl {P : γ → Prop} {f : γ → β → Option γ} {g : γ → β → γ} {xs : List β} {s : γ}
    (start : P s) (step : ∀ {s x}, x ∈ xs → P s → f s x = some (g s x) ∧ P (g s x)) :
    xs.foldlM f s = some (xs.foldl g s) := by
  induction xs generalizing s with
  | nil => rfl
  | cons x xs ih =>
    obtain ⟨h, hp⟩ := step List.mem_cons_self start
    rw [List.foldlM_cons, h, List.foldl_cons]
    exact ih hp fun hx ↦ step (List.mem_cons_of_mem x hx)

theorem mapM_eq_filterMap {f : β → Option γ} {xs : List β} (h : ∀ x ∈ xs, (f x).isSome) :
    xs.mapM f = some (xs.filterMap f) := by
  induction xs with
  | nil => rfl
  | cons x xs ih =>
    obtain ⟨y, hy⟩ := Option.isSome_iff_exists.mp (h x List.mem_cons_self)
    rw [List.mapM_cons, hy, ih fun x hx ↦ h x (List.mem_cons_of_mem _ hx),
      List.filterMap_cons_some hy]
    rfl

theorem liftM_some (x : β) : (liftM (some x) : ExceptT ε Option β) = pure x := rfl

namespace Scene

/-- All numbers by which the scene or a call finds nodes and edges are numbers of nodes and edges. -/
structure InRange (s : Scene α) : Prop where
  index : ∀ {id : String} {h : Nat}, s.handle? id = some h → h < s.nodes.size
  selection : ∀ h ∈ s.selection, h < s.nodes.size
  ends : ∀ e ∈ s.edges, e.source < s.nodes.size ∧ e.target < s.nodes.size
  adjacent : ∀ n ∈ s.nodes, ∀ k ∈ n.edges, k < s.edges.size
  ancestors : ∀ start, ∀ h ∈ s.ancestors start, h < s.nodes.size

variable {s : Scene α}

theorem lt_of_mem_positions_map {f : Edge α → Nat} {h k : Nat}
    (hk : k ∈ positions (s.edges.map f) h) : k < s.edges.size := by
  obtain ⟨e, he, -⟩ := mem_positions_map.mp hk
  exact (Array.getElem?_eq_some_iff.mp he).1

theorem Linked.edges_lt (hs : s.Linked) {h : Nat} {n : Node α} (hn : s.nodes[h]? = some n) :
    ∀ k ∈ n.edges, k < s.edges.size := by
  intro k hk
  rw [Node.edges, hs.outEdges_eq hn, hs.inEdges_eq hn, List.mem_append] at hk
  exact hk.elim lt_of_mem_positions_map lt_of_mem_positions_map

theorem mem_of_mem_fresh {h : Nat} {seen hs : List Nat} (hh : h ∈ fresh seen hs) : h ∈ hs := by
  induction hs generalizing seen with
  | nil => exact hh
  | cons x hs ih =>
    rw [fresh] at hh
    split at hh
    · exact List.mem_cons_of_mem x (ih hh)
    · rcases List.mem_cons.mp hh with rfl | hh
      · exact List.mem_cons_self
      · exact List.mem_cons_of_mem x (ih hh)

theorem Linked.parents_lt (hs : s.Linked) (h : Nat) :
    ∀ p ∈ s.parents h, p < s.nodes.size := by
  intro p hp
  obtain ⟨k, -, hk⟩ := List.mem_filterMap.mp hp
  obtain ⟨e, he, rfl⟩ := Option.map_eq_some_iff.mp hk
  exact (hs.ends_lt e (Array.mem_of_getElem? he)).1

theorem Linked.search_lt (hs : s.Linked) (start : List Nat) (fuel : Nat)
    {queue found : List Nat} (hf : ∀ h ∈ found, h < s.nodes.size) :
    ∀ h ∈ s.search start fuel queue found, h < s.nodes.size := by
  induction fuel generalizing queue found with
  | zero => exact hf
  | succ fuel ih =>
    cases queue with
    | nil => exact hf
    | cons x queue =>
      refine ih fun h hh ↦ ?_
      rcases List.mem_append.mp hh with hh | hh
      · exact hf h hh
      · exact hs.parents_lt x h (mem_of_mem_fresh hh)

theorem Linked.ancestors_lt (hs : s.Linked) (start : List Nat) :
    ∀ h ∈ s.ancestors start, h < s.nodes.size :=
  hs.search_lt start _ fun _ hh ↦ absurd hh List.not_mem_nil

theorem Indexed.handle_lt (hs : s.Indexed) {id : String} {h : Nat}
    (hh : s.handle? id = some h) : h < s.nodes.size := by
  obtain ⟨n, hn, -⟩ := hs.node_of_handle hh
  exact (Array.getElem?_eq_some_iff.mp hn).1

theorem Sound.inRange (hs : s.Sound) : s.InRange where
  index := hs.indexed.handle_lt
  selection := hs.marked.lt
  ends := hs.linked.ends_lt
  adjacent n hn := by
    obtain ⟨h, hh⟩ := Array.mem_iff_getElem?.mp hn
    exact hs.linked.edges_lt hh
  ancestors := hs.linked.ancestors_lt

namespace Checked

def modifyNode (s : Scene α) (h : Nat) (f : Node α → Node α) : Option (Scene α) :=
  if h < s.nodes.size then some (s.modifyNode h f) else none

def addEdge [Arith α] (s : Scene α) (source target status : String) :
    ExceptT SceneError Option (Nat × Scene α) := do
  let some a := s.handle? source | throw (.unknownNode source target source)
  let some b := s.handle? target | throw (.unknownNode source target target)
  let n ← (s.nodes[a]? : Option (Node α))
  let m ← (s.nodes[b]? : Option (Node α))
  let k := s.edges.size
  let s := { s with edges := s.edges.push (.create a b status n m) }
  let s ← modifyNode s a fun n => { n with outEdges := n.outEdges ++ [k] }
  let s ← modifyNode s b fun n => { n with inEdges := n.inEdges ++ [k] }
  return (k, s.record (.edgeAdded source target))

/-- Looks at every edge in the list of the node, also at those after the one that is found. -/
def findEdge? (s : Scene α) (source target : String) : Option (Option (Edge α)) :=
  match s.handle? source, s.handle? target with
  | some a, some b => do
    let n ← s.nodes[a]?
    let edges ← n.outEdges.mapM fun k => s.edges[k]?
    return edges.find? (·.target == b)
  | _, _ => some none

def rerouteEdge [Arith α] (nodes : Array (Node α)) (edges : Array (Edge α)) (k : Nat) :
    Option (Array (Edge α)) := do
  let e ← edges[k]?
  let a ← nodes[e.source]?
  let b ← nodes[e.target]?
  return edges.modify k (·.reroute a b)

def moveHandle [Arith α] (s : Scene α) (h : Nat) (d : Offset α) : Option (Scene α) := do
  let s ← modifyNode s h (·.moveBy d)
  let n ← s.nodes[h]?
  let edges ← n.edges.foldlM (rerouteEdge s.nodes) s.edges
  return { s with edges }

def moveSelected [Arith α] (s : Scene α) (d : Offset α) : Option (Scene α) :=
  s.selection.foldlM (fun s h => moveHandle s h d) s

def selectedId? (s : Scene α) : Option (Option String) :=
  match s.selection with
  | [] => some none
  | h :: _ => do
    let n ← s.nodes[h]?
    return some n.id

def deselect (s : Scene α) : Option (Scene α) := do
  let s ← s.selection.foldlM (fun s h => modifyNode s h ({ · with selected := false })) s
  return { s with selection := [] }

def select (s : Scene α) (id : String) : ExceptT SceneError Option (Scene α) := do
  let some h := s.handle? id | throw (.notFound id)
  let old ← selectedId? s
  let s ← deselect s
  let s ← modifyNode s h ({ · with selected := true })
  return { s with selection := [h] }.record (.selectionChanged old (some id))

def clearSelection (s : Scene α) : Option (Scene α) :=
  if s.selection.isEmpty then some s
  else do
    let old ← selectedId? s
    let s ← deselect s
    return s.record (.selectionChanged old none)

def setStatusAt (status : String) (state : Scene α × List String) (h : Nat) :
    Option (Scene α × List String) := do
  let s ← modifyNode state.1 h ({ · with status })
  let n ← s.nodes[h]?
  return (s, state.2 ++ [n.id])

def setStatus (s : Scene α) (status : String) : Option (Scene α) :=
  if s.selection.isEmpty then some s
  else do
    let (s, ids) ← s.selection.foldlM (setStatusAt status) (s, [])
    return s.record (.statusChanged ids status)

def setEnabledAt (enabled : Bool) (state : Scene α × List String) (h : Nat) :
    Option (Scene α × List String) := do
  let n ← state.1.nodes[h]?
  if n.enabled == enabled then return state
  else return (← modifyNode state.1 h ({ · with enabled }), state.2 ++ [n.id])

def setEnabledHandles (s : Scene α) (handles : List Nat) (enabled : Bool) : Option (Scene α) := do
  let (s, changed) ← handles.foldlM (setEnabledAt enabled) (s, [])
  return if changed.isEmpty then s else s.record (.enabledChanged changed enabled)

def setEnabled (s : Scene α) (ids : List String) (enabled : Bool) : Option (Scene α) :=
  setEnabledHandles s (ids.filterMap s.handle?) enabled

def setSelectionEnabled (s : Scene α) (enabled : Bool) : Option (Scene α) :=
  setEnabledHandles s s.selection enabled

def enableAll (s : Scene α) : Option (Scene α) :=
  setEnabledHandles s (List.range s.nodes.size) true

/-- A node that is not there has no parents; an edge that is listed has to be there. -/
def parents (s : Scene α) (h : Nat) : Option (List Nat) :=
  ((s.nodes[h]?.map Node.inEdges).getD []).mapM fun k => s.edges[k]?.map Edge.source

def search (s : Scene α) (start : List Nat) : Nat → List Nat → List Nat → Option (List Nat)
  | 0, _, found => some found
  | _ + 1, [], found => some found
  | fuel + 1, h :: queue, found => do
    let new := fresh (start ++ found) (← parents s h)
    search s start fuel (queue ++ new) (found ++ new)

def disableAncestors (s : Scene α) : Option (Scene α) := do
  let ancestors ← search s s.selection (s.selection.length + s.edges.size + 1) s.selection []
  setEnabledHandles s ancestors false

theorem modifyNode_eq {h : Nat} (hh : h < s.nodes.size) (f : Node α → Node α) :
    modifyNode s h f = some (s.modifyNode h f) := if_pos hh

theorem size_modifyNode (s : Scene α) (h : Nat) (f : Node α → Node α) :
    (s.modifyNode h f).nodes.size = s.nodes.size := Array.size_modify

theorem foldlM_modifyNode_eq (f : Node α → Node α) {handles : List Nat}
    (hh : ∀ h ∈ handles, h < s.nodes.size) :
    handles.foldlM (fun s h ↦ modifyNode s h f) s =
      some (handles.foldl (fun s h ↦ s.modifyNode h f) s) := by
  refine foldlM_eq_foldl (P := fun t ↦ t.nodes.size = s.nodes.size) rfl fun hmem ht ↦ ?_
  exact ⟨modifyNode_eq (ht ▸ hh _ hmem) f, (size_modifyNode _ _ f).trans ht⟩

theorem selectedId?_eq (hs : ∀ h ∈ s.selection, h < s.nodes.size) :
    selectedId? s = some s.selectedId? := by
  unfold selectedId? Scene.selectedId?
  cases hsel : s.selection with
  | nil => rfl
  | cons h rest =>
    have hh := hs h (hsel ▸ List.mem_cons_self)
    simp [idOf?, Array.getElem?_eq_getElem hh]

theorem deselect_eq (hs : ∀ h ∈ s.selection, h < s.nodes.size) :
    deselect s = some s.deselect := by
  rw [deselect, foldlM_modifyNode_eq _ hs]
  rfl

theorem size_deselect (s : Scene α) : s.deselect.nodes.size = s.nodes.size :=
  size_of_shape (shape_of_bare (bare_deselect s))

theorem select_eq (hs : s.Sound) (id : String) : (select s id).run = some (s.select id) := by
  unfold select Scene.select require
  cases hid : s.handle? id with
  | none => rfl
  | some h =>
    have hh : h < s.deselect.nodes.size := size_deselect s ▸ hs.indexed.handle_lt hid
    simp only [selectedId?_eq hs.marked.lt, deselect_eq hs.marked.lt, liftM_some, pure_bind,
      modifyNode_eq hh]
    rfl

theorem clearSelection_eq (hs : s.Sound) : clearSelection s = some s.clearSelection := by
  unfold clearSelection Scene.clearSelection
  split
  · rfl
  · rw [selectedId?_eq hs.marked.lt, deselect_eq hs.marked.lt]
    rfl

theorem setStatusAt_eq {state : Scene α × List String} {h : Nat} (hh : h < state.1.nodes.size)
    (status : String) : setStatusAt status state h =
      some (state.1.modifyNode h ({ · with status }), state.2 ++ (state.1.idOf? h).toList) := by
  simp [setStatusAt, modifyNode_eq hh, Scene.modifyNode, idOf?, Array.getElem?_modify,
    Array.getElem?_eq_getElem hh]

theorem setStatus_eq (hs : s.Sound) (status : String) :
    setStatus s status = some (s.setStatus status) := by
  unfold setStatus Scene.setStatus
  -- With one node at most, it does not matter whether its id is read before or after.
  obtain hsel | ⟨h, n, hsel, hn, -⟩ := hs.marked.selection_cases
  · rw [hsel]
    rfl
  · have hh := hs.marked.lt h (hsel ▸ List.mem_singleton_self h)
    have hid : s.idOf? h = some n.id := congrArg _ hn
    have hat : setStatusAt status (s, []) h = some _ := setStatusAt_eq hh status
    simp only [hsel, List.isEmpty_cons, Bool.false_eq_true, ↓reduceIte, List.foldlM_cons, hat,
      List.foldlM_nil, List.foldl_cons, List.foldl_nil, List.filterMap_cons_some hid, hid]
    rfl

theorem setEnabledAt_eq {state : Scene α × List String} {h : Nat} (hh : h < state.1.nodes.size)
    (enabled : Bool) : setEnabledAt enabled state h = some (Scene.setEnabledAt enabled state h) := by
  unfold setEnabledAt Scene.setEnabledAt
  rw [Array.getElem?_eq_getElem hh, Option.bind_eq_bind, Option.bind_some, modifyNode_eq hh]
  dsimp only
  split <;> rfl

theorem setEnabledHandles_eq {handles : List Nat} (hh : ∀ h ∈ handles, h < s.nodes.size)
    (enabled : Bool) :
    setEnabledHandles s handles enabled = some (s.setEnabledHandles handles enabled) := by
  have hfold : handles.foldlM (setEnabledAt enabled) (s, []) =
      some (handles.foldl (Scene.setEnabledAt enabled) (s, [])) := by
    refine foldlM_eq_foldl (P := fun t ↦ t.1.nodes.size = s.nodes.size) rfl fun hmem ht ↦ ?_
    refine ⟨setEnabledAt_eq (ht ▸ hh _ hmem) enabled, ?_⟩
    exact (view_foldl_setEnabledAt (·.nodes.size) enabled
      (fun s h ↦ size_modifyNode s h _) [_] _).trans ht
  rw [setEnabledHandles, hfold]
  rfl

theorem setEnabled_eq (hs : s.Indexed) (ids : List String) (enabled : Bool) :
    setEnabled s ids enabled = some (s.setEnabled ids enabled) := by
  refine setEnabledHandles_eq (fun h hh ↦ ?_) enabled
  obtain ⟨id, -, hid⟩ := List.mem_filterMap.mp hh
  exact hs.handle_lt hid

theorem setSelectionEnabled_eq (hs : s.Marked) (enabled : Bool) :
    setSelectionEnabled s enabled = some (s.setSelectionEnabled enabled) :=
  setEnabledHandles_eq hs.lt enabled

theorem enableAll_eq (s : Scene α) : enableAll s = some s.enableAll :=
  setEnabledHandles_eq (fun _ ↦ List.mem_range.mp) true

theorem parents_eq (hs : s.Linked) (h : Nat) : parents s h = some (s.parents h) := by
  refine mapM_eq_filterMap fun k hk ↦ ?_
  cases hn : s.nodes[h]? with
  | none => simp [hn] at hk
  | some n =>
    rw [hn, Option.map_some, Option.getD_some] at hk
    have hlt := hs.edges_lt hn k (List.mem_append_right _ hk)
    rw [Array.getElem?_eq_getElem hlt]
    rfl

theorem search_eq (hs : s.Linked) (start : List Nat) (fuel : Nat) (queue found : List Nat) :
    search s start fuel queue found = some (s.search start fuel queue found) := by
  induction fuel generalizing queue found with
  | zero => rfl
  | succ fuel ih =>
    cases queue with
    | nil => rfl
    | cons h queue =>
      rw [search, parents_eq hs]
      exact ih _ _

theorem rerouteEdge_eq [Arith α] {nodes : Array (Node α)} {edges : Array (Edge α)} {k : Nat}
    (hk : k < edges.size)
    (hends : edges[k].source < nodes.size ∧ edges[k].target < nodes.size) :
    rerouteEdge nodes edges k = some (edges.modify k (Scene.rerouteEdge nodes)) := by
  have hs := Array.getElem?_eq_getElem hends.1
  have ht := Array.getElem?_eq_getElem hends.2
  have hr : Scene.rerouteEdge nodes edges[k] = edges[k].reroute nodes[edges[k].source]
      nodes[edges[k].target] := by
    rw [Scene.rerouteEdge, hs, ht]
  have hm : edges.modify k (·.reroute nodes[edges[k].source] nodes[edges[k].target]) =
      edges.modify k (Scene.rerouteEdge nodes) := by
    refine Array.ext_getElem? fun j ↦ ?_
    rw [Array.getElem?_modify, Array.getElem?_modify]
    split
    · next hj =>
      subst hj
      rw [Array.getElem?_eq_getElem hk, Option.map_some, Option.map_some, hr]
    · rfl
  rw [rerouteEdge, Array.getElem?_eq_getElem hk, Option.bind_eq_bind, Option.bind_some, hs, ht,
    ← hm]
  rfl

theorem foldlM_rerouteEdge_eq [Arith α] {nodes : Array (Node α)} {edges : Array (Edge α)}
    (hends : ∀ e ∈ edges, e.source < nodes.size ∧ e.target < nodes.size) {ks : List Nat}
    (hk : ∀ k ∈ ks, k < edges.size) : ks.foldlM (rerouteEdge nodes) edges =
      some (ks.foldl (fun edges k ↦ edges.modify k (Scene.rerouteEdge nodes)) edges) := by
  -- What has been drawn anew still joins the nodes that it joined.
  refine foldlM_eq_foldl (P := fun edges' ↦ edges'.map Edge.core = edges.map Edge.core) rfl
    fun {edges' k} hmem hp ↦ ?_
  have hsize : edges'.size = edges.size := by
    simpa only [Array.size_map] using congrArg Array.size hp
  have hlt : k < edges'.size := hsize ▸ hk k hmem
  refine ⟨rerouteEdge_eq hlt ?_, (map_modify Edge.core _ (core_rerouteEdge nodes) edges' k).trans hp⟩
  have hc : edges'[k].core ∈ edges.map Edge.core :=
    hp ▸ Array.mem_map_of_mem (Array.getElem_mem hlt)
  obtain ⟨e, he, hc⟩ := Array.mem_map.mp hc
  simp only [Edge.core, Prod.mk.injEq] at hc
  rw [← hc.1, ← hc.2.1]
  exact hends e he

theorem moveHandle_eq [Arith α] (hs : s.Linked) {h : Nat} (hh : h < s.nodes.size) (d : Offset α) :
    moveHandle s h d = some (s.moveHandle h d) := by
  have hn := Array.getElem?_eq_getElem hh
  have hmoved : (s.nodes.modify h (·.moveBy d))[h]? = some (s.nodes[h].moveBy d) := by
    rw [Array.getElem?_modify, if_pos rfl, hn, Option.map_some]
  have hfold : (s.nodes[h].moveBy d).edges.foldlM (rerouteEdge (s.nodes.modify h (·.moveBy d)))
      s.edges = some _ := foldlM_rerouteEdge_eq
    (fun e he ↦ by simpa only [Array.size_modify] using hs.ends_lt e he)
    (show ∀ k ∈ s.nodes[h].edges, _ from hs.edges_lt hn)
  simp only [moveHandle, modifyNode_eq hh, Scene.modifyNode, Option.bind_eq_bind, Option.bind_some,
    hmoved, hfold, Scene.moveHandle, hn, Option.map_some, Option.getD_some]
  rfl

theorem moveSelected_eq [Arith α] (hs : s.Sound) (d : Offset α) :
    moveSelected s d = some (s.moveSelected d) := by
  refine foldlM_eq_foldl (P := fun t ↦ t.shape = s.shape) rfl fun {t h} hmem ht ↦ ?_
  have hh : h < t.nodes.size := size_of_shape ht ▸ hs.marked.lt h hmem
  exact ⟨moveHandle_eq (hs.linked.of_shape ht) hh d, (shape_moveHandle t h d).trans ht⟩

theorem addEdge_eq [Arith α] (hs : s.Indexed) (source target status : String) :
    (addEdge s source target status).run = some (s.addEdge source target status) := by
  unfold addEdge Scene.addEdge endpoint
  cases ha : s.handle? source with
  | none => rfl
  | some a =>
    obtain ⟨n, hn, -⟩ := hs.node_of_handle ha
    cases hb : s.handle? target with
    | none =>
      simp only [Option.bind_eq_bind, Option.bind_some, hn, Option.map_some]
      rfl
    | some b =>
      obtain ⟨m, hm, -⟩ := hs.node_of_handle hb
      simp only [Option.bind_eq_bind, Option.bind_some, hn, hm, Option.map_some, liftM_some,
        pure_bind]
      rw [modifyNode_eq, liftM_some, pure_bind, modifyNode_eq, liftM_some, pure_bind]
      · rfl
      · exact (size_modifyNode _ a _).symm ▸ hs.handle_lt hb
      · exact hs.handle_lt ha

theorem findEdge?_eq (hs : s.Sound) (source target : String) :
    findEdge? s source target = some (s.findEdge? source target) := by
  unfold findEdge? Scene.findEdge?
  cases ha : s.handle? source with
  | none => rfl
  | some a =>
    cases hb : s.handle? target with
    | none => rfl
    | some b =>
      obtain ⟨n, hn, -⟩ := hs.indexed.node_of_handle ha
      have hout : n.outEdges.mapM (fun k ↦ s.edges[k]?) =
          some (n.outEdges.filterMap fun k ↦ s.edges[k]?) := by
        refine mapM_eq_filterMap fun k hk ↦ ?_
        have hlt := hs.linked.edges_lt hn k (List.mem_append_left _ hk)
        rw [Array.getElem?_eq_getElem hlt]
        rfl
      simp only [hn, hout, Option.bind_eq_bind, Option.bind_some]
      rfl

theorem disableAncestors_eq (hs : s.Linked) :
    disableAncestors s = some s.disableAncestors := by
  rw [disableAncestors, search_eq hs]
  exact setEnabledHandles_eq (hs.ancestors_lt s.selection) false

end Checked

end Scene

end Diagram
