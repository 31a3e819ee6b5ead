import Diagram.Proofs.Scene.Linking

namespace Diagram

variable {α : Type}

namespace Scene

/-- At most one node is selected, and the nodes and the scene agree on which. -/
structure Marked (s : Scene α) : Prop where
  length_le : s.selection.length ≤ 1
  lt : ∀ h ∈ s.selection, h < s.nodes.size
  selected_iff : ∀ {h n}, s.nodes[h]? = some n → (n.selected = true ↔ h ∈ s.selection)

def marks (s : Scene α) : List Nat × Array Bool := (s.selection, s.nodes.map Node.selected)

variable {s s' : Scene α}

theorem Marked.of_marks (hs : s.Marked) (h : s'.marks = s.marks) : s'.Marked := by
  have hsel : s'.selection = s.selection := congrArg (·.1) h
  have hm : s'.nodes.map Node.selected = s.nodes.map Node.selected := congrArg (·.2) h
  have hsize : s'.nodes.size = s.nodes.size := by
    simpa only [Array.size_map] using congrArg Array.size hm
  refine ⟨hsel ▸ hs.length_le, fun j hj ↦ hsize ▸ hs.lt j (hsel ▸ hj), fun {j n'} hn ↦ ?_⟩
  have hj := congrArg (·[j]?) hm
  simp only [Array.getElem?_map, hn, Option.map_some] at hj
  obtain ⟨n, hn, hflag⟩ := Option.map_eq_some_iff.mp hj.symm
  rw [hsel, ← hflag]
  exact hs.selected_iff hn

theorem Marked.selection_cases (hs : s.Marked) : s.selection = [] ∨ ∃ (h : Nat) (n : Node α),
    s.selection = [h] ∧ s.nodes[h]? = some n ∧ s.selectedId? = some n.id := by
  cases hsel : s.selection with
  | nil => exact .inl rfl
  | cons h rest =>
    have hlen := hs.length_le
    rw [hsel, List.length_cons] at hlen
    obtain rfl : rest = [] := List.eq_nil_of_length_eq_zero (by omega)
    have hlt := hs.lt h (hsel ▸ List.mem_singleton_self h)
    have hn := Array.getElem?_eq_getElem hlt
    refine .inr ⟨h, s.nodes[h], rfl, hn, ?_⟩
    rw [selectedId?, hsel, List.head?_cons, Option.bind_eq_bind, Option.bind_some, idOf?, hn,
      Option.map_some]

theorem marks_modifyNode (s : Scene α) (h : Nat) (f : Node α → Node α)
    (hf : ∀ n, (f n).selected = n.selected) : (s.modifyNode h f).marks = s.marks := by
  simp only [marks, modifyNode, map_modify Node.selected f hf]

theorem marks_setEnabledHandles (s : Scene α) (handles : List Nat) (enabled : Bool) :
    (s.setEnabledHandles handles enabled).marks = s.marks :=
  view_setEnabledHandles marks (fun _ _ ↦ rfl) enabled
    (fun s h ↦ marks_modifyNode s h _ fun _ ↦ rfl) s handles

theorem marks_setStatus (s : Scene α) (status : String) : (s.setStatus status).marks = s.marks :=
  view_setStatus marks (fun _ _ ↦ rfl) status (fun s h ↦ marks_modifyNode s h _ fun _ ↦ rfl) s

theorem nodes_foldl_modifyNode (f : Node α → Node α) (handles : List Nat) (s : Scene α) :
    (handles.foldl (fun s h ↦ s.modifyNode h f) s).nodes =
      handles.foldl (fun nodes h ↦ nodes.modify h f) s.nodes := by
  induction handles generalizing s with
  | nil => rfl
  | cons h handles ih => exact ih (s.modifyNode h f)

theorem getElem?_deselect (hs : s.Marked) (j : Nat) :
    s.deselect.nodes[j]? = s.nodes[j]?.map fun n ↦ { n with selected := false } := by
  have hn : s.deselect.nodes = s.selection.foldl
      (fun nodes h ↦ nodes.modify h fun n ↦ { n with selected := false }) s.nodes :=
    nodes_foldl_modifyNode _ s.selection s
  rw [hn, getElem?_foldl_modify (fun n : Node α ↦ { n with selected := false }) fun _ ↦ rfl]
  split
  · rfl
  · next hj =>
    cases hnj : s.nodes[j]? with
    | none => rfl
    | some n =>
      have hflag : n.selected = false := by
        rw [← Bool.not_eq_true, hs.selected_iff hnj]
        exact hj
      rw [Option.map_some, ← hflag]

theorem getElem?_select (hs : s.Marked) {id : String} (hr : s.select id = .ok s') :
    ∃ h, s.handle? id = some h ∧ s'.selection = [h] ∧
      ∀ j : Nat, s'.nodes[j]? = s.nodes[j]?.map fun n ↦ { n with selected := decide (h = j) } := by
  obtain ⟨h, hh, rfl⟩ := select_ok hr
  refine ⟨h, hh, rfl, fun j ↦ ?_⟩
  simp only [setFlag, modifyNode, Array.getElem?_modify, getElem?_deselect hs]
  by_cases hj : h = j
  · simp [hj, Function.comp_def]
  · simp [hj]

theorem marked_empty (metrics : NodeMetrics α) (readings : Nat) :
    (empty metrics readings).Marked := by
  refine ⟨by simp [empty], fun h hh ↦ ?_, fun hn ↦ ?_⟩
  · simp [empty] at hh
  · simp [empty] at hn

theorem Marked.select (hs : s.Marked) (hi : s.Indexed) {id : String} (hr : s.select id = .ok s') :
    s'.Marked := by
  obtain ⟨h, hh, hsel, hn⟩ := getElem?_select hs hr
  refine ⟨by simp [hsel], fun j hj ↦ ?_, fun {j n'} hnj ↦ ?_⟩
  · rw [hsel, List.mem_singleton] at hj
    subst hj
    obtain ⟨n, hnh, -⟩ := hi.node_of_handle hh
    have hnh' := (hn j).trans (congrArg _ hnh)
    exact (Array.getElem?_eq_some_iff.mp hnh').1
  · rw [hn, Option.map_eq_some_iff] at hnj
    obtain ⟨n, -, rfl⟩ := hnj
    rw [hsel, List.mem_singleton, decide_eq_true_eq]
    exact eq_comm

theorem Marked.clearSelection (hs : s.Marked) : s.clearSelection.Marked := by
  unfold Scene.clearSelection
  split
  · exact hs
  · refine ⟨Nat.zero_le 1, fun j hj ↦ ?_, fun {j n'} hnj ↦ ?_⟩
    · exact absurd hj List.not_mem_nil
    · simp only [record, getElem?_deselect hs, Option.map_eq_some_iff] at hnj
      obtain ⟨n, -, rfl⟩ := hnj
      simp [record, deselect]

/-- What holds of the numbering, the links and the selection of every scene. -/
structure Sound (s : Scene α) : Prop where
  indexed : s.Indexed
  linked : s.Linked
  marked : s.Marked

theorem sound_empty (metrics : NodeMetrics α) (readings : Nat) : (empty metrics readings).Sound :=
  ⟨indexed_empty metrics readings, linked_empty metrics readings, marked_empty metrics readings⟩

theorem Sound.select_exists (hs : s.Sound) {n : Node α} (hn : n ∈ s.nodes) :
    ∃ s', s.select n.id = .ok s' := by
  obtain ⟨h, hh⟩ := Array.mem_iff_getElem?.mp hn
  have hid : s.handle? n.id = some h := (hs.indexed n.id h).mpr (by rw [idOf?, hh]; rfl)
  cases hr : s.select n.id with
  | error _ => simp [select, require, hid, bind, Except.bind, pure, Except.pure] at hr
  | ok s' => exact ⟨s', rfl⟩

theorem Sound.select_marks (hs : s.Sound) {id : String} (hr : s.select id = .ok s') :
    s'.selectedId? = some id ∧ ∀ n ∈ s'.nodes, n.selected = true ↔ n.id = id := by
  obtain ⟨h, hh, hsel, hn⟩ := getElem?_select hs.marked hr
  have hid : s.idOf? h = some id := (hs.indexed id h).mp hh
  have hid' (j : Nat) : s'.idOf? j = s.idOf? j := by
    simp only [idOf?, hn j, Option.map_map, Function.comp_def]
  refine ⟨?_, fun n hm ↦ ?_⟩
  · rw [selectedId?, hsel]
    exact (hid' h).trans hid
  · obtain ⟨j, hj⟩ := Array.mem_iff_getElem?.mp hm
    have hjd : s.idOf? j = some n.id := (hid' j).symm.trans (by rw [idOf?, hj]; rfl)
    rw [hn j, Option.map_eq_some_iff] at hj
    obtain ⟨n, -, rfl⟩ := hj
    rw [decide_eq_true_eq]
    constructor
    · rintro rfl
      exact Option.some.inj (hjd.symm.trans hid)
    · intro he
      have hjh := (hs.indexed _ j).mpr hjd
      rw [he, hh] at hjh
      exact Option.some.inj hjh

variable [Arith α]

theorem marks_moveHandle (s : Scene α) (h : Nat) (d : Offset α) :
    (s.moveHandle h d).marks = s.marks := by
  simp only [marks, moveHandle, map_modify Node.selected (·.moveBy d) fun _ ↦ rfl]

theorem Marked.addNode (hs : s.Marked) {h : Nat} {id label : String} {p : Point α}
    {status : String} (hr : s.addNode id label p status = .ok (h, s')) : s'.Marked := by
  obtain ⟨-, -, rfl⟩ := addNode_ok hr
  refine ⟨hs.length_le, fun j hj ↦ ?_, fun {j n} hn ↦ ?_⟩
  · have := hs.lt j hj
    simp only [Array.size_push]
    omega
  · simp only [Array.getElem?_push] at hn
    split at hn
    · next hj =>
      cases hn
      have hout : j ∉ s.selection := fun h ↦ absurd (hs.lt j h) (by omega)
      simp [Node.create, hout]
    · exact hs.selected_iff hn

theorem marks_addEdge {k : Nat} {source target status : String}
    (hr : s.addEdge source target status = .ok (k, s')) : s'.marks = s.marks := by
  obtain ⟨a, b, n, m, -, -, -, rfl⟩ := addEdge_ok hr
  exact congrArg (Prod.mk s.selection) (map_joinedNodes Node.selected _ a b _ (fun _ _ ↦ rfl)
    fun _ _ ↦ rfl)

theorem Marked.edit (hs : s.Marked) (hi : s.Indexed) (e : SceneEdit α) : (s.edit e).Marked := by
  rcases edit_change s e with rfl | hc
  · exact hs.of_marks rfl
  · generalize s.edit e = t at hc ⊢
    cases hc with
    | nothing => exact hs
    | addNode hr => exact hs.addNode hr
    | addEdge hr => exact hs.of_marks (marks_addEdge hr)
    | move handles d =>
      exact hs.of_marks (view_foldl marks _ (fun s h ↦ marks_moveHandle s h d) handles s)
    | select hr => exact hs.select hi hr
    | clearSelection => exact hs.clearSelection
    | setEnabled handles enabled => exact hs.of_marks (marks_setEnabledHandles s handles enabled)
    | setStatus status => exact hs.of_marks (marks_setStatus s status)

theorem Sound.edit (hs : s.Sound) (e : SceneEdit α) : (s.edit e).Sound :=
  ⟨hs.indexed.edit e, hs.linked.edit e, hs.marked.edit hs.indexed e⟩

theorem sound_run (metrics : NodeMetrics α) (edits : List (SceneEdit α)) (readings : Nat := 0) :
    (run metrics edits readings).Sound :=
  run_induct (sound_empty metrics readings) (fun _ e hs ↦ hs.edit e) edits

theorem Reachable.sound {metrics : NodeMetrics α} (hs : s.Reachable metrics) : s.Sound := by
  obtain ⟨edits, readings, rfl⟩ := hs
  exact sound_run metrics edits readings

end Scene

end Diagram
