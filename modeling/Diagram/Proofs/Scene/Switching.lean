import Diagram.Proofs.Scene.Finding
import Diagram.Proofs.Scene.Searching
import Diagram.Proofs.Scene.Serializing

namespace Diagram

variable {α : Type}

/-- What is left of a list, each element once, is in the order in which the list came to it first. -/
theorem pairwise_idxOf (xs : List Nat) (q : Nat → Bool) :
    (xs.filter q).eraseDups.Pairwise (xs.idxOf · < xs.idxOf ·) := by
  induction xs generalizing q with
  | nil => exact List.Pairwise.nil
  | cons x xs ih =>
    have hshift {q : Nat → Bool} (hx : q x = false) :
        (xs.filter q).eraseDups.Pairwise ((x :: xs).idxOf · < (x :: xs).idxOf ·) := by
      have hne {y : Nat} (hy : y ∈ (xs.filter q).eraseDups) : x ≠ y := by
        rintro rfl
        have hq := (List.mem_filter.mp (List.mem_eraseDups.mp hy)).2
        rw [hx] at hq
        cases hq
      refine (ih q).imp_of_mem fun {y z} hy hz hyz ↦ ?_
      rw [List.idxOf_cons_ne _ (hne hy), List.idxOf_cons_ne _ (hne hz)]
      exact Nat.succ_lt_succ hyz
    cases hx : q x with
    | false =>
      rw [List.filter_cons_of_neg (by simp [hx])]
      exact hshift hx
    | true =>
      rw [List.filter_cons_of_pos hx, List.eraseDups_cons, List.filter_filter, List.pairwise_cons]
      refine ⟨fun y hy ↦ ?_, hshift (by simp)⟩
      have hne : x ≠ y := by
        rintro rfl
        simpa using (List.mem_filter.mp (List.mem_eraseDups.mp hy)).2
      rw [List.idxOf_cons_self, List.idxOf_cons_ne _ hne]
      exact Nat.succ_pos _

def SceneEdit.flag : SceneEdit α → Bool
  | .setEnabled _ enabled | .setSelectionEnabled enabled => enabled
  | .enableAll => true
  | _ => false

namespace Scene

/-- The nodes that an edit is to enable or disable, as it comes to them. -/
def targets (s : Scene α) : SceneEdit α → List Nat
  | .setEnabled ids _ => ids.filterMap s.handle?
  | .setSelectionEnabled _ => s.selection
  | .enableAll => List.range s.nodes.size
  | .disableAncestors => s.ancestors s.selection
  | _ => []

def Targets (s : Scene α) (h : Nat) (n : Node α) : SceneEdit α → Prop
  | .setEnabled ids _ => n.id ∈ ids
  | .setSelectionEnabled _ => n.selected = true
  | .enableAll => True
  | .disableAncestors => s.Upstream s.selection h
  | _ => False

variable {s s' : Scene α}

theorem parents_of_bare (h : s'.bare = s.bare) : s'.parents = s.parents := by
  funext j
  have he : s'.edges = s.edges := congrArg (·.edges) h
  have hn := congrArg (fun t : Scene α ↦ t.nodes[j]?.map Node.inEdges) h
  simp only [bare, Array.getElem?_map, Option.map_map] at hn
  have hin : s'.nodes[j]?.map Node.inEdges = s.nodes[j]?.map Node.inEdges := hn
  rw [parents, parents, he, hin]

theorem ancestors_of_bare (h : s'.bare = s.bare) (start : List Nat) :
    s'.ancestors start = s.ancestors start := by
  have hsearch (fuel : Nat) (queue found : List Nat) :
      s'.search start fuel queue found = s.search start fuel queue found := by
    induction fuel generalizing queue found with
    | zero => rfl
    | succ fuel ih =>
      cases queue with
      | nil => rfl
      | cons j queue => rw [search, search, ih, parents_of_bare h]
  have he : s'.edges = s.edges := congrArg (·.edges) h
  rw [ancestors, ancestors, hsearch, he]

theorem Linked.mem_ancestors (hs : s.Linked) {start : List Nat} {v : Nat} :
    v ∈ s.ancestors start ↔ s.Upstream start v := by
  have hi := Searching.init s start
  have hends : s.Ends start start [] (s.ancestors start) :=
    hi.ends hs (by simp only [List.length_nil]; omega)
  obtain ⟨done, hi⟩ := hi.of_ends hs hends
  exact hi.mem_found_iff hs

theorem Sound.targets_lt (hs : s.Sound) (x : SceneEdit α) {h : Nat} (hh : h ∈ s.targets x) :
    h < s.nodes.size := by
  cases x with
  | setEnabled ids enabled =>
    obtain ⟨id, -, hid⟩ := List.mem_filterMap.mp hh
    exact hs.indexed.handle_lt hid
  | setSelectionEnabled enabled => exact hs.marked.lt h hh
  | enableAll => exact List.mem_range.mp hh
  | disableAncestors => exact hs.linked.ancestors_lt _ h hh
  | _ => cases hh

theorem Sound.mem_targets_iff (hs : s.Sound) (x : SceneEdit α) {h : Nat} {n : Node α}
    (hn : s.nodes[h]? = some n) : h ∈ s.targets x ↔ s.Targets h n x := by
  cases x with
  | setEnabled ids enabled => exact hs.indexed.mem_handles hn ids
  | setSelectionEnabled enabled => exact (hs.marked.selected_iff hn).symm
  | enableAll => exact iff_of_true (List.mem_range.mpr (Array.getElem?_eq_some_iff.mp hn).1) trivial
  | disableAncestors => exact hs.linked.mem_ancestors
  | _ => exact List.mem_nil_iff h

theorem setEnabledHandles_of_set {handles : List Nat} {enabled : Bool}
    (hset : ∀ h ∈ handles, ∀ n, s.nodes[h]? = some n → n.enabled = enabled) :
    s.setEnabledHandles handles enabled = s := by
  have hfold : handles.foldl (setEnabledAt enabled) (s, []) = (s, []) := by
    refine List.foldlRecOn (motive := (· = (s, []))) handles _ rfl fun state hstate h hh ↦ ?_
    subst hstate
    refine setEnabledAt_eq_self (Bool.eq_false_iff.mpr fun hflag ↦ ?_) []
    obtain ⟨n, hn, hne⟩ := differs_eq_true.mp hflag
    exact hne (hset h hh n hn)
  rw [setEnabledHandles, hfold]
  rfl

theorem setEnabledHandles_rest (s : Scene α) (handles : List Nat) (enabled : Bool) :
    s.setEnabledHandles handles enabled = { s with
      nodes := (s.setEnabledHandles handles enabled).nodes
      log := (s.setEnabledHandles handles enabled).log } := by
  have hview := view_setEnabledHandles (fun t ↦ { t with nodes := #[], log := .empty })
    (fun _ _ ↦ rfl) enabled (fun _ _ ↦ rfl) s handles
  exact congrArg (fun t : Scene α ↦ { t with
    nodes := (s.setEnabledHandles handles enabled).nodes
    log := (s.setEnabledHandles handles enabled).log }) hview

theorem disabledText_eq (s : Scene α) : s.disabledText =
    String.join (((places s.nodes (!·.enabled)).filterMap s.idOf?).map (· ++ ",")) := by
  have hids : (places s.nodes (!·.enabled)).filterMap s.idOf? = s.disabledIds := by
    rw [disabledIds, ← filterMap_places, List.map_filterMap]
    rfl
  rw [disabledText, hids]

variable [Arith α]

theorem edit_enabling (s : Scene α) {x : SceneEdit α} (hx : x.isEnabling = true) :
    s.edit x = s.setEnabledHandles (s.targets x) x.flag := by
  cases x with
  | setEnabled ids enabled => rfl
  | setSelectionEnabled enabled => rfl
  | enableAll => rfl
  | disableAncestors => rfl
  | _ => cases hx

theorem targets_edit (s : Scene α) {x : SceneEdit α} (hx : x.isEnabling = true) :
    (s.edit x).targets x = s.targets x := by
  have hbare : (s.edit x).bare = s.bare :=
    edit_enabling s hx ▸ bare_setEnabledHandles s (s.targets x) x.flag
  have hsel : (s.edit x).selection = s.selection := by
    rw [edit_enabling s hx, setEnabledHandles_rest]
  cases x with
  | setEnabled ids enabled =>
    have hindex : (s.edit (.setEnabled ids enabled)).handle? = s.handle? :=
      funext fun id ↦ congrArg (·.index[id]?) hbare
    rw [targets, targets, hindex]
  | setSelectionEnabled enabled => exact hsel
  | enableAll => exact congrArg List.range (size_of_shape (shape_of_bare hbare))
  | disableAncestors => rw [targets, targets, hsel, ancestors_of_bare hbare]
  | _ => cases hx

open scoped Classical in
/-- An edit sets the flags of the nodes it is for and does nothing else but tell, in one event, of the
nodes `flipped` whose flags were other ones. Those that are disabled then are `left`. -/
structure Switches (s : Scene α) (x : SceneEdit α) (flipped left : List Nat) : Prop where
  mem_targets : ∀ h, h ∈ s.targets x ↔ ∃ n, s.nodes[h]? = some n ∧ s.Targets h n x
  mem_flipped : ∀ h, h ∈ flipped ↔
    ∃ n, s.nodes[h]? = some n ∧ s.Targets h n x ∧ n.enabled ≠ x.flag
  flipped_order : flipped.Pairwise fun h j ↦ (s.targets x).idxOf h < (s.targets x).idxOf j
  getElem?_nodes : ∀ h : Nat, (s.edit x).nodes[h]? = s.nodes[h]?.map fun n ↦
    if s.Targets h n x then { n with enabled := x.flag } else n
  log_eq : (s.edit x).log.events = s.log.events ++
    if flipped = [] then [] else [.enabledChanged (flipped.filterMap s.idOf?) x.flag]
  rest_eq : s.edit x = { s with nodes := (s.edit x).nodes, log := (s.edit x).log }
  again : (s.edit x).edit x = s.edit x
  mem_left : ∀ h, h ∈ left ↔ ∃ n, s.nodes[h]? = some n ∧
    if s.Targets h n x then x.flag = false else n.enabled = false
  left_order : left.Pairwise (· < ·)
  text_eq : (s.edit x).disabledText = String.join ((left.filterMap s.idOf?).map (· ++ ","))

open scoped Classical in
/-- What is reported is what is changed, however often and by whatever ids nodes are asked for. -/
theorem enabling_switches {metrics : NodeMetrics α} (hs : s.Reachable metrics) {x : SceneEdit α}
    (hx : x.isEnabling = true) : ∃ flipped left, s.Switches x flipped left := by
  have hedit := edit_enabling s hx
  have hbare : (s.edit x).bare = s.bare := hedit ▸ bare_setEnabledHandles s (s.targets x) x.flag
  have hmem {h : Nat} {n : Node α} (hn : s.nodes[h]? = some n) :
      h ∈ s.targets x ↔ s.Targets h n x := hs.sound.mem_targets_iff x hn
  have hnodes (h : Nat) : (s.edit x).nodes[h]? = s.nodes[h]?.map fun n ↦
      if s.Targets h n x then { n with enabled := x.flag } else n := by
    rw [hedit, nodes_setEnabledHandles, getElem?_foldl_setEnabledAt]
    refine Option.map_congr fun n hn ↦ ?_
    simp only [hmem hn]
  refine ⟨s.flips x.flag (s.targets x), places (s.edit x).nodes (!·.enabled), ?_⟩
  constructor
  case mem_targets =>
    intro h
    constructor
    · intro hh
      have hn := Array.getElem?_eq_getElem (hs.sound.targets_lt x hh)
      exact ⟨_, hn, (hmem hn).mp hh⟩
    · rintro ⟨n, hn, hh⟩
      exact (hmem hn).mpr hh
  case mem_flipped =>
    intro h
    rw [mem_flips]
    constructor
    · rintro ⟨hh, n, hn, hne⟩
      exact ⟨n, hn, (hmem hn).mp hh, hne⟩
    · rintro ⟨n, hn, hh, hne⟩
      exact ⟨(hmem hn).mpr hh, n, hn, hne⟩
  case flipped_order => exact pairwise_idxOf _ _
  case getElem?_nodes => exact hnodes
  case log_eq =>
    have hids : (s.flips x.flag (s.targets x)).filterMap s.idOf? = [] ↔
        s.flips x.flag (s.targets x) = [] := by
      rw [List.filterMap_eq_nil_iff, List.eq_nil_iff_forall_not_mem]
      refine forall_congr' fun h ↦ imp_congr_right fun hh ↦ iff_of_false ?_ id
      obtain ⟨-, n, hn, -⟩ := mem_flips.mp hh
      simp [idOf?, hn]
    rw [hedit, events_setEnabledHandles, snd_foldl_setEnabledAt, List.nil_append]
    simp only [hids]
  case rest_eq =>
    rw [hedit]
    exact setEnabledHandles_rest s _ _
  case again =>
    rw [edit_enabling _ hx, targets_edit s hx]
    refine setEnabledHandles_of_set fun h hh n' hn' ↦ ?_
    rw [hnodes, Option.map_eq_some_iff] at hn'
    obtain ⟨n, hn, rfl⟩ := hn'
    rw [if_pos ((hmem hn).mp hh)]
  case mem_left =>
    intro h
    rw [mem_places, hnodes]
    cases s.nodes[h]? with
    | none => simp
    | some n => by_cases hh : s.Targets h n x <;> simp [hh]
  case left_order => exact pairwise_places _ _
  case text_eq => rw [disabledText_eq, funext (idOf?_of_shape (shape_of_bare hbare))]

theorem enabling_switches_repeated : ∃ flipped left,
    Switches ((run .standard plain).edit (.setEnabled ["a"] false))
      (.setEnabled ["b", "c", "a", "b"] false) flipped left ∧ 1 ∈ flipped ∧ 0 ∉ flipped := by
  have hs : (run .standard plain).Reachable .standard := ⟨plain, 0, rfl⟩
  have hx : (SceneEdit.setEnabled ["b", "c", "a", "b"] false : SceneEdit Float).isEnabling = true :=
    rfl
  obtain ⟨flipped, left, h⟩ := enabling_switches (hs.edit (.setEnabled ["a"] false)) hx
  refine ⟨flipped, left, h, ?_, ?_⟩
  · simp [h.mem_flipped, edit_setEnabled, hs.sound.indexed.nodes_setEnabled, nodes_plain, Targets,
      Node.create, SceneEdit.flag]
  · simp [h.mem_flipped, edit_setEnabled, hs.sound.indexed.nodes_setEnabled, nodes_plain, Targets,
      Node.create, SceneEdit.flag]

end Scene

end Diagram
