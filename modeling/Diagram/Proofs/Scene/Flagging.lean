import Diagram.Proofs.Scene.Selecting

namespace Diagram

variable {α : Type}

namespace Scene

variable {s : Scene α}

theorem fst_setEnabledAt (enabled : Bool) (state : Scene α × List String) (h : Nat) :
    (setEnabledAt enabled state h).1 = state.1.modifyNode h fun n ↦ { n with enabled } := by
  have hsame (hn : state.1.nodes[h]?.map (fun n ↦ { n with enabled }) = state.1.nodes[h]?) :
      state.1 = state.1.modifyNode h fun n ↦ { n with enabled } := by
    have hnodes : state.1.nodes.modify h (fun n ↦ { n with enabled }) = state.1.nodes := by
      apply Array.ext_getElem?
      intro j
      rw [Array.getElem?_modify]
      split
      · next hj => exact hj ▸ hn
      · rfl
    rw [modifyNode, hnodes]
  unfold setEnabledAt
  split
  · next n hn =>
    split
    · next hflag =>
      refine hsame ?_
      rw [hn, Option.map_some, ← eq_of_beq hflag]
    · rfl
  · next hn => exact hsame (by rw [hn, Option.map_none])

theorem getElem?_foldl_setEnabledAt (enabled : Bool) (handles : List Nat)
    (state : Scene α × List String) (j : Nat) :
    (handles.foldl (setEnabledAt enabled) state).1.nodes[j]? =
      state.1.nodes[j]?.map fun n ↦ if j ∈ handles then { n with enabled } else n := by
  have hfold : (handles.foldl (setEnabledAt enabled) state).1 =
      handles.foldl (fun s h ↦ s.modifyNode h fun n ↦ { n with enabled }) state.1 := by
    induction handles generalizing state with
    | nil => rfl
    | cons h handles ih => rw [List.foldl_cons, ih, fst_setEnabledAt, List.foldl_cons]
  rw [hfold, nodes_foldl_modifyNode,
    getElem?_foldl_modify (fun n : Node α ↦ { n with enabled }) fun _ ↦ rfl]
  split
  · rfl
  · rw [Option.map_id']

def differs (s : Scene α) (enabled : Bool) (h : Nat) : Bool := s.nodes[h]?.any (·.enabled != enabled)

theorem differs_eq_true {enabled : Bool} {h : Nat} :
    s.differs enabled h = true ↔ ∃ n, s.nodes[h]? = some n ∧ n.enabled ≠ enabled := by
  simp only [differs, Option.any_eq_true, bne_iff_ne]

/-- Those of some nodes whose flag is to change, each once and in the order in which they come first. -/
def flips (s : Scene α) (enabled : Bool) (handles : List Nat) : List Nat :=
  (handles.filter (s.differs enabled)).eraseDups

theorem mem_flips {enabled : Bool} {handles : List Nat} {h : Nat} : h ∈ s.flips enabled handles ↔
    h ∈ handles ∧ ∃ n, s.nodes[h]? = some n ∧ n.enabled ≠ enabled := by
  rw [flips, List.mem_eraseDups, List.mem_filter, differs_eq_true]

theorem differs_modifyNode (s : Scene α) (enabled : Bool) (h : Nat) :
    (s.modifyNode h fun n ↦ { n with enabled }).differs enabled =
      fun j ↦ !j == h && s.differs enabled j := by
  funext j
  simp only [differs, modifyNode, Array.getElem?_modify]
  by_cases hj : h = j
  · subst hj
    cases s.nodes[h]? <;> simp
  · simp [hj, Ne.symm hj]

theorem setEnabledAt_eq_self {enabled : Bool} {h : Nat} (hflag : s.differs enabled h = false)
    (ids : List String) : setEnabledAt enabled (s, ids) h = (s, ids) := by
  unfold setEnabledAt
  split
  · next n hn =>
    rw [differs, hn, Option.any_some, bne_eq_false_iff_eq] at hflag
    rw [hflag, BEq.rfl, if_pos rfl]
  · rfl

/-- What is noted while flags are set is what was about to change before. -/
theorem snd_foldl_setEnabledAt (enabled : Bool) (handles : List Nat) (ids : List String) :
    (handles.foldl (setEnabledAt enabled) (s, ids)).2 =
      ids ++ (s.flips enabled handles).filterMap s.idOf? := by
  induction handles generalizing s ids with
  | nil => simp [flips]
  | cons h handles ih =>
    rw [List.foldl_cons]
    cases hflag : s.differs enabled h with
    | false =>
      rw [setEnabledAt_eq_self hflag, ih, flips, flips, List.filter_cons_of_neg (by simp [hflag])]
    | true =>
      obtain ⟨n, hn, hne⟩ := differs_eq_true.mp hflag
      have hstep : setEnabledAt enabled (s, ids) h =
          (s.modifyNode h fun n ↦ { n with enabled }, ids ++ [n.id]) := by
        simp [setEnabledAt, hn, hne]
      have hshape := shape_of_bare (bare_modifyNode s h (fun n ↦ { n with enabled }) fun _ ↦ rfl)
      have hid : s.idOf? h = some n.id := congrArg _ hn
      have hflips : s.flips enabled (h :: handles) =
          h :: (s.modifyNode h fun n ↦ { n with enabled }).flips enabled handles := by
        simp only [flips, List.filter_cons_of_pos hflag, List.eraseDups_cons, List.filter_filter,
          differs_modifyNode]
      rw [hstep, ih, hflips, List.filterMap_cons_some hid, funext (idOf?_of_shape hshape),
        List.append_assoc, List.singleton_append]

theorem flips_eq_self {enabled : Bool} {handles : List Nat} (hnodup : handles.Nodup)
    (hflag : ∀ h ∈ handles, ∃ n, s.nodes[h]? = some n ∧ n.enabled ≠ enabled) :
    s.flips enabled handles = handles := by
  have hall : handles.filter (s.differs enabled) = handles :=
    List.filter_eq_self.mpr fun h hh ↦ differs_eq_true.mpr (hflag h hh)
  rw [flips, hall]
  clear hflag hall
  induction handles with
  | nil => rfl
  | cons h handles ih =>
    obtain ⟨hnew, hnodup⟩ := List.nodup_cons.mp hnodup
    have hrest : handles.filter (fun j ↦ !j == h) = handles := by
      refine List.filter_eq_self.mpr fun j hj ↦ ?_
      have hne : j ≠ h := fun hjh ↦ hnew (hjh ▸ hj)
      simpa using hne
    rw [List.eraseDups_cons, hrest, ih hnodup]

theorem log_setEnabledHandles (s : Scene α) (handles : List Nat) (enabled : Bool) :
    (s.setEnabledHandles handles enabled).log =
      if (handles.foldl (setEnabledAt enabled) (s, [])).2 = [] then s.log
      else s.log.push (.enabledChanged (handles.foldl (setEnabledAt enabled) (s, [])).2 enabled) := by
  have hlog := view_foldl_setEnabledAt log enabled (fun _ _ ↦ rfl) handles (s, [])
  simp only [setEnabledHandles, List.isEmpty_iff]
  split
  · exact hlog
  · rw [record, hlog]

theorem events_setEnabledHandles (s : Scene α) (handles : List Nat) (enabled : Bool) :
    (s.setEnabledHandles handles enabled).log.events = s.log.events ++
      if (handles.foldl (setEnabledAt enabled) (s, [])).2 = [] then []
      else [.enabledChanged (handles.foldl (setEnabledAt enabled) (s, [])).2 enabled] := by
  rw [log_setEnabledHandles]
  split
  · rw [List.append_nil]
  · rw [Log.events_push]

theorem nodes_setEnabledHandles (s : Scene α) (handles : List Nat) (enabled : Bool) :
    (s.setEnabledHandles handles enabled).nodes =
      (handles.foldl (setEnabledAt enabled) (s, [])).1.nodes := by
  simp only [setEnabledHandles]
  split <;> rfl

theorem Indexed.mem_handles (hs : s.Indexed) {j : Nat} {n : Node α} (hn : s.nodes[j]? = some n)
    (ids : List String) : j ∈ ids.filterMap s.handle? ↔ n.id ∈ ids := by
  have hid : s.idOf? j = some n.id := congrArg _ hn
  rw [List.mem_filterMap]
  constructor
  · rintro ⟨id, hmem, hh⟩
    obtain rfl : id = n.id := Option.some.inj (((hs id j).mp hh).symm.trans hid)
    exact hmem
  · intro hmem
    exact ⟨n.id, hmem, (hs _ j).mpr hid⟩

theorem Indexed.nodes_setEnabled (hs : s.Indexed) (ids : List String) (enabled : Bool) :
    (s.setEnabled ids enabled).nodes =
      s.nodes.map fun n ↦ if n.id ∈ ids then { n with enabled } else n := by
  refine Array.ext_getElem? fun j ↦ ?_
  rw [setEnabled, nodes_setEnabledHandles, getElem?_foldl_setEnabledAt, Array.getElem?_map]
  refine Option.map_congr fun n hn ↦ ?_
  simp only [hs.mem_handles hn]

end Scene

end Diagram
