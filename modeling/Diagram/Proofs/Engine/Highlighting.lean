import Diagram.Proofs.Engine.Runs
import Diagram.Proofs.Scene.Numbering
import Mathlib.Data.List.Perm.Basic

namespace Diagram

variable {α : Type}

namespace Scene

variable {s s' : Scene α}

theorem Sound.selectedId?_eq_some_iff (hs : s.Sound) {id : String} :
    s.selectedId? = some id ↔ ∃ n ∈ s.nodes, n.selected = true ∧ n.id = id := by
  have hmem {n : Node α} (hn : n ∈ s.nodes) (hsel : n.selected = true) :
      ∃ j ∈ s.selection, s.nodes[j]? = some n := by
    obtain ⟨j, hj⟩ := Array.mem_iff_getElem?.mp hn
    exact ⟨j, (hs.marked.selected_iff hj).mp hsel, hj⟩
  obtain hnil | ⟨h, n, hsel, hn, hid⟩ := hs.marked.selection_cases
  · constructor
    · intro h
      rw [selectedId?, hnil] at h
      cases h
    · rintro ⟨n, hn, hflag, -⟩
      obtain ⟨j, hj, -⟩ := hmem hn hflag
      exact absurd (hnil ▸ hj) List.not_mem_nil
  · rw [hid, Option.some.injEq]
    constructor
    · rintro rfl
      exact ⟨n, Array.mem_of_getElem? hn,
        (hs.marked.selected_iff hn).mpr (hsel ▸ List.mem_singleton_self h), rfl⟩
    · rintro ⟨m, hm, hflag, rfl⟩
      obtain ⟨j, hj, hjm⟩ := hmem hm hflag
      obtain rfl : j = h := List.mem_singleton.mp (hsel ▸ hj)
      rw [Option.some.inj (hn.symm.trans hjm)]

theorem Sound.marked_ids (hs : s.Sound) :
    (s.nodes.toList.filter Node.selected).map Node.id = s.selectedId?.toList := by
  -- Both lists are free of duplicates, so they need only have the same members.
  have hperm : ((s.nodes.toList.filter Node.selected).map Node.id).Perm s.selectedId?.toList := by
    refine (List.perm_ext_iff_of_nodup ?_ ?_).mpr fun id ↦ ?_
    · exact hs.indexed.ids_nodup.sublist (List.filter_sublist.map Node.id)
    · cases s.selectedId? with
      | none => exact .nil
      | some id => exact List.nodup_singleton id
    · rw [Option.mem_toList, hs.selectedId?_eq_some_iff]
      simp only [List.mem_map, List.mem_filter, Array.mem_toList_iff, and_assoc]
  cases hsel : s.selectedId? with
  | none =>
    rw [hsel] at hperm
    exact List.perm_nil.mp hperm
  | some id =>
    rw [hsel] at hperm
    exact List.perm_singleton.mp hperm

variable [Arith α]

/-- At most one node is selected, and to select by an id selects the node with the id, whatever was
selected before, and no other. -/
structure Exclusive (s : Scene α) : Prop extends s.Marked where
  known : ∀ {h : Nat} {n : Node α}, s.nodes[h]? = some n →
    ∃ s', s.perform (.select n.id) = .ok (none, s') ∧ s'.selection = [h] ∧
      ∀ j : Nat, s'.nodes[j]? = s.nodes[j]?.map fun m ↦ { m with selected := decide (h = j) }
  unknown : ∀ {id : String}, (∀ n ∈ s.nodes, n.id ≠ id) →
    s.perform (.select id) = .error (.notFound id) ∧ s.edit (.select id) = s

theorem Sound.exclusive (hs : s.Sound) : s.Exclusive where
  toMarked := hs.marked
  known {h n} hn := by
    have hid : s.handle? n.id = some h := (hs.indexed n.id h).mpr (congrArg _ hn)
    obtain ⟨s', hr⟩ := hs.select_exists (Array.mem_of_getElem? hn)
    obtain ⟨h', hh', hsel, hnodes⟩ := getElem?_select hs.marked hr
    obtain rfl : h = h' := Option.some.inj (hid.symm.trans hh')
    refine ⟨s', ?_, hsel, hnodes⟩
    simp [perform, hr, bind, Except.bind, pure, Except.pure]
  unknown {id} hid := by
    have hnone : s.handle? id = none := by
      by_contra! hne
      obtain ⟨h, hh⟩ := Option.ne_none_iff_exists'.mp hne
      obtain ⟨n, hn, hnid⟩ := hs.indexed.node_of_handle hh
      exact hid n (Array.mem_of_getElem? hn) hnid
    have hr : s.perform (.select id) = .error (.notFound id) := by
      simp [perform, select, require, hnone, bind, Except.bind]
    refine ⟨hr, ?_⟩
    rw [Scene.edit, hr]

end Scene

/-- A node that is selected is the only one drawn as such. -/
structure Frame.Highlights (f : Frame α) (p : Palette) (selected : Option String) : Prop where
  ids_eq : (f.nodes.filter NodeShape.selected).map NodeShape.id = selected.toList
  stroke_eq : ∀ n ∈ f.nodes,
    n.stroke = if n.selected then p.selectedStroke else p.unselectedStroke

variable [Arith α]

namespace Engine

variable {e : Engine α}

theorem highlights_render (hs : e.scene.Sound) :
    e.render.Highlights e.config.palette e.selectedId? where
  ids_eq := by
    rw [selectedId?, ← hs.marked_ids, render, Frame.ofScene, List.filter_map, List.map_map]
    rfl
  stroke_eq n hn := by
    obtain ⟨m, -, rfl⟩ := List.mem_map.mp hn
    rfl

/-- The selection is single in every scene, and in every state of an engine it is what is seen. -/
theorem single_selection :
    (∀ (metrics : NodeMetrics α) (edits : List (SceneEdit α)),
      (Scene.run metrics edits).Exclusive) ∧
    ∀ {c : Config α} {inputs : List (EngineInput α)} {e : Engine α},
      (create c).run? inputs = some e →
        e.scene.Exclusive ∧ e.render.Highlights c.palette e.selectedId? := by
  refine ⟨fun metrics edits ↦ (Scene.sound_run metrics edits).exclusive, fun {c inputs e} h ↦ ?_⟩
  obtain ⟨rfl, hr⟩ := run_scene h
  exact ⟨hr.sound.exclusive, highlights_render hr.sound⟩

def selectedInTurn : List (EngineInput Float) := [
  .load ⟨[⟨"a", none, 0.0, 0.0, "ready"⟩, ⟨"b", none, 9.0, 0.0, "ready"⟩], []⟩, .select "a",
  .select "b"]

theorem single_selection_selectedInTurn : ∃ e : Engine Float,
    (create .standard).run? selectedInTurn = some e ∧ e.render.Highlights .standard (some "b") := by
  obtain ⟨e, h, hsel⟩ : ∃ e : Engine Float,
      (create .standard).run? selectedInTurn = some e ∧ e.selectedId? = some "b" := by
    simp [run?, selectedInTurn, next?, step?, load, create, sceneOf, Scene.addNode, Scene.empty,
      Scene.record, Scene.setEnabled, Scene.setEnabledHandles, Config.standard, Config.isTerminal,
      NodeEntry.shownLabel, Node.create, Functor.map, Except.map, bind, Except.bind, pure,
      Except.pure, selection, select, Scene.select, Scene.require, Scene.handle?, Scene.deselect,
      Scene.setFlag, Scene.modifyNode, selectedId?, Scene.selectedId?, Scene.idOf?, redrawn,
      Std.HashMap.getElem_insert]
  exact ⟨e, h, hsel ▸ (single_selection.2 h).2⟩

end Engine

end Diagram
