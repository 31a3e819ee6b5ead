import Diagram.Proofs.Scene.Flagging
import Diagram.Proofs.Scene.Numbering
import Diagram.Scene.Text
import Mathlib.Data.Set.Operations

namespace Diagram

variable {α : Type}

def SceneEdit.isEnabling : SceneEdit α → Bool
  | .setEnabled _ _ | .setSelectionEnabled _ | .enableAll | .disableAncestors => true
  | _ => false

def pieces (id : String) : List (List Char) := id.toList.splitOn ','

/-- Cut at its commas, the text falls into the pieces of the ids, and nothing after the last comma. -/
theorem splitOn_join (ids : List String) :
    (String.join (ids.map (· ++ ","))).toList.splitOn ',' = ids.flatMap pieces ++ [[]] := by
  induction ids with
  | nil => rfl
  | cons id ids ih =>
    have hcons : (String.join ((id :: ids).map (· ++ ","))).toList =
        id.toList ++ ',' :: (String.join (ids.map (· ++ ","))).toList := by
      simp [String.toList_append]
    rw [hcons, List.splitOn_append_cons_self, ih, List.flatMap_cons, List.append_assoc, pieces]

theorem join_eq_iff (ids ids' : List String) :
    String.join (ids.map (· ++ ",")) = String.join (ids'.map (· ++ ",")) ↔
      ids.flatMap pieces = ids'.flatMap pieces := by
  have hinj {cs cs' : List Char} (h : cs.splitOn ',' = cs'.splitOn ',') : cs = cs' := by
    have hcs : [','].intercalate (cs.splitOn ',') = cs := List.intercalate_splitOn ','
    rw [← hcs, h, List.intercalate_splitOn]
  constructor
  · intro h
    have hsplit := congrArg (fun t : String ↦ t.toList.splitOn ',') h
    simp only [splitOn_join] at hsplit
    exact List.append_cancel_right hsplit
  · intro h
    refine String.toList_inj.mp (hinj ?_)
    rw [splitOn_join, splitOn_join, h]

theorem flatMap_pieces {ids : List String} (h : ∀ id ∈ ids, ',' ∉ id.toList) :
    ids.flatMap pieces = ids.map String.toList := by
  induction ids with
  | nil => rfl
  | cons id ids ih =>
    obtain ⟨hid, h⟩ := List.forall_mem_cons.mp h
    rw [List.flatMap_cons, ih h, pieces, List.splitOn_eq_singleton hid, List.map_cons,
      List.singleton_append]

namespace Scene

def disabled (s : Scene α) : Set Nat := {h | ∃ n, s.nodes[h]? = some n ∧ n.enabled = false}

variable {s s' : Scene α}

theorem mem_disabledIds {id : String} :
    id ∈ s.disabledIds ↔ ∃ h ∈ s.disabled, s.idOf? h = some id := by
  simp only [disabledIds, List.mem_map, List.mem_filter, Bool.not_eq_true', Array.mem_toList_iff,
    disabled, Set.mem_ofPred_eq]
  constructor
  · rintro ⟨n, ⟨hn, hoff⟩, rfl⟩
    obtain ⟨h, hh⟩ := Array.mem_iff_getElem?.mp hn
    exact ⟨h, ⟨n, hh, hoff⟩, congrArg _ hh⟩
  · rintro ⟨h, ⟨n, hn, hoff⟩, hid⟩
    rw [idOf?, hn, Option.map_some, Option.some.injEq] at hid
    exact ⟨n, ⟨Array.mem_of_getElem? hn, hoff⟩, hid⟩

theorem Indexed.mem_disabled (hs : s.Indexed) {h : Nat} :
    h ∈ s.disabled ↔ ∃ id ∈ s.disabledIds, s.idOf? h = some id := by
  constructor
  · rintro ⟨n, hn, hoff⟩
    have hid : s.idOf? h = some n.id := congrArg _ hn
    exact ⟨n.id, mem_disabledIds.mpr ⟨h, ⟨n, hn, hoff⟩, hid⟩, hid⟩
  · rintro ⟨id, hmem, hid⟩
    obtain ⟨j, hj, hjd⟩ := mem_disabledIds.mp hmem
    have hjh := ((hs id j).mpr hjd).symm.trans ((hs id h).mpr hid)
    exact Option.some.inj hjh ▸ hj

theorem Indexed.disabled_congr (hs : s.Indexed) (hs' : s'.Indexed)
    (hid : ∀ h, s'.idOf? h = s.idOf? h) (h : s.disabledIds = s'.disabledIds) :
    s.disabled = s'.disabled := by
  ext j
  rw [hs.mem_disabled, hs'.mem_disabled, h, hid]

theorem id_of_bare (h : s'.bare = s.bare) {n : Node α} (hn : n ∈ s'.nodes) :
    ∃ m ∈ s.nodes, m.id = n.id := by
  obtain ⟨j, hj⟩ := Array.mem_iff_getElem?.mp hn
  have hid : s.idOf? j = some n.id :=
    (idOf?_of_shape (shape_of_bare h) j).symm.trans (congrArg _ hj)
  obtain ⟨m, hm, hmn⟩ := Option.map_eq_some_iff.mp hid
  exact ⟨m, Array.mem_of_getElem? hm, hmn⟩

theorem flatMap_pieces_disabledIds (h : s'.bare = s.bare)
    (hs : ∀ n ∈ s.nodes, ',' ∉ n.id.toList) :
    s'.disabledIds.flatMap pieces = s'.disabledIds.map String.toList := by
  refine flatMap_pieces fun id hid ↦ ?_
  obtain ⟨n, hn, rfl⟩ := List.mem_map.mp hid
  obtain ⟨m, hm, hmn⟩ := id_of_bare h (Array.mem_toList_iff.mp (List.mem_of_mem_filter hn))
  exact hmn ▸ hs m hm

variable [Arith α]

theorem edit_setEnabled (s : Scene α) (ids : List String) (enabled : Bool) :
    s.edit (.setEnabled ids enabled) = s.setEnabled ids enabled := rfl

theorem bare_foldl_enabling {xs : List (SceneEdit α)} (hx : ∀ x ∈ xs, x.isEnabling = true)
    (s : Scene α) : (xs.foldl edit s).bare = s.bare := by
  refine List.foldlRecOn (motive := fun t ↦ t.bare = s.bare) xs edit rfl fun t ht x hmem ↦ ?_
  have hx := hx x hmem
  cases x with
  | setEnabled ids enabled => exact (bare_setEnabledHandles t _ enabled).trans ht
  | setSelectionEnabled enabled => exact (bare_setEnabledHandles t _ enabled).trans ht
  | enableAll => exact (bare_setEnabledHandles t _ true).trans ht
  | disableAncestors => exact (bare_setEnabledHandles t _ false).trans ht
  | _ => cases hx

/-- Two ways to enable and disable the nodes of a scene lead to one text exactly when the ids of the
nodes that are disabled in the end fall into the same pieces at their commas. Where the ids have no
commas, the text tells which nodes these are. -/
theorem disabledText_eq_iff {metrics : NodeMetrics α} (hs : s.Reachable metrics)
    {xs ys : List (SceneEdit α)} (hx : ∀ x ∈ xs, x.isEnabling = true)
    (hy : ∀ y ∈ ys, y.isEnabling = true) :
    ((xs.foldl edit s).disabledText = (ys.foldl edit s).disabledText ↔
      (xs.foldl edit s).disabledIds.flatMap pieces =
        (ys.foldl edit s).disabledIds.flatMap pieces) ∧
    ((∀ n ∈ s.nodes, ',' ∉ n.id.toList) →
      (xs.foldl edit s).disabled ≠ (ys.foldl edit s).disabled →
        (xs.foldl edit s).disabledText ≠ (ys.foldl edit s).disabledText) := by
  -- Neither way changes the ids, so one numbering serves both ends.
  have hbx := bare_foldl_enabling hx s
  have hby := bare_foldl_enabling hy s
  refine ⟨join_eq_iff _ _, fun hcomma hne htext ↦ hne ?_⟩
  have hids : (xs.foldl edit s).disabledIds = (ys.foldl edit s).disabledIds := by
    have hpieces := (join_eq_iff _ _).mp htext
    rw [flatMap_pieces_disabledIds hbx hcomma, flatMap_pieces_disabledIds hby hcomma] at hpieces
    exact List.map_injective_iff.mpr (fun _ _ ↦ String.toList_inj.mp) hpieces
  have hix := hs.sound.indexed.of_shape (shape_of_bare hbx)
  have hiy := hs.sound.indexed.of_shape (shape_of_bare hby)
  exact hix.disabled_congr hiy (idOf?_of_shape (shape_of_bare (hby.trans hbx.symm))) hids

def plain : List (SceneEdit Float) := [
  .addNode "a" "A" ⟨0.0, 0.0⟩ "ready", .addNode "b" "B" ⟨0.0, 0.0⟩ "ready"]

theorem nodes_plain : (run .standard plain).nodes =
    #[.create .standard "a" "A" ⟨0.0, 0.0⟩ "ready", .create .standard "b" "B" ⟨0.0, 0.0⟩ "ready"] := by
  simp [run, plain, edit, perform, addNode, record, empty, bind, Except.bind, pure, Except.pure]

theorem disabledText_eq_iff_plain :
    ((run .standard plain).edit (.setEnabled ["a"] false)).disabledText ≠
      ((run .standard plain).edit (.setEnabled ["b"] false)).disabledText := by
  have hs : (run .standard plain).Indexed := (sound_run .standard plain).indexed
  have ha : ∀ x ∈ [(.setEnabled ["a"] false : SceneEdit Float)], x.isEnabling = true := by
    simp [SceneEdit.isEnabling]
  have hb : ∀ x ∈ [(.setEnabled ["b"] false : SceneEdit Float)], x.isEnabling = true := by
    simp [SceneEdit.isEnabling]
  refine (disabledText_eq_iff (s := run .standard plain) ⟨plain, 0, rfl⟩ ha hb).2 ?_ fun h ↦ ?_
  · simp [nodes_plain, Node.create]
  · have h0 : 0 ∈ ((run .standard plain).edit (.setEnabled ["a"] false)).disabled := by
      simp [disabled, edit_setEnabled, hs.nodes_setEnabled, nodes_plain, Node.create]
    rw [List.foldl_cons, List.foldl_nil, List.foldl_cons, List.foldl_nil] at h
    rw [h] at h0
    simp [disabled, edit_setEnabled, hs.nodes_setEnabled, nodes_plain, Node.create] at h0

/-- One id is those of the two other nodes with a comma between them. -/
def commaNamed : List (SceneEdit Float) := plain ++ [.addNode "a,b" "C" ⟨0.0, 0.0⟩ "ready"]

theorem nodes_commaNamed : (run .standard commaNamed).nodes =
    (run .standard plain).nodes.push (.create .standard "a,b" "C" ⟨0.0, 0.0⟩ "ready") := by
  simp [run, plain, commaNamed, edit, perform, addNode, record, empty, bind, Except.bind, pure,
    Except.pure]

theorem disabledText_commaNamed :
    ((run .standard commaNamed).edit (.setEnabled ["a", "b"] false)).disabled ≠
        ((run .standard commaNamed).edit (.setEnabled ["a,b"] false)).disabled ∧
      ((run .standard commaNamed).edit (.setEnabled ["a", "b"] false)).disabledText =
        ((run .standard commaNamed).edit (.setEnabled ["a,b"] false)).disabledText := by
  have hs : (run .standard commaNamed).Indexed := (sound_run .standard commaNamed).indexed
  refine ⟨fun h ↦ ?_, ?_⟩
  · have h2 : 2 ∈ ((run .standard commaNamed).edit (.setEnabled ["a,b"] false)).disabled := by
      simp [disabled, edit_setEnabled, hs.nodes_setEnabled, nodes_commaNamed, nodes_plain,
        Node.create]
    rw [← h] at h2
    simp [disabled, edit_setEnabled, hs.nodes_setEnabled, nodes_commaNamed, nodes_plain,
      Node.create] at h2
  · simp [disabledText, disabledIds, edit_setEnabled, hs.nodes_setEnabled, nodes_commaNamed,
      nodes_plain, Node.create]

end Scene

end Diagram
