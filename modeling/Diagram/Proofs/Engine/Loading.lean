import Diagram.Engine.Display
import Diagram.Proofs.Scene.Laying

namespace Diagram

variable {α β γ ε : Type}

theorem foldlM_error {f : γ → β → Except ε γ} {pre post : List β} {x : β} {s m : γ} {err : ε}
    (hpre : pre.foldlM f s = .ok m) (hx : f m x = .error err) :
    (pre ++ x :: post).foldlM f s = .error err := by
  rw [List.foldlM_append, hpre]
  change (x :: post).foldlM f m = .error err
  rw [List.foldlM_cons, hx]
  rfl

theorem exists_first_repeat (f : β → String) {xs : List β} (h : ¬ (xs.map f).Nodup) :
    ∃ pre x post, xs = pre ++ x :: post ∧ (pre.map f).Nodup ∧ f x ∈ pre.map f := by
  induction xs using List.reverseRecOn with
  | nil => exact absurd List.nodup_nil h
  | append_singleton xs x ih =>
    by_cases hxs : (xs.map f).Nodup
    · refine ⟨xs, x, [], rfl, hxs, ?_⟩
      by_contra hx
      refine h ?_
      rw [List.map_append, List.map_singleton]
      exact hxs.append (List.nodup_singleton _) (List.disjoint_singleton.mpr hx)
    · obtain ⟨pre, y, post, rfl, hpre, hy⟩ := ih hxs
      exact ⟨pre, y, post ++ [x], by simp, hpre, hy⟩

theorem exists_first_not {p : β → Prop} [DecidablePred p] {xs : List β} (h : ¬ ∀ x ∈ xs, p x) :
    ∃ pre x post, xs = pre ++ x :: post ∧ (∀ y ∈ pre, p y) ∧ ¬ p x := by
  cases hx : xs.find? fun x ↦ !decide (p x) with
  | none => exact absurd (by simpa using hx) h
  | some x =>
    obtain ⟨hp, pre, post, hxs, hpre⟩ := List.find?_eq_some_iff_append.mp hx
    exact ⟨pre, x, post, hxs, fun y hy ↦ by simpa using hpre y hy, by simpa using hp⟩

namespace Payload

def ids (g : Payload α) : List String := g.nodes.map NodeEntry.id

def Joins (g : Payload α) (x : EdgeEntry) : Prop := x.source ∈ g.ids ∧ x.target ∈ g.ids

instance (g : Payload α) : DecidablePred g.Joins := fun _ ↦ inferInstanceAs (Decidable (_ ∧ _))

/-- No id is given twice, and all edges join nodes. -/
structure Loadable (g : Payload α) : Prop where
  nodup : g.ids.Nodup
  joins : ∀ x ∈ g.edges, g.Joins x

instance (g : Payload α) : Decidable g.Loadable :=
  decidable_of_iff (g.ids.Nodup ∧ ∀ x ∈ g.edges, g.Joins x)
    ⟨fun h ↦ ⟨h.1, h.2⟩, fun h ↦ ⟨h.nodup, h.joins⟩⟩

/-- The first that is wrong with a graph. All nodes are read before the edges, and the source of an edge
before its target. -/
inductive Fault (g : Payload α) : SceneError → Prop
  | duplicate {pre post : List (NodeEntry α)} {n : NodeEntry α} (hg : g.nodes = pre ++ n :: post)
      (hpre : (pre.map NodeEntry.id).Nodup) (hn : n.id ∈ pre.map NodeEntry.id) :
      Fault g (.duplicateId n.id)
  | source {pre post : List EdgeEntry} {x : EdgeEntry} (hids : g.ids.Nodup)
      (hg : g.edges = pre ++ x :: post) (hpre : ∀ y ∈ pre, g.Joins y) (hs : x.source ∉ g.ids) :
      Fault g (.unknownNode x.source x.target x.source)
  | target {pre post : List EdgeEntry} {x : EdgeEntry} (hids : g.ids.Nodup)
      (hg : g.edges = pre ++ x :: post) (hpre : ∀ y ∈ pre, g.Joins y) (hs : x.source ∈ g.ids)
      (ht : x.target ∉ g.ids) : Fault g (.unknownNode x.source x.target x.target)

theorem exists_fault {g : Payload α} (h : ¬ g.Loadable) : ∃ err, g.Fault err := by
  by_cases hids : g.ids.Nodup
  · have hj : ¬ ∀ x ∈ g.edges, g.Joins x := fun hj ↦ h ⟨hids, hj⟩
    obtain ⟨pre, x, post, hg, hpre, hx⟩ := exists_first_not hj
    by_cases hs : x.source ∈ g.ids
    · exact ⟨_, .target hids hg hpre hs fun ht ↦ hx ⟨hs, ht⟩⟩
    · exact ⟨_, .source hids hg hpre hs⟩
  · obtain ⟨pre, n, post, hg, hpre, hn⟩ := exists_first_repeat NodeEntry.id hids
    exact ⟨_, .duplicate hg hpre hn⟩

theorem Fault.not_loadable {g : Payload α} {err : SceneError} (h : g.Fault err) : ¬ g.Loadable := by
  rintro ⟨hids, hj⟩
  cases h with
  | duplicate hg _ hn =>
    rw [ids, hg, List.map_append, List.map_cons] at hids
    exact (List.nodup_append.mp hids).2.2 _ hn _ List.mem_cons_self rfl
  | source _ hg _ hs => exact hs (hj _ (hg ▸ by simp)).1
  | target _ hg _ _ ht => exact ht (hj _ (hg ▸ by simp)).2

end Payload

theorem Scene.Shows.ids_eq [Arith α] {s : Scene α} {c : Config α} {g : Payload α}
    (hs : s.Shows c g) : s.nodes.toList.map Node.id = g.ids := by
  have h := congrArg (List.map Node.id) hs.nodes_eq
  rw [List.map_map, List.map_map] at h
  exact h

def EngineInput.Loads : EngineInput α → Prop
  | .load graph => graph.Loadable
  | _ => False

namespace Engine

open Scene

variable [Arith α] {e : Engine α} {g : Payload α}

theorem sceneOf_eq (e : Engine α) (g : Payload α) : e.sceneOf g =
    g.nodes.foldlM layNode (.empty e.config.metrics e.scene.log.readings) >>= fun s ↦
      g.edges.foldlM layEdge s >>= fun s ↦ .ok (s.setEnabled (s.finished e.config) false) := rfl

/-- What the empty scene has and neither a node nor an edge nor disabling nodes takes away, a scene
that was just loaded has. -/
theorem sceneOf_induct {P : Scene α → Prop} {s : Scene α} (h : e.sceneOf g = .ok s)
    (start : P (.empty e.config.metrics e.scene.log.readings))
    (node : ∀ {s s' : Scene α} {h : Nat} {id label : String} {p : Point α} {status : String},
      s.addNode id label p status = .ok (h, s') → P s → P s')
    (edge : ∀ {s s' : Scene α} {k : Nat} {source target status : String},
      s.addEdge source target status = .ok (k, s') → P s → P s')
    (disabled : ∀ (s : Scene α) (ids : List String), P s → P (s.setEnabled ids false)) : P s := by
  rw [sceneOf_eq] at h
  obtain ⟨s₁, hn, h⟩ := bind_ok h
  obtain ⟨s₂, he, h⟩ := bind_ok h
  cases h
  exact disabled s₂ _ (layEdges_induct he (layNodes_induct hn start node) edge)

theorem sceneOf_reachable {s : Scene α} (h : e.sceneOf g = .ok s) :
    s.Reachable e.config.metrics :=
  sceneOf_induct h (reachable_empty _ _) .addNode .addEdge fun _ ids hs ↦ hs.edit (.setEnabled ids false)

theorem sceneOf_loadable (e : Engine α) (h : g.Loadable) : ∃ s, e.sceneOf g = .ok s ∧ s.Shows e.config g := by
  obtain ⟨s, hs, hlays⟩ := layNodes e.config.metrics e.scene.log.readings h.nodup
  obtain ⟨s', hs', hlays'⟩ := hlays.layEdges h.joins
  refine ⟨_, ?_, hlays'.shows⟩
  rw [sceneOf_eq, hs]
  change g.edges.foldlM layEdge s >>= _ = _
  rw [hs']
  rfl

theorem sceneOf_nodes_error {err : SceneError}
    (h : g.nodes.foldlM layNode (.empty e.config.metrics e.scene.log.readings) = .error err) :
    e.sceneOf g = .error err := by
  rw [sceneOf_eq, h]
  rfl

theorem sceneOf_edges_error {s : Scene α} {err : SceneError}
    (hs : g.nodes.foldlM layNode (.empty e.config.metrics e.scene.log.readings) = .ok s)
    (h : g.edges.foldlM layEdge s = .error err) : e.sceneOf g = .error err := by
  rw [sceneOf_eq, hs]
  change g.edges.foldlM layEdge s >>= _ = _
  rw [h]
  rfl

theorem sceneOf_fault {err : SceneError} (h : g.Fault err) : e.sceneOf g = .error err := by
  cases h with
  | duplicate hg hpre hn =>
    obtain ⟨s, hs, hlays⟩ := layNodes e.config.metrics e.scene.log.readings hpre
    obtain ⟨h, hh⟩ := hlays.handle_of_mem hn
    refine sceneOf_nodes_error ?_
    rw [hg]
    refine foldlM_error hs ?_
    rw [layNode, addNode_known hh]
    rfl
  | source hids hg hpre hsource =>
    obtain ⟨s, hs, hlays⟩ := layNodes e.config.metrics e.scene.log.readings hids
    obtain ⟨s', hs', hlays'⟩ := hlays.layEdges hpre
    refine sceneOf_edges_error hs ?_
    rw [hg]
    refine foldlM_error hs' ?_
    rw [layEdge, addEdge, endpoint_unknown (hlays'.handle_of_not_mem hsource)]
    rfl
  | target hids hg hpre hsource htarget =>
    obtain ⟨s, hs, hlays⟩ := layNodes e.config.metrics e.scene.log.readings hids
    obtain ⟨s', hs', hlays'⟩ := hlays.layEdges hpre
    refine sceneOf_edges_error hs ?_
    rw [hg]
    refine foldlM_error hs' ?_
    obtain ⟨a, ha⟩ := hlays'.handle_of_mem hsource
    obtain ⟨n, hn⟩ := endpoint_known hlays'.indexed _ _ ha
    rw [layEdge, addEdge, hn]
    dsimp only [bind, Except.bind]
    rw [endpoint_unknown (hlays'.handle_of_not_mem htarget)]
    rfl

theorem loadable_of_sceneOf {s : Scene α} (h : e.sceneOf g = .ok s) : g.Loadable := by
  by_contra hg
  obtain ⟨err, hf⟩ := Payload.exists_fault hg
  cases h.symm.trans (sceneOf_fault hf)

/-- An engine that shows a graph anew, with everything but the scene and the pointer as it was. -/
structure Loaded (e : Engine α) (g : Payload α) (e' : Engine α) : Prop where
  shows : e'.scene.Shows e.config g
  gesture_eq : e'.pointer.gesture = .idle
  hovered_eq : e'.pointer.hovered = none
  editMode_eq : e'.pointer.editMode = e.pointer.editMode
  viewport_eq : e'.viewport = e.viewport
  slider_eq : e'.slider = e.slider
  area_eq : e'.area = e.area
  config_eq : e'.config = e.config

theorem load_loadable (e : Engine α) (h : g.Loadable) : ∃ e', e.load g = .ok e' ∧ e.Loaded g e' := by
  obtain ⟨s, hs, hshows⟩ := e.sceneOf_loadable h
  refine ⟨{ e with scene := s, pointer := .resting e.pointer.editMode }, ?_,
    hshows, rfl, rfl, rfl, rfl, rfl, rfl, rfl⟩
  rw [load, hs]
  rfl

theorem load_fault (e : Engine α) {err : SceneError} (h : g.Fault err) : e.load g = .error err := by
  rw [load, sceneOf_fault h]
  rfl

theorem next_load {e e' : Engine α} (h : e.load g = .ok e') : e.next? (.load g) = some e' := by
  rw [next?, step?, h]
  rfl

theorem next_refused (e : Engine α) (h : ¬ g.Loadable) : e.next? (.load g) = some e := by
  obtain ⟨err, hf⟩ := Payload.exists_fault h
  rw [next?, step?, e.load_fault hf]
  rfl

end Engine

/-- A graph is loaded if nothing is wrong with it. Otherwise the first that is wrong is told, and the
display stays as it was. -/
theorem Display.load_exact [Arith α] (d : Display α) (g : Payload α) :
    (g.Loadable → ∃ e, d.step? (.engine (.load g)) = some (.done, { d with engine := e }.present) ∧
      d.engine.Loaded g e) ∧
    (¬ g.Loadable ↔ ∃ err, g.Fault err) ∧
    ∀ err, g.Fault err → d.step? (.engine (.load g)) = some (.failed err, d) := by
  refine ⟨fun h ↦ ?_, ⟨Payload.exists_fault, fun ⟨_, h⟩ ↦ h.not_loadable⟩, fun err h ↦ ?_⟩
  · obtain ⟨e, he, hloaded⟩ := d.engine.load_loadable h
    refine ⟨e, ?_, hloaded⟩
    rw [step?, Engine.step?, he]
    rfl
  · rw [step?, Engine.step?, d.engine.load_fault h]
    rfl

theorem Display.load_exact_repeated : ∃ d e : Display Float,
    d.step? (.engine (.load ⟨[⟨"a", none, 0.0, 0.0, "ready"⟩, ⟨"a", none, 9.0, 0.0, "failed"⟩],
      [⟨"a", "b", "ready"⟩]⟩)) = some (.failed (.duplicateId "a"), d) ∧
    d.step? (.engine (.load ⟨[⟨"a", none, 0.0, 0.0, "ready"⟩], [⟨"a", "a", "ready"⟩]⟩)) =
      some (.done, e) := by
  obtain ⟨-, -, hfault⟩ := load_exact (unattached (.create .standard : Engine Float))
    ⟨[⟨"a", none, 0.0, 0.0, "ready"⟩, ⟨"a", none, 9.0, 0.0, "failed"⟩], [⟨"a", "b", "ready"⟩]⟩
  obtain ⟨hload, -, -⟩ := load_exact (unattached (.create .standard : Engine Float))
    ⟨[⟨"a", none, 0.0, 0.0, "ready"⟩], [⟨"a", "a", "ready"⟩]⟩
  obtain ⟨e, he, -⟩ := hload ⟨by decide, by decide⟩
  have htwice := hfault _ (@Payload.Fault.duplicate _ _ [⟨"a", none, 0.0, 0.0, "ready"⟩] []
    ⟨"a", none, 9.0, 0.0, "failed"⟩ rfl (by decide) (by decide))
  exact ⟨_, _, htwice, he⟩

end Diagram
