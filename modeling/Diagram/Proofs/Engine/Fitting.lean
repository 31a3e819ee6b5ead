import Diagram.Proofs.Bounding
import Diagram.Proofs.Engine.Mirroring
import Diagram.Proofs.Engine.Moving

namespace Diagram

variable {α : Type}

namespace Scene

variable {s s' : Scene α}

theorem bounds_of_bare (h : s'.bare = s.bare) : s'.bounds = s.bounds := by
  have hb := congrArg bounds h
  exact hb

theorem extents_of_bare (h : s'.bare = s.bare) :
    s'.nodes.toList.map Node.extent = s.nodes.toList.map Node.extent := by
  have hc (t : Scene α) : t.bare.nodes.toList.map Node.extent = t.nodes.toList.map Node.extent := by
    rw [bare, Array.toList_map, List.map_map]
    rfl
  rw [← hc s', h, hc s]

variable [Arith α]

theorem bounds_moveSelected (s : Scene α) (d : Offset α) : (s.moveSelected d).bounds = s.bounds :=
  view_foldl bounds (fun s h ↦ s.moveHandle h d) (fun _ _ ↦ rfl) s.selection s

/-- The box of a scene is that around its footprints, until they move. -/
def Boxed (s : Scene α) : Prop := s.bounds = .around (s.nodes.toList.map Node.extent)

theorem Boxed.of_bare (hs : s.Boxed) (h : s'.bare = s.bare) : s'.Boxed := by
  rw [Boxed, bounds_of_bare h, extents_of_bare h]
  exact hs

theorem Boxed.addNode (hs : s.Boxed) {h : Nat} {id label : String} {p : Point α} {status : String}
    (hr : s.addNode id label p status = .ok (h, s')) : s'.Boxed := by
  obtain ⟨-, -, rfl⟩ := addNode_ok hr
  rw [Boxed, Array.toList_push, List.map_append, List.map_singleton, BoundingBox.around_concat, ← hs]
  rfl

theorem Boxed.addEdge (hs : s.Boxed) {k : Nat} {source target status : String}
    (hr : s.addEdge source target status = .ok (k, s')) : s'.Boxed := by
  obtain ⟨a, b, n, m, -, -, -, rfl⟩ := addEdge_ok hr
  have hmap := map_joinedNodes Node.extent s.nodes a b s.edges.size (fun _ _ ↦ rfl) fun _ _ ↦ rfl
  rw [Boxed, ← Array.toList_map, hmap, Array.toList_map]
  exact hs

end Scene

section Payload

variable [Arith α]

def NodeEntry.size (n : NodeEntry α) (m : NodeMetrics α) : Size α :=
  (Node.create m n.id n.shownLabel ⟨n.x, n.y⟩ n.status).size

def Payload.extents (g : Payload α) (m : NodeMetrics α) : List (Point α × Size α) :=
  g.nodes.map fun n ↦ (⟨n.x, n.y⟩, n.size m)

theorem Scene.Shows.extents_eq {s : Scene α} {c : Config α} {g : Payload α} (hs : s.Shows c g) :
    s.nodes.toList.map Node.extent = g.extents c.metrics := by
  have h := congrArg (List.map Node.extent) hs.nodes_eq
  rw [List.map_map, List.map_map] at h
  exact h

theorem Scene.Shows.bounds_eq {s : Scene α} {c : Config α} {g : Payload α} (hs : s.Shows c g)
    (hb : s.Boxed) : s.bounds = .around (g.extents c.metrics) :=
  hs.extents_eq ▸ hb

end Payload

section Visible

variable [ExactArith α] {g : Payload α} {m : NodeMetrics α}

/-- A graph that can be loaded, with nodes that all have a height and no negative width. -/
structure Payload.Visible (g : Payload α) (m : NodeMetrics α) : Prop where
  loadable : g.Loadable
  nodes_ne : g.nodes ≠ []
  width_nonneg : ∀ n ∈ g.nodes, 0 ≤ (n.size m).width
  height_pos : ∀ n ∈ g.nodes, 0 < (n.size m).height

theorem Payload.visible_standard (hg : g.Loadable) (hne : g.nodes ≠ []) :
    g.Visible NodeMetrics.standard := by
  refine ⟨hg, hne, fun n _ ↦ ?_, fun n _ ↦ ?_⟩
  · simp only [NodeEntry.size, Node.create, NodeMetrics.standard, ExactArith.ofScientific_eq,
      ExactArith.ofNat_cast]
    positivity
  · simp only [NodeEntry.size, Node.create, NodeMetrics.standard, ExactArith.ofScientific_eq]
    norm_num

theorem Payload.Visible.extents_ne (hv : g.Visible m) : g.extents m ≠ [] := by
  simpa [extents] using hv.nodes_ne

theorem Payload.Visible.isEmpty_around (hv : g.Visible m) :
    (BoundingBox.around (g.extents m)).isEmpty = false := by
  refine BoundingBox.isEmpty_around hv.extents_ne fun x hx ↦ ?_
  obtain ⟨n, hn, rfl⟩ := List.mem_map.mp hx
  exact ⟨hv.width_nonneg n hn, (hv.height_pos n hn).le⟩

theorem Payload.Visible.height_around (hv : g.Visible m) :
    0 < (BoundingBox.around (g.extents m)).height := by
  have hspans := BoundingBox.spans_around hv.extents_ne
  obtain ⟨n, hn⟩ := List.exists_mem_of_ne_nil g.nodes hv.nodes_ne
  have hmem := List.mem_map_of_mem (f := fun n ↦ ((⟨n.x, n.y⟩ : Point α), n.size m)) hn
  exact (hv.height_pos n hn).trans_le
    (hspans.height_le (List.mem_map_of_mem (f := fun x ↦ Rect.centered x.1 x.2) hmem))

theorem Scene.Boxed.spans {s : Scene α} (hs : s.Boxed) (hne : s.nodes.toList.map Node.extent ≠ []) :
    Spans (s.nodes.toList.map Node.bounds) s.bounds.low s.bounds.high := by
  have h := BoundingBox.spans_around hne
  rw [List.map_map, ← hs] at h
  exact h

end Visible

namespace Engine

variable [Arith α] {c : Config α} {g : Payload α} {e e' : Engine α}

theorem sceneOf_boxed {s : Scene α} (h : e.sceneOf g = .ok s) : s.Boxed :=
  sceneOf_induct h rfl (fun hn hs ↦ hs.addNode hn) (fun he hs ↦ hs.addEdge he)
    fun s _ hs ↦ hs.of_bare (Scene.bare_setEnabledHandles s _ false)

theorem withGraph_loadable (hg : g.Loadable) : ∃ e, withGraph c g = .ok e ∧ e.Configured c ∧
    e.scene.Shows c g ∧ e.scene.Boxed := by
  obtain ⟨e, he, hloaded⟩ := (create c).load_loadable hg
  obtain ⟨s, hs, h⟩ := bind_ok he
  cases h
  exact ⟨_, he, ⟨rfl, rfl, rfl, sceneOf_reachable hs⟩, hloaded.shows, sceneOf_boxed hs⟩

def view (e : Engine α) : Viewport α × Slider α × Size α := (e.viewport, e.slider, e.area)

theorem fit?_eq (hb : e.scene.bounds.isEmpty = false) (width height : α) :
    e.fit? width height =
      (Viewport.fitScale? e.viewport.policy e.scene.bounds.height height).map fun scale ↦
        { e.resize width height with
          viewport := e.viewport.fitted e.scene.bounds width scale }.syncSlider := by
  simp only [fit?, Viewport.fit?, hb, Bool.false_eq_true, ↓reduceIte]
  cases Viewport.fitScale? e.viewport.policy e.scene.bounds.height height <;> rfl

theorem fit?_congr {m : Engine α} (hb : e.scene.bounds.isEmpty = false)
    (hbounds : m.scene.bounds = e.scene.bounds) (hpolicy : m.viewport.policy = e.viewport.policy)
    (htrack : m.slider.track = e.slider.track) (width height : α) :
    (m.fit? width height).map view = (e.fit? width height).map view := by
  have hfitted (scale : α) : m.viewport.fitted e.scene.bounds width scale =
      e.viewport.fitted e.scene.bounds width scale := by
    simp only [Viewport.fitted, hpolicy]
  have hsync (p : α) : (m.slider.sync p).release = (e.slider.sync p).release := by
    simp only [Slider.sync, Slider.release, htrack]
  rw [fit?_eq (hbounds ▸ hb), fit?_eq hb, hbounds, hpolicy, Option.map_map, Option.map_map]
  refine Option.map_congr fun scale _ ↦ ?_
  simp only [Function.comp_apply, view, syncSlider, resize, hfitted, hsync]

theorem fit?_again (hb : e.scene.bounds.isEmpty = false) {width height : α}
    (h : e.fit? width height = some e') :
    e'.slider.grabbed = false ∧ e'.slider.baseline = e'.slider.position ∧
      e'.fit? width height = some e' := by
  rw [fit?_eq hb] at h
  obtain ⟨scale, hf, rfl⟩ := Option.map_eq_some_iff.mp h
  have hagain := fit?_eq (e := { e.resize width height with
    viewport := e.viewport.fitted e.scene.bounds width scale }.syncSlider) hb width height
  refine ⟨rfl, rfl, hagain.trans ?_⟩
  rw [Option.map_eq_some_iff]
  exact ⟨scale, hf, rfl⟩

theorem load_bounds (h : e.load g = .ok e') :
    g.Loadable ∧ e'.scene.bounds = .around (g.extents e.config.metrics) := by
  obtain ⟨s, hs, hload⟩ := bind_ok h
  have hg := loadable_of_sceneOf hs
  obtain ⟨_, hm, hloaded⟩ := e.load_loadable hg
  cases h.symm.trans hm
  cases hload
  exact ⟨hg, hloaded.shows.bounds_eq (sceneOf_boxed hs)⟩

theorem next_load_bounds {m m' : Engine α} (hm : m.Configured c) (hg : withGraph c g = .ok e)
    (h : m.next? (.load g) = some m') : m'.scene.bounds = e.scene.bounds := by
  obtain ⟨hloadable, hbounds⟩ := load_bounds hg
  obtain ⟨m'', hload, -⟩ := m.load_loadable hloadable
  cases h.symm.trans (next_load hload)
  rw [hbounds, (load_bounds hload).2, hm.config_eq]
  rfl

/-- Only the graph that is shown, the configuration and the size of the screen matter to a fit. -/
theorem fit_forgets {k : Engine α} {before after : List (EngineInput α)}
    (hg : withGraph c g = .ok e) (hb : e.scene.bounds.isEmpty = false)
    (h : (create c).run? (before ++ .load g :: after) = some k) (ha : ∀ i ∈ after, ¬ i.Loads)
    (width height : α) :
    (k.fit? width height).map view = (e.fit? width height).map view ∧
      ((∃ k', k.fit? width height = some k') ↔ c.zoom.minFitScale ≤ c.zoom.maxFitScale) ∧
      ∀ k', k.fit? width height = some k' → k'.slider.grabbed = false ∧
        k'.slider.baseline = k'.slider.position ∧ k'.fit? width height = some k' := by
  have hk : k.Configured c := run_configured h
  have he : e.Configured c := by
    have hrun : (create c).run? [.load g] = some e := run?_cons_of_next (next_load hg) []
    exact run_configured hrun
  rw [run?_append, Option.bind_eq_bind, Option.bind_eq_some_iff] at h
  obtain ⟨m, hm, h⟩ := h
  rw [run?_cons, Option.bind_eq_bind, Option.bind_eq_some_iff] at h
  obtain ⟨m', hm', h⟩ := h
  have hload : m'.scene.bounds = e.scene.bounds :=
    next_load_bounds (run_configured hm) hg hm'
  -- From the load on the box stays what it was, wherever the nodes are dragged.
  have hbounds : k.scene.bounds = e.scene.bounds := by
    refine run_steps (P := fun x ↦ x.scene.bounds = e.scene.bounds) h hload fun i hi hx hb ↦ ?_
    exact (next_view _ Scene.bounds_of_bare Scene.bounds_moveSelected (ha i hi) hx).trans hb
  have hkb : k.scene.bounds.isEmpty = false := hbounds ▸ hb
  refine ⟨?_, ?_, fun k' hk' ↦ fit?_again hkb hk'⟩
  · exact fit?_congr hb hbounds (hk.policy_eq.trans he.policy_eq.symm)
      (hk.track_eq.trans he.track_eq.symm) width height
  · rw [← Option.ne_none_iff_exists', ne_eq, fit?_eq_none_iff, Stuck, hk.policy_eq]
    simp [hkb]

theorem fit_forgets_dragged : ∃ e k e' k' : Engine ℝ,
    withGraph .standard ⟨[⟨"a", none, 300, -40, "ready"⟩], []⟩ = .ok e ∧
      (create .standard).run? ([.resize 10 10] ++ .load ⟨[⟨"a", none, 300, -40, "ready"⟩], []⟩ ::
        [.select "a", .enterNode "a", .press .origin, .move ⟨900, 500⟩, .release, .fit 90 50,
          .load ⟨[], [⟨"a", "b", "ready"⟩]⟩, .clickZoom true, .grabSlider .origin]) = some k ∧
      e.fit? 640 480 = some e' ∧ k.fit? 640 480 = some k' ∧
      k'.viewport = e'.viewport ∧ k'.slider = e'.slider := by
  have hv : Payload.Visible (α := ℝ) ⟨[⟨"a", none, 300, -40, "ready"⟩], []⟩ .standard :=
    Payload.visible_standard (by decide) (List.cons_ne_nil _ _)
  obtain ⟨e, he, -, hshows, hbox⟩ := withGraph_loadable (c := .standard) hv.loadable
  have hb : e.scene.bounds.isEmpty = false := by
    rw [hshows.bounds_eq hbox]
    exact hv.isEmpty_around
  have hz : (ZoomPolicy.standard : ZoomPolicy ℝ).Proper := ZoomPolicy.proper_standard
  obtain ⟨k, hk, -⟩ : ∃ k, (create .standard).run?
      ([.resize 10 10] ++ .load ⟨[⟨"a", none, 300, -40, "ready"⟩], []⟩ ::
        [.select "a", .enterNode "a", .press .origin, .move ⟨900, 500⟩, .release, .fit 90 50,
          .load ⟨[], [⟨"a", "b", "ready"⟩]⟩, .clickZoom true, .grabSlider .origin]) = some k ∧
      Zoomable (Config.standard : Config ℝ) k := by
    refine run_total (fun i hi hc ↦ hc.next hz SliderTrack.proper_standard ?_) (zoomable_create _)
    revert i
    simp [EngineInput.Negatable]
  have hrefused : ¬ Payload.Loadable (α := ℝ) ⟨[], [⟨"a", "b", "ready"⟩]⟩ := by decide
  obtain ⟨hview, hfit, -⟩ := fit_forgets he hb hk (by simp [EngineInput.Loads, hrefused]) 640 480
  obtain ⟨k', hk'⟩ := hfit.mpr hz.minFitScale_le
  rw [hk', Option.map_some, eq_comm, Option.map_eq_some_iff] at hview
  obtain ⟨e', he', hsame⟩ := hview
  simp only [view, Prod.mk.injEq] at hsame
  exact ⟨e, k, e', k', he, hk, he', hk', hsame.1.symm, hsame.2.1.symm⟩

end Engine

section Exact

variable [ExactArith α] {c : Config α} {g : Payload α}

namespace Viewport

theorem fitScale_cases {p : ZoomPolicy α} (hp : p.minFitScale ≤ p.maxFitScale)
    {graphHeight height scale : α} (hg : 0 < graphHeight)
    (hf : fitScale? p graphHeight height = some scale) :
    (p.minFitScale ≤ scale ∧ scale ≤ p.maxFitScale) ∧
      (graphHeight * scale = p.fitRatio * height ∨
        scale = p.minFitScale ∧ p.fitRatio * height < graphHeight * scale ∨
        scale = p.maxFitScale ∧ graphHeight * scale < p.fitRatio * height) := by
  have hwanted : graphHeight * (height / graphHeight * p.fitRatio) = p.fitRatio * height := by
    rw [← mul_assoc, mul_div_cancel₀ _ hg.ne', mul_comm]
  simp only [fitScale?, ExactArith.zero_eq, if_pos hg, Arith.clamp?_eq hp, Option.some.injEq] at hf
  generalize height / graphHeight * p.fitRatio = wanted at hf hwanted
  rw [← hwanted, ← hf]
  refine ⟨⟨le_max_left _ _, max_le hp (min_le_right _ _)⟩, ?_⟩
  rcases lt_or_ge wanted p.minFitScale with hlow | hlow
  · rw [min_eq_left (hlow.le.trans hp), max_eq_left hlow.le]
    exact .inr (.inl ⟨rfl, mul_lt_mul_of_pos_left hlow hg⟩)
  · rcases le_or_gt wanted p.maxFitScale with hhigh | hhigh
    · rw [min_eq_left hhigh, max_eq_right hlow]
      exact .inl rfl
    · rw [min_eq_right hhigh.le, max_eq_right hp]
      exact .inr (.inr ⟨rfl, mul_lt_mul_of_pos_left hhigh hg⟩)

theorem apply_fitted_low (v : Viewport α) (b : BoundingBox α) (width scale : α) :
    (v.fitted b width scale).transform.apply b.low =
      ⟨(width - b.width * scale) / 2, v.policy.topMargin⟩ := by
  simp only [fitted, Transform.apply, BoundingBox.low, ExactArith.two_eq]
  ext <;> ring

theorem apply_fitted_high (v : Viewport α) (b : BoundingBox α) (width scale : α) :
    (v.fitted b width scale).transform.apply b.high =
      ⟨(width + b.width * scale) / 2, v.policy.topMargin + b.height * scale⟩ := by
  simp only [fitted, Transform.apply, BoundingBox.high, BoundingBox.width, BoundingBox.height,
    ExactArith.two_eq]
  ext <;> ring

end Viewport

/-- What is drawn is centered and begins at the margin. It fills its part of the height, unless a bound
of the scale makes it larger or smaller. -/
structure Frame.Fits (f : Frame α) (p : ZoomPolicy α) (width height : α) (low high : Point α) :
    Prop where
  spans : Spans (f.nodes.map NodeShape.rect) low high
  centered : low.x + high.x = width
  top_eq : low.y = p.topMargin
  minFitScale_le : p.minFitScale ≤ f.transform.scale
  le_maxFitScale : f.transform.scale ≤ p.maxFitScale
  height_eq : high.y - low.y = p.fitRatio * height ∨
    f.transform.scale = p.minFitScale ∧ p.fitRatio * height < high.y - low.y ∨
    f.transform.scale = p.maxFitScale ∧ high.y - low.y < p.fitRatio * height

namespace Engine

variable {e e' : Engine α} {width height : α}

theorem render_rects (e : Engine α) : e.render.nodes.map NodeShape.rect =
    (e.scene.nodes.toList.map Node.bounds).map e.viewport.transform.applyRect := by
  simp only [render, Frame.ofScene, List.map_map]
  rfl

theorem fit_fits (hb : e.scene.bounds.isEmpty = false) (hheight : 0 < e.scene.bounds.height)
    (hspans : Spans (e.scene.nodes.toList.map Node.bounds) e.scene.bounds.low e.scene.bounds.high)
    (hmin : 0 < e.viewport.policy.minFitScale)
    (hmax : e.viewport.policy.minFitScale ≤ e.viewport.policy.maxFitScale)
    (h : e.fit? width height = some e') :
    ∃ low high, e'.render.Fits e.viewport.policy width height low high := by
  obtain ⟨hb', -⟩ | ⟨-, scale, hf, rfl⟩ := fit_cases h
  · exact absurd hb' (hb ▸ Bool.false_ne_true)
  · obtain ⟨⟨hlow, hhigh⟩, hfill⟩ := Viewport.fitScale_cases hmax hheight hf
    have hdrawn := hspans.applyRect
      (t := (e.viewport.fitted e.scene.bounds width scale).transform) (hmin.trans_le hlow)
    rw [Viewport.apply_fitted_low, Viewport.apply_fitted_high] at hdrawn
    refine ⟨⟨(width - e.scene.bounds.width * scale) / 2, e.viewport.policy.topMargin⟩,
      ⟨(width + e.scene.bounds.width * scale) / 2,
        e.viewport.policy.topMargin + e.scene.bounds.height * scale⟩, ?_, ?_, rfl, hlow, hhigh, ?_⟩
    · rw [render_rects]
      exact hdrawn
    · ring
    · simp only [add_sub_cancel_left]
      exact hfill

/-- A graph that has been loaded is fitted as it is drawn. Its box is the smallest around its nodes,
in whatever order they came. -/
theorem fit_frames (hv : g.Visible c.metrics) (hmin : 0 < c.zoom.minFitScale)
    (hmax : c.zoom.minFitScale ≤ c.zoom.maxFitScale) (width height : α) :
    ∃ e e' low high, withGraph c g = .ok e ∧ e.fit? width height = some e' ∧
      e'.render.Fits c.zoom width height low high ∧
      Spans (e.scene.nodes.toList.map Node.bounds) e.scene.bounds.low e.scene.bounds.high ∧
      ∀ g', g'.Loadable → g'.nodes.Perm g.nodes →
        ∃ m, withGraph c g' = .ok m ∧ m.scene.bounds = e.scene.bounds := by
  obtain ⟨e, he, hconf, hshows, hbox⟩ := withGraph_loadable (c := c) hv.loadable
  have hbounds := hshows.bounds_eq hbox
  have hb : e.scene.bounds.isEmpty = false := hbounds ▸ hv.isEmpty_around
  have hspans := hbox.spans (hshows.extents_eq ▸ hv.extents_ne)
  have hp : e.viewport.policy = c.zoom := hconf.policy_eq
  obtain ⟨e', h⟩ : ∃ e', e.fit? width height = some e' := by
    rw [← Option.ne_none_iff_exists', ne_eq, fit?_eq_none_iff, Stuck, hp]
    exact fun hs ↦ hs.2 hmax
  rw [← hp] at hmin hmax
  obtain ⟨low, high, hfits⟩ := fit_fits hb (hbounds ▸ hv.height_around) hspans hmin hmax h
  refine ⟨e, e', low, high, he, h, hp ▸ hfits, hspans, fun g' hg' hperm ↦ ?_⟩
  obtain ⟨m, hm, -, hmshows, hmbox⟩ := withGraph_loadable (c := c) hg'
  refine ⟨m, hm, ?_⟩
  rw [hmshows.bounds_eq hmbox, hbounds]
  exact BoundingBox.around_perm (hperm.map _)

theorem fit_frames_distant : ∃ (e e' m : Engine ℝ) (low high : Point ℝ),
    withGraph .standard
        ⟨[⟨"a", none, -300, -40, "ready"⟩, ⟨"b", some "wider", -80, 200, "failed"⟩], []⟩ = .ok e ∧
      e.fit? 640 480 = some e' ∧ e'.render.Fits .standard 640 480 low high ∧
      withGraph .standard
        ⟨[⟨"b", some "wider", -80, 200, "failed"⟩, ⟨"a", none, -300, -40, "ready"⟩], []⟩ = .ok m ∧
      m.scene.bounds = e.scene.bounds := by
  have hv : Payload.Visible (α := ℝ)
      ⟨[⟨"a", none, -300, -40, "ready"⟩, ⟨"b", some "wider", -80, 200, "failed"⟩], []⟩ .standard :=
    Payload.visible_standard (by decide) (List.cons_ne_nil _ _)
  have hz : (ZoomPolicy.standard : ZoomPolicy ℝ).Proper := ZoomPolicy.proper_standard
  obtain ⟨e, e', low, high, he, h, hfits, -, hperm⟩ :=
    fit_frames (c := .standard) hv hz.minFitScale_pos hz.minFitScale_le 640 480
  obtain ⟨m, hm, hbounds⟩ := hperm
    ⟨[⟨"b", some "wider", -80, 200, "failed"⟩, ⟨"a", none, -300, -40, "ready"⟩], []⟩
    (by decide) (.swap _ _ _)
  exact ⟨e, e', m, low, high, he, h, hfits, hm, hbounds⟩

end Engine

end Exact

end Diagram
