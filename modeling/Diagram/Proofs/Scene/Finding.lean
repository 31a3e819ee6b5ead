import Diagram.Proofs.Scene.Checking
import Mathlib.Data.List.Induction
import Mathlib.Order.Bounds.Basic

namespace Diagram

variable {α β : Type}

def places (xs : Array β) (q : β → Bool) : List Nat :=
  (List.range xs.size).filter fun k ↦ xs[k]?.any q

theorem mem_places {xs : Array β} {q : β → Bool} {k : Nat} :
    k ∈ places xs q ↔ ∃ x, xs[k]? = some x ∧ q x = true := by
  simp only [places, List.mem_filter, List.mem_range, Option.any_eq_true, and_iff_right_iff_imp]
  rintro ⟨x, hx, -⟩
  exact (Array.getElem?_eq_some_iff.mp hx).1

theorem pairwise_places (xs : Array β) (q : β → Bool) : (places xs q).Pairwise (· < ·) :=
  List.pairwise_lt_range.filter _

theorem filterMap_range (xs : Array β) : (List.range xs.size).filterMap (xs[·]?) = xs.toList := by
  have hmap : (List.range xs.size).map (xs[·]?) = xs.toList.map some := by
    apply List.ext_getElem
    · simp
    · intro k hk _
      simp only [List.length_map, List.length_range] at hk
      simp [hk]
  calc (List.range xs.size).filterMap (xs[·]?)
      = ((List.range xs.size).map (xs[·]?)).filterMap id := by rw [List.filterMap_map]; rfl
    _ = xs.toList := by rw [hmap, List.filterMap_map]; exact List.filterMap_some

theorem filterMap_places (xs : Array β) (q : β → Bool) :
    (places xs q).filterMap (xs[·]?) = xs.toList.filter q := by
  rw [places, List.filterMap_filter]
  conv_rhs => rw [← filterMap_range xs, List.filter_filterMap]
  refine List.filterMap_congr fun k _ ↦ ?_
  cases xs[k]? with
  | none => rfl
  | some x => simp [Option.filter]

theorem positions_map (xs : Array β) (f : β → Nat) (a : Nat) :
    positions (xs.map f) a = places xs (f · == a) := by
  rw [positions, places, Array.size_map]
  refine List.filter_congr fun k _ ↦ ?_
  rw [Array.getElem?_map]
  cases xs[k]? with
  | none => rfl
  | some x => simp [beq_eq_decide]

theorem find?_eq_some_iff_least {xs : Array β} {q : β → Bool} {x : β} :
    xs.toList.find? q = some x ↔
      ∃ k, xs[k]? = some x ∧ IsLeast {k : Nat | ∃ y, xs[k]? = some y ∧ q y = true} k := by
  rw [List.find?_eq_some_iff_getElem]
  constructor
  · rintro ⟨hx, k, hk, rfl, hfirst⟩
    have hxk : xs[k]? = some xs.toList[k] := by
      rw [← Array.getElem?_toList, List.getElem?_eq_getElem hk]
    refine ⟨k, hxk, ⟨_, hxk, hx⟩, ?_⟩
    rintro j ⟨y, hy, hqy⟩
    by_contra! hj
    have hno := hfirst j hj
    rw [← Array.getElem?_toList, List.getElem?_eq_getElem (hj.trans hk)] at hy
    rw [Option.some.inj hy, hqy] at hno
    exact absurd hno (by decide)
  · rintro ⟨k, hxk, ⟨y, hy, hqy⟩, hleast⟩
    obtain rfl : x = y := Option.some.inj (hxk.symm.trans hy)
    obtain ⟨hk, rfl⟩ := Array.getElem?_eq_some_iff.mp hxk
    refine ⟨hqy, k, hk, rfl, fun j hj ↦ ?_⟩
    by_contra! hno
    have hqj : q xs[j] = true := by simpa using hno
    exact hj.not_ge (hleast ⟨_, Array.getElem?_eq_getElem (hj.trans hk), hqj⟩)

namespace Scene

def joins (s : Scene α) (source target : String) (e : Edge α) : Bool :=
  s.idOf? e.source == some source && s.idOf? e.target == some target

variable {s s' : Scene α}

theorem joins_iff {source target : String} {e : Edge α} : s.joins source target e = true ↔
    s.idOf? e.source = some source ∧ s.idOf? e.target = some target := by
  simp only [joins, Bool.and_eq_true, beq_iff_eq]

theorem Indexed.joins_eq (hs : s.Indexed) (source target : String) (e : Edge α) :
    s.joins source target e =
      (s.handle? source == some e.source && s.handle? target == some e.target) := by
  rw [Bool.eq_iff_iff, joins_iff, Bool.and_eq_true, beq_iff_eq, beq_iff_eq, hs, hs]

theorem Keeps.idOf?_eq (h : s.Keeps s') {j : Nat} (hj : j < s.nodes.size) :
    s'.idOf? j = s.idOf? j := by
  have hn := Array.getElem?_eq_getElem hj
  obtain ⟨n', hn', hid, -⟩ := h.node hn
  rw [idOf?, idOf?, hn, hn', Option.map_some, Option.map_some, hid]

/-- Once it is there, an edge joins the same ids for ever. -/
theorem Keeps.joins_eq (h : s.Keeps s') (hl : s.Linked) {e e' : Edge α} (he : e ∈ s.edges)
    (hc : e'.core = e.core) (source target : String) :
    s'.joins source target e' = s.joins source target e := by
  simp only [Edge.core, Prod.mk.injEq] at hc
  have hlt := hl.ends_lt e he
  rw [joins, joins, hc.1, hc.2.1, h.idOf?_eq hlt.1, h.idOf?_eq hlt.2]

/-- The edges that leave a node are those that a search through all edges comes to, in that order. -/
theorem Indexed.findEdge?_eq (hs : s.Indexed) (hl : s.Linked) (source target : String) :
    s.findEdge? source target = s.edges.toList.find? (s.joins source target) := by
  have hjoins := hs.joins_eq source target
  cases ha : s.handle? source with
  | none =>
    have hnone : s.edges.toList.find? (s.joins source target) = none :=
      List.find?_eq_none.mpr fun e _ ↦ by simp [hjoins, ha]
    rw [hnone, findEdge?, ha]
    rfl
  | some a =>
    cases hb : s.handle? target with
    | none =>
      have hnone : s.edges.toList.find? (s.joins source target) = none :=
        List.find?_eq_none.mpr fun e _ ↦ by simp [hjoins, hb]
      rw [hnone, findEdge?, ha, hb]
      rfl
    | some b =>
      obtain ⟨n, hn, -⟩ := hs.node_of_handle ha
      have hfind : s.findEdge? source target =
          (n.outEdges.filterMap fun k ↦ s.edges[k]?).find? (·.target == b) := by
        simp only [findEdge?, ha, hb, hn, Option.bind_eq_bind, Option.bind_some]
      rw [hfind, hl.outEdges_eq hn, positions_map, filterMap_places, List.find?_filter]
      congr 1
      funext e
      rw [hjoins, ha, hb, Bool.eq_iff_iff]
      simp only [decide_eq_true_eq, Bool.and_eq_true, beq_iff_eq, Option.some.injEq]
      exact and_congr eq_comm eq_comm

variable [Arith α]

theorem size_edges_edit (s : Scene α) {x : SceneEdit α}
    (hx : ∀ source target status, x ≠ .addEdge source target status) :
    (s.edit x).edges.size = s.edges.size := by
  have hshape {t : Scene α} (h : t.shape = s.shape) : t.edges.size = s.edges.size := by
    have hm : t.edges.map Edge.core = s.edges.map Edge.core := congrArg (·.2.2) h
    simpa only [Array.size_map] using congrArg Array.size hm
  cases x with
  | addEdge source target status => exact absurd rfl (hx source target status)
  | addNode id label p status =>
    cases hr : s.addNode id label p status with
    | error _ => simp [edit, perform, hr, bind, Except.bind]
    | ok r =>
      obtain ⟨-, -, hs'⟩ := addNode_ok hr
      rw [edit_addNode hr, hs']
  | moveNode id d =>
    cases hr : s.require id with
    | error _ => simp [edit, perform, moveNode, hr, bind, Except.bind]
    | ok h =>
      have hmove : s.edit (.moveNode id d) = s.moveHandle h d := by
        simp [edit, perform, moveNode, hr, bind, Except.bind, pure, Except.pure]
      exact hmove ▸ hshape (shape_moveHandle s h d)
  | moveSelected d =>
    exact hshape (view_foldl shape _ (fun s h ↦ shape_moveHandle s h d) s.selection s)
  | select id =>
    cases hr : s.select id with
    | error _ => simp [edit, perform, hr, bind, Except.bind]
    | ok s' => exact edit_select hr ▸ hshape (shape_of_bare (bare_select hr))
  | clearSelection => exact hshape (shape_of_bare (bare_clearSelection s))
  | setEnabled ids enabled => exact hshape (shape_of_bare (bare_setEnabledHandles s _ enabled))
  | setSelectionEnabled enabled => exact hshape (shape_of_bare (bare_setEnabledHandles s _ enabled))
  | enableAll => exact hshape (shape_of_bare (bare_setEnabledHandles s _ true))
  | disableAncestors => exact hshape (shape_of_bare (bare_setEnabledHandles s _ false))
  | setStatus status => exact hshape (shape_of_bare (bare_setStatus s status))
  | drain => rfl

theorem edges_edit_cases (s : Scene α) (x : SceneEdit α) {k : Nat} {e' : Edge α}
    (he' : (s.edit x).edges[k]? = some e') :
    (∃ e, s.edges[k]? = some e ∧ e'.core = e.core) ∨ ∃ source target status s',
      x = .addEdge source target status ∧ s.addEdge source target status = .ok (k, s') := by
  by_cases hk : k < s.edges.size
  · left
    have he := Array.getElem?_eq_getElem hk
    obtain ⟨e'', he'', hsource, htarget, hstatus⟩ := (keeps_edit s x).edge he
    obtain rfl : e' = e'' := Option.some.inj (he'.symm.trans he'')
    exact ⟨_, he, by simp only [Edge.core, hsource, htarget, hstatus]⟩
  · right
    have hk' := (Array.getElem?_eq_some_iff.mp he').1
    by_cases hx : ∀ source target status, x ≠ .addEdge source target status
    · rw [size_edges_edit s hx] at hk'
      exact absurd hk' hk
    · push Not at hx
      obtain ⟨source, target, status, rfl⟩ := hx
      cases hr : s.addEdge source target status with
      | error _ =>
        simp only [edit, perform, hr, bind, Except.bind] at hk'
        exact absurd hk' hk
      | ok r =>
        obtain ⟨k', s'⟩ := r
        rw [edit_addEdge hr] at hk'
        obtain ⟨a, b, n, m, -, -, rfl, rfl⟩ := addEdge_ok hr
        rw [Array.size_push] at hk'
        obtain rfl : k = s.edges.size := by omega
        exact ⟨source, target, status, _, rfl, hr⟩

theorem run_concat (metrics : NodeMetrics α) (edits : List (SceneEdit α)) (x : SceneEdit α) :
    run metrics (edits ++ [x]) = (run metrics edits).edit x := List.foldl_concat ..

/-- Some edits add an edge between two ids, and hand out the number `k` for it. -/
def Adds (metrics : NodeMetrics α) (edits : List (SceneEdit α)) (source target status : String)
    (k : Nat) : Prop :=
  ∃ pre post s, edits = pre ++ .addEdge source target status :: post ∧
    (run metrics pre).addEdge source target status = .ok (k, s)

variable {metrics : NodeMetrics α} {edits : List (SceneEdit α)} {source target status : String}
  {k : Nat}

theorem Adds.concat (h : Adds metrics edits source target status k) (x : SceneEdit α) :
    Adds metrics (edits ++ [x]) source target status k := by
  obtain ⟨pre, post, s, rfl, hr⟩ := h
  exact ⟨pre, post ++ [x], s, by rw [List.append_assoc, List.cons_append], hr⟩

theorem Adds.edge (h : Adds metrics edits source target status k) :
    ∃ e, (run metrics edits).edges[k]? = some e ∧
      (run metrics edits).joins source target e = true ∧ e.status = status := by
  obtain ⟨pre, post, s, rfl, hr⟩ := h
  have hperform : (run metrics pre).perform (.addEdge source target status) = .ok (some k, s) := by
    simp [perform, hr, bind, Except.bind, pure, Except.pure]
  have hrun : run metrics (pre ++ .addEdge source target status :: post) = post.foldl edit s := by
    rw [run, List.foldl_append, List.foldl_cons, ← run, edit, hperform]
  have hs := sound_run metrics pre
  obtain ⟨e, he, hsource, htarget, hstatus⟩ := hs.indexed.numbers hperform
  have hjoins : s.joins source target e = true := by
    simp [(hs.indexed.addEdge hr).joins_eq, hsource, htarget]
  have hkeeps := keeps_foldl s post
  obtain ⟨e', he', hc⟩ := hkeeps.edge he
  rw [hrun]
  refine ⟨e', he', ?_, hc.2.2.trans hstatus⟩
  rw [← hjoins]
  exact hkeeps.joins_eq (hs.linked.addEdge hr) (Array.mem_of_getElem? he)
    (by simp only [Edge.core, hc]) source target

theorem adds_iff : Adds metrics edits source target status k ↔
    ∃ e, (run metrics edits).edges[k]? = some e ∧
      (run metrics edits).joins source target e = true ∧ e.status = status := by
  refine ⟨Adds.edge, ?_⟩
  induction edits using List.reverseRecOn with
  | nil =>
    rintro ⟨e, he, -⟩
    simp [run, empty] at he
  | append_singleton edits x ih =>
    rintro ⟨e', he', hjoins, hstatus⟩
    rw [run_concat] at he' hjoins
    obtain ⟨e, he, hc⟩ | ⟨source', target', status', s', rfl, hr⟩ := edges_edit_cases _ x he'
    · rw [(keeps_edit _ x).joins_eq (sound_run metrics edits).linked (Array.mem_of_getElem? he) hc]
        at hjoins
      exact (ih ⟨e, he, hjoins, (congrArg (·.2.2) hc).symm.trans hstatus⟩).concat x
    · -- The edge is the one that is added last, and so the ids are those that it was added for.
      have hadds : Adds metrics (edits ++ [.addEdge source' target' status']) source' target' status'
          k := ⟨edits, [], s', rfl, hr⟩
      obtain ⟨e, he, hjoins', rfl⟩ := hadds.edge
      rw [run_concat] at he hjoins'
      obtain rfl : e' = e := Option.some.inj (he'.symm.trans he)
      rw [joins_iff] at hjoins hjoins'
      obtain rfl : source' = source := Option.some.inj (hjoins'.1.symm.trans hjoins.1)
      obtain rfl : target' = target := Option.some.inj (hjoins'.2.symm.trans hjoins.2)
      exact hstatus ▸ hadds

/-- A search by the list of one node gives what one through all edges gives: the first that was ever
added from the one id to the other, and nothing if none was. It reaches for no edge that is not there. -/
theorem findEdge_earliest (metrics : NodeMetrics α) (edits : List (SceneEdit α))
    (source target : String) :
    (run metrics edits).findEdge? source target =
        (run metrics edits).edges.toList.find? ((run metrics edits).joins source target) ∧
      Checked.findEdge? (run metrics edits) source target =
        some ((run metrics edits).findEdge? source target) ∧
      ((run metrics edits).findEdge? source target = none ↔
        ∀ status k, ¬Adds metrics edits source target status k) ∧
      ∀ e, (run metrics edits).findEdge? source target = some e ↔
        ∃ k, (run metrics edits).edges[k]? = some e ∧ Adds metrics edits source target e.status k ∧
          IsLeast {k | ∃ status, Adds metrics edits source target status k} k := by
  have hs := sound_run metrics edits
  have hscan := hs.indexed.findEdge?_eq hs.linked source target
  refine ⟨hscan, Checked.findEdge?_eq hs source target, ?_, fun e ↦ ?_⟩
  · rw [hscan, List.find?_eq_none]
    constructor
    · intro h status k hadds
      obtain ⟨e, he, hjoins, -⟩ := hadds.edge
      exact h e (Array.mem_toList_iff.mpr (Array.mem_of_getElem? he)) hjoins
    · intro h e he hjoins
      obtain ⟨k, hk⟩ := Array.mem_iff_getElem?.mp (Array.mem_toList_iff.mp he)
      exact h e.status k (adds_iff.mpr ⟨e, hk, hjoins, rfl⟩)
  · have hset : {k | ∃ status, Adds metrics edits source target status k} =
        {k | ∃ e, (run metrics edits).edges[k]? = some e ∧
          (run metrics edits).joins source target e = true} := by
      ext k
      constructor
      · rintro ⟨status, hadds⟩
        obtain ⟨e, he, hjoins, -⟩ := hadds.edge
        exact ⟨e, he, hjoins⟩
      · rintro ⟨e, he, hjoins⟩
        exact ⟨e.status, adds_iff.mpr ⟨e, he, hjoins, rfl⟩⟩
    rw [hscan, find?_eq_some_iff_least, hset]
    refine exists_congr fun k ↦ and_congr_right fun he ↦ ⟨fun h ↦ ⟨?_, h⟩, And.right⟩
    obtain ⟨e', he', hjoins⟩ := h.1
    obtain rfl : e = e' := Option.some.inj (he.symm.trans he')
    exact adds_iff.mpr ⟨e, he, hjoins, rfl⟩

end Scene

end Diagram
