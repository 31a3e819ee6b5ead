import Diagram.Proofs.Scene.Checking
import Diagram.Proofs.Scene.Flagging
import Mathlib.Order.Lattice.Nat

namespace Diagram

variable {α : Type}

namespace Scene

def Leads (s : Scene α) (v w : Nat) : Prop := ∃ e ∈ s.edges, e.source = v ∧ e.target = w

inductive Way (s : Scene α) : ℕ → Nat → Nat → Prop
  | here (v : Nat) : s.Way 0 v v
  | along {n : ℕ} {v w t : Nat} : s.Leads v w → s.Way n w t → s.Way (n + 1) v t

/-- The lengths of the ways, none of them empty, from a node to those of `start` that are nodes. -/
def wayLengths (s : Scene α) (start : List Nat) (v : Nat) : Set ℕ :=
  {n | 0 < n ∧ ∃ t ∈ start, t < s.nodes.size ∧ s.Way n v t}

def Upstream (s : Scene α) (start : List Nat) (v : Nat) : Prop :=
  v ∉ start ∧ (s.wayLengths start v).Nonempty

noncomputable def distance (s : Scene α) (start : List Nat) (v : Nat) : ℕ :=
  sInf (s.wayLengths start v)

/-- The loop of the search without a bound: what it has found when the queue has run empty. -/
inductive Ends (s : Scene α) (start : List Nat) : List Nat → List Nat → List Nat → Prop
  | done (found : List Nat) : s.Ends start [] found found
  | next {h : Nat} {queue found result : List Nat} :
    s.Ends start (queue ++ fresh (start ++ found) (s.parents h))
      (found ++ fresh (start ++ found) (s.parents h)) result →
    s.Ends start (h :: queue) found result

def Near (s : Scene α) (start : List Nat) (n : ℕ) (v : Nat) : Prop :=
  ∃ k ≤ n, ∃ t ∈ start, s.Way k v t

def Before (s : Scene α) (start : List Nat) (v w : Nat) : Prop :=
  ∀ n, s.Near start n w → s.Near start n v

/-- Where the search is when it has left `done` behind: all that was met, in the order in which it was,
is `start ++ found`, and none of it is farther away than an edge from what is next. -/
structure Searching (s : Scene α) (start done queue found : List Nat) : Prop where
  met : start ++ found = done ++ queue
  once : found.Nodup
  apart : ∀ v ∈ found, v ∉ start
  near : ∀ v ∈ start ++ found, ∃ n, s.Near start n v
  explored : ∀ w ∈ done, ∀ v, s.Leads v w → v ∈ start ++ found
  ordered : (start ++ found).Pairwise (s.Before start)
  span : ∀ h ∈ queue.head?, ∀ v ∈ start ++ found, ∀ n, s.Near start n h → s.Near start (n + 1) v

variable {s : Scene α} {start done queue found result : List Nat} {n m : ℕ} {v w t h : Nat}

theorem mem_fresh {seen hs : List Nat} : v ∈ fresh seen hs ↔ v ∈ hs ∧ v ∉ seen := by
  induction hs generalizing seen with
  | nil => simp [fresh]
  | cons x hs ih =>
    rw [fresh]
    split
    · next hx =>
      rw [ih, List.mem_cons]
      refine ⟨fun hv ↦ ⟨.inr hv.1, hv.2⟩, fun hv ↦ ⟨hv.1.resolve_left fun hvx ↦ ?_, hv.2⟩⟩
      exact hv.2 (hvx ▸ hx)
    · next hx =>
      simp only [List.mem_cons, ih, not_or]
      constructor
      · rintro (rfl | ⟨hv, -, hvs⟩)
        · exact ⟨.inl rfl, hx⟩
        · exact ⟨.inr hv, hvs⟩
      · rintro ⟨rfl | hv, hvs⟩
        · exact .inl rfl
        · exact (Decidable.em (v = x)).imp_right fun hvx ↦ ⟨hv, hvx, hvs⟩

theorem nodup_fresh (seen hs : List Nat) : (fresh seen hs).Nodup := by
  induction hs generalizing seen with
  | nil => exact List.nodup_nil
  | cons x hs ih =>
    rw [fresh]
    split
    · exact ih seen
    · exact List.nodup_cons.mpr ⟨fun hx ↦ (mem_fresh.mp hx).2 List.mem_cons_self, ih _⟩

theorem rel_of_pairwise_middle {R : Nat → Nat → Prop} {xs ys : List Nat}
    (hr : (xs ++ v :: ys).Pairwise R) (hw : w ∈ ys) : R v w :=
  (List.pairwise_cons.mp (List.pairwise_append.mp hr).2.1).1 w hw

theorem Linked.mem_parents (hs : s.Linked) : v ∈ s.parents w ↔ s.Leads v w := by
  have hsource {k : Nat} : s.edges[k]?.map Edge.source = some v ↔
      ∃ e, s.edges[k]? = some e ∧ e.source = v := Option.map_eq_some_iff
  simp only [parents, List.mem_filterMap, hsource]
  constructor
  · rintro ⟨k, hk, e, he, hv⟩
    cases hn : s.nodes[w]? with
    | none => simp [hn] at hk
    | some n =>
      rw [hn, Option.map_some, Option.getD_some, hs.inEdges_eq hn] at hk
      obtain ⟨e', he', hw⟩ := mem_positions_map.mp hk
      obtain rfl : e = e' := Option.some.inj (he.symm.trans he')
      exact ⟨e, Array.mem_of_getElem? he, hv, hw⟩
  · rintro ⟨e, he, hv, hw⟩
    obtain ⟨k, hk⟩ := Array.mem_iff_getElem?.mp he
    obtain ⟨n, hn⟩ : ∃ n, s.nodes[w]? = some n :=
      ⟨_, Array.getElem?_eq_getElem (hw ▸ (hs.ends_lt e he).2)⟩
    refine ⟨k, ?_, e, hk, hv⟩
    rw [hn, Option.map_some, Option.getD_some, hs.inEdges_eq hn]
    exact mem_positions_map.mpr ⟨e, hk, hw⟩

theorem Linked.way_lt (hs : s.Linked) (hw : s.Way (n + 1) v t) : t < s.nodes.size := by
  induction n generalizing v with
  | zero =>
    obtain _ | ⟨⟨e, he, -, rfl⟩, ⟨⟩⟩ := hw
    exact (hs.ends_lt e he).2
  | succ n ih =>
    obtain _ | ⟨-, hw⟩ := hw
    exact ih hw

theorem near_of_mem (hv : v ∈ start) (n : ℕ) : s.Near start n v := ⟨0, n.zero_le, v, hv, .here v⟩

theorem Near.mono (hv : s.Near start n v) (hn : n ≤ m) : s.Near start m v := by
  obtain ⟨k, hk, hw⟩ := hv
  exact ⟨k, hk.trans hn, hw⟩

theorem Near.along (hw : s.Near start n w) (hvw : s.Leads v w) : s.Near start (n + 1) v := by
  obtain ⟨k, hk, t, ht, hway⟩ := hw
  exact ⟨k + 1, Nat.succ_le_succ hk, t, ht, .along hvw hway⟩

theorem Near.cases (hv : s.Near start n v) :
    v ∈ start ∨ ∃ m w, n = m + 1 ∧ s.Leads v w ∧ s.Near start m w := by
  obtain ⟨k, hk, t, ht, hway⟩ := hv
  cases hway with
  | here => exact .inl ht
  | along hvw hway =>
    obtain ⟨m, rfl⟩ := Nat.exists_eq_add_of_lt hk
    exact .inr ⟨_, _, rfl, hvw, _, Nat.le_add_right _ m, t, ht, hway⟩

theorem Linked.near_iff (hs : s.Linked) (hv : v ∉ start) :
    s.Near start n v ↔ ∃ k ∈ s.wayLengths start v, k ≤ n := by
  constructor
  · rintro ⟨k, hk, t, ht, hway⟩
    cases hway with
    | here => exact absurd ht hv
    | along hvw hway =>
      have hway := Way.along hvw hway
      exact ⟨_, ⟨Nat.succ_pos _, t, ht, hs.way_lt hway, hway⟩, hk⟩
  · rintro ⟨k, ⟨-, t, ht, -, hway⟩, hk⟩
    exact ⟨k, hk, t, ht, hway⟩

theorem Linked.distance_le (hs : s.Linked) (hvw : s.Before start v w) (hv : v ∉ start)
    (hw : s.Upstream start w) : s.distance start v ≤ s.distance start w := by
  have hmem : s.distance start w ∈ s.wayLengths start w := Nat.sInf_mem hw.2
  obtain ⟨k, hk, hle⟩ := (hs.near_iff hv).mp (hvw _ ((hs.near_iff hw.1).mpr ⟨_, hmem, le_rfl⟩))
  exact (Nat.sInf_le hk).trans hle

theorem Ends.unique {result' : List Nat} (h : s.Ends start queue found result)
    (h' : s.Ends start queue found result') : result = result' := by
  induction h with
  | done found =>
    cases h'
    rfl
  | next _ ih =>
    cases h' with
    | next h' => exact ih h'

namespace Searching

theorem init (s : Scene α) (start : List Nat) : s.Searching start [] start [] where
  met := List.append_nil start
  once := List.nodup_nil
  apart _ hv := absurd hv List.not_mem_nil
  near v hv := ⟨0, near_of_mem (List.append_nil start ▸ hv) 0⟩
  explored _ hw := absurd hw List.not_mem_nil
  ordered := by
    rw [List.append_nil]
    exact List.pairwise_of_forall_mem_list fun v hv w _ n _ ↦ near_of_mem hv n
  span _ _ v hv n _ := near_of_mem (List.append_nil start ▸ hv) (n + 1)

theorem mem_done (hi : s.Searching start done queue found) (hq : ∀ h ∈ queue, ¬s.Near start n h)
    (hv : s.Near start n v) : v ∈ done := by
  have hleft {n v} (hq : ∀ h ∈ queue, ¬s.Near start n h) (hv : s.Near start n v)
      (hmet : v ∈ start ++ found) : v ∈ done := by
    rw [hi.met] at hmet
    exact (List.mem_append.mp hmet).resolve_right fun hvq ↦ hq v hvq hv
  induction n generalizing v with
  | zero =>
    obtain hmem | ⟨m, w, hm, -⟩ := hv.cases
    · exact hleft hq hv (List.mem_append_left _ hmem)
    · exact absurd hm (Nat.succ_ne_zero m).symm
  | succ n ih =>
    obtain hmem | ⟨m, w, hm, hvw, hw⟩ := hv.cases
    · exact hleft hq hv (List.mem_append_left _ hmem)
    · obtain rfl : n = m := Nat.succ.inj hm
      have hw := ih (fun h hh hn ↦ hq h hh (hn.mono n.le_succ)) hw
      exact hleft hq hv (hi.explored w hw v hvw)

/-- The way of what is met at `h` for the first time goes through `h`. -/
theorem near_of_new (hi : s.Searching start done (h :: queue) found) (hnew : v ∉ start ++ found)
    (hv : s.Near start n v) : ∃ m, n = m + 1 ∧ s.Near start m h := by
  obtain hmem | ⟨m, w, rfl, hvw, hw⟩ := hv.cases
  · exact absurd (List.mem_append_left _ hmem) hnew
  refine ⟨m, rfl, by_contra fun hh ↦ hnew (hi.explored w (hi.mem_done (fun j hj ↦ ?_) hw) v hvw)⟩
  have hord := hi.ordered
  rw [hi.met] at hord
  rcases List.mem_cons.mp hj with rfl | hj
  · exact hh
  · exact fun hnear ↦ hh (rel_of_pairwise_middle hord hj m hnear)

theorem next (hs : s.Linked) (hi : s.Searching start done (h :: queue) found) :
    s.Searching start (done ++ [h]) (queue ++ fresh (start ++ found) (s.parents h))
      (found ++ fresh (start ++ found) (s.parents h)) := by
  have hnew {v : Nat} : v ∈ fresh (start ++ found) (s.parents h) ↔
      s.Leads v h ∧ v ∉ start ++ found := mem_fresh.trans (and_congr_left' hs.mem_parents)
  generalize hfresh : fresh (start ++ found) (s.parents h) = new at hnew
  have hmem {v : Nat} : v ∈ start ++ (found ++ new) ↔ v ∈ start ++ found ∨ v ∈ new := by
    rw [← List.append_assoc, List.mem_append]
  have hmet : start ++ (found ++ new) = done ++ h :: (queue ++ new) := by
    rw [← List.append_assoc, hi.met, List.append_assoc, List.cons_append]
  have hh : h ∈ start ++ found := hi.met ▸ List.mem_append_right _ List.mem_cons_self
  have hspan {v : Nat} (hv : v ∈ start ++ (found ++ new)) {n : ℕ} (hn : s.Near start n h) :
      s.Near start (n + 1) v :=
    (hmem.mp hv).elim (fun hv ↦ hi.span h rfl v hv n hn) fun hv ↦ hn.along (hnew.mp hv).1
  have hordered : (start ++ (found ++ new)).Pairwise (s.Before start) := by
    rw [← List.append_assoc, List.pairwise_append]
    have hbefore {v w : Nat} (hv : v ∈ start ++ (found ++ new)) (hw : w ∈ new) :
        s.Before start v w := by
      intro n hn
      obtain ⟨m, rfl, hm⟩ := hi.near_of_new (hnew.mp hw).2 hn
      exact hspan hv hm
    refine ⟨hi.ordered, ?_, fun v hv w hw ↦ hbefore (hmem.mpr (.inl hv)) hw⟩
    exact List.pairwise_of_forall_mem_list fun v hv w hw ↦ hbefore (hmem.mpr (.inr hv)) hw
  constructor
  case met => rw [hmet, List.append_assoc, List.singleton_append]
  case once =>
    refine List.nodup_append.mpr ⟨hi.once, hfresh ▸ nodup_fresh _ _, fun v hv w hw hvw ↦ ?_⟩
    exact (hnew.mp hw).2 (List.mem_append_right _ (hvw ▸ hv))
  case apart =>
    intro v hv hstart
    obtain hv | hv := List.mem_append.mp hv
    · exact hi.apart v hv hstart
    · exact (hnew.mp hv).2 (List.mem_append_left _ hstart)
  case near =>
    intro v hv
    obtain ⟨n, hn⟩ := hi.near h hh
    exact ⟨n + 1, hspan hv hn⟩
  case explored =>
    intro w hw v hvw
    refine hmem.mpr ?_
    rcases List.mem_append.mp hw with hw | hw
    · exact .inl (hi.explored w hw v hvw)
    · obtain rfl := List.mem_singleton.mp hw
      exact (Decidable.em _).imp_right fun hv ↦ hnew.mpr ⟨hvw, hv⟩
  case ordered => exact hordered
  case span =>
    -- What is next now was met after `h`, and so it is no nearer.
    intro j hj v hv n hn
    rw [hmet] at hordered
    exact hspan hv (rel_of_pairwise_middle hordered (List.mem_of_mem_head? hj) n hn)

/-- Each of the nodes that were found is the source of an edge of its own. -/
theorem length_le (hi : s.Searching start done queue found) : found.length ≤ s.edges.size := by
  have hsub : found ⊆ s.edges.toList.map Edge.source := by
    intro v hv
    obtain ⟨n, hn⟩ := hi.near v (List.mem_append_right _ hv)
    obtain hmem | ⟨m, w, -, ⟨e, he, hev, -⟩, -⟩ := hn.cases
    · exact absurd hmem (hi.apart v hv)
    · exact List.mem_map.mpr ⟨e, Array.mem_toList_iff.mpr he, hev⟩
  have hle := (List.subperm_of_subset hi.once hsub).length_le
  rwa [List.length_map, Array.length_toList] at hle

/-- A bound that leaves room for all that waits and all that may still be found is never felt. -/
theorem ends (hs : s.Linked) (hi : s.Searching start done queue found) {fuel : ℕ}
    (hfuel : queue.length + s.edges.size < fuel + found.length) :
    s.Ends start queue found (s.search start fuel queue found) := by
  induction fuel generalizing done queue found with
  | zero =>
    have hle := hi.length_le
    omega
  | succ fuel ih =>
    cases queue with
    | nil => exact .done found
    | cons h queue =>
      refine .next (ih (hi.next hs) ?_)
      simp only [List.length_cons, List.length_append] at hfuel ⊢
      omega

theorem of_ends (hs : s.Linked) (hi : s.Searching start done queue found)
    (h : s.Ends start queue found result) : ∃ done, s.Searching start done [] result := by
  induction h generalizing done with
  | done found => exact ⟨done, hi⟩
  | next _ ih => exact ih (hi.next hs)

theorem mem_found_iff (hs : s.Linked) (hi : s.Searching start done [] found) :
    v ∈ found ↔ s.Upstream start v := by
  constructor
  · intro hv
    have hstart := hi.apart v hv
    obtain ⟨n, hn⟩ := hi.near v (List.mem_append_right _ hv)
    obtain ⟨k, hk, -⟩ := (hs.near_iff hstart).mp hn
    exact ⟨hstart, k, hk⟩
  · rintro ⟨hstart, n, hn⟩
    have hnear := (hs.near_iff hstart).mpr ⟨n, hn, le_rfl⟩
    have hmem := hi.mem_done (fun _ hh ↦ absurd hh List.not_mem_nil) hnear
    rw [← List.append_nil done, ← hi.met] at hmem
    exact (List.mem_append.mp hmem).resolve_left hstart

end Searching

open scoped Classical in
/-- The search ends, and it returns the nodes upstream of `start`, each of them once and the nearest
first. Those upstream of the selection are disabled, and no other node changes. -/
theorem ancestors_nearest_first [Arith α] {metrics : NodeMetrics α} (hs : s.Reachable metrics)
    (start : List Nat) :
    (∀ result, s.Ends start start [] result ↔ result = s.ancestors start) ∧
      (s.ancestors start).Nodup ∧
      (∀ v, v ∈ s.ancestors start ↔ s.Upstream start v) ∧
      (s.ancestors start).Pairwise (fun v w ↦ s.distance start v ≤ s.distance start w) ∧
      ∀ v : Nat, s.disableAncestors.nodes[v]? = s.nodes[v]?.map fun n ↦
        { n with enabled := n.enabled && !decide (s.Upstream s.selection v) } := by
  have hl := hs.sound.linked
  have hends (start : List Nat) : s.Ends start start [] (s.ancestors start) :=
    (Searching.init s start).ends hl (by simp only [List.length_nil]; omega)
  have hfound (start : List Nat) : ∃ done, s.Searching start done [] (s.ancestors start) :=
    (Searching.init s start).of_ends hl (hends start)
  have hmem (start : List Nat) (v : Nat) : v ∈ s.ancestors start ↔ s.Upstream start v :=
    (hfound start).elim fun _ hi ↦ hi.mem_found_iff hl
  obtain ⟨done, hi⟩ := hfound start
  refine ⟨fun result ↦ ⟨fun h ↦ h.unique (hends start), fun h ↦ h ▸ hends start⟩, hi.once,
    hmem start, ?_, fun v ↦ ?_⟩
  · refine (List.pairwise_append.mp hi.ordered).2.1.imp_of_mem fun {v w} hv hw hvw ↦ ?_
    exact hl.distance_le hvw (hi.apart v hv) ((hmem start w).mp hw)
  · rw [disableAncestors, nodes_setEnabledHandles, getElem?_foldl_setEnabledAt]
    refine congrArg (s.nodes[v]?.map ·) (funext fun n ↦ ?_)
    simp only [hmem]
    by_cases hv : s.Upstream s.selection v
    · simp only [hv, if_true, decide_true, Bool.not_true, Bool.and_false]
    · simp only [hv, if_false, decide_false, Bool.not_false, Bool.and_true]

def knot : List (SceneEdit Float) := [
  .addNode "a" "A" ⟨0.0, 0.0⟩ "ready", .addNode "b" "B" ⟨200.0, 0.0⟩ "ready",
  .addNode "c" "C" ⟨0.0, 200.0⟩ "ready", .addEdge "a" "b" "ready", .addEdge "a" "b" "failed",
  .addEdge "b" "a" "ready", .addEdge "c" "a" "ready", .addEdge "c" "c" "ready", .select "b"]

theorem ancestors_nearest_first_knot :
    (run .standard knot).ancestors [1, 1, 7] = [0, 2] ∧
      (∀ v, v ∈ [0, 2] ↔ (run .standard knot).Upstream [1, 1, 7] v) ∧
      (run .standard knot).distance [1, 1, 7] 0 ≤ (run .standard knot).distance [1, 1, 7] 2 := by
  have hknot : (run .standard knot).ancestors [1, 1, 7] = [0, 2] := by
    simp [run, knot, edit, perform, addNode, addEdge, endpoint, handle?, record, empty, bind,
      Except.bind, pure, Except.pure, ancestors, search, fresh, parents, Edge.create, Node.create,
      select, require, deselect, setFlag, modifyNode, selectedId?, Std.HashMap.getElem_insert]
  obtain ⟨-, -, hmem, hordered, -⟩ :=
    ancestors_nearest_first (s := run .standard knot) ⟨knot, 0, rfl⟩ [1, 1, 7]
  rw [hknot] at hmem hordered
  exact ⟨hknot, hmem, (List.pairwise_cons.mp hordered).1 2 (List.mem_singleton_self 2)⟩

end Scene

end Diagram
