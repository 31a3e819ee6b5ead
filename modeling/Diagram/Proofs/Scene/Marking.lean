import Diagram.Proofs.Failing
import Diagram.Scene.Edit

namespace Diagram

variable {α β γ : Type}

theorem map_modify (f : β → γ) (g : β → β) (hg : ∀ x, f (g x) = f x) (xs : Array β) (i : Nat) :
    (xs.modify i g).map f = xs.map f := by
  apply Array.ext_getElem?
  intro j
  rw [Array.getElem?_map, Array.getElem?_map, Array.getElem?_modify]
  split
  · cases xs[j]? with
    | none => rfl
    | some x => exact congrArg some (hg x)
  · rfl

theorem getElem?_foldl_modify (f : β → β) (hf : ∀ x, f (f x) = f x) (ks : List Nat) (xs : Array β)
    (j : Nat) :
    (ks.foldl (fun xs k ↦ xs.modify k f) xs)[j]? = if j ∈ ks then xs[j]?.map f else xs[j]? := by
  induction ks generalizing xs with
  | nil => rfl
  | cons k ks ih =>
    rw [List.foldl_cons, ih, Array.getElem?_modify]
    by_cases hj : k = j
    · subst hj
      by_cases hk : k ∈ ks
      · simp [hk, Function.comp_def, hf]
      · simp [hk]
    · have hj' : j ≠ k := fun h ↦ hj h.symm
      simp [hj, hj']

def Node.bare (n : Node α) : Node α := { n with status := "", enabled := true, selected := false }

namespace Scene

/-- A scene without its marks, its selection and its log. -/
def bare (s : Scene α) : Scene α :=
  { s with nodes := s.nodes.map Node.bare, selection := [], log := .empty }

variable {s s' : Scene α}

theorem bare_modifyNode (s : Scene α) (h : Nat) (f : Node α → Node α)
    (hf : ∀ n, (f n).bare = n.bare) : (s.modifyNode h f).bare = s.bare := by
  simp only [bare, modifyNode, map_modify Node.bare f hf]

section View

variable (v : Scene α → γ)

theorem view_foldl (f : Scene α → β → Scene α) (hf : ∀ s x, v (f s x) = v s) (xs : List β)
    (s : Scene α) : v (xs.foldl f s) = v s :=
  List.foldlRecOn (motive := fun t ↦ v t = v s) xs f rfl fun t ht x _ ↦ (hf t x).trans ht

variable (hr : ∀ s e, v (record s e) = v s)

theorem view_foldl_setEnabledAt (enabled : Bool)
    (hv : ∀ s h, v (modifyNode s h fun n ↦ { n with enabled }) = v s)
    (handles : List Nat) (state : Scene α × List String) :
    v (handles.foldl (setEnabledAt enabled) state).1 = v state.1 := by
  refine List.foldlRecOn (motive := fun t ↦ v t.1 = v state.1) handles (setEnabledAt enabled) rfl
    fun t ht h _ ↦ ?_
  unfold setEnabledAt
  split
  · split
    · exact ht
    · exact (hv t.1 h).trans ht
  · exact ht

include hr

theorem view_setEnabledHandles (enabled : Bool)
    (hv : ∀ s h, v (modifyNode s h fun n ↦ { n with enabled }) = v s) (s : Scene α)
    (handles : List Nat) : v (s.setEnabledHandles handles enabled) = v s := by
  have hf := view_foldl_setEnabledAt v enabled hv handles (s, [])
  simp only [setEnabledHandles]
  split
  · exact hf
  · exact (hr _ _).trans hf

theorem view_setStatus (status : String)
    (hv : ∀ s h, v (modifyNode s h fun n ↦ { n with status }) = v s) (s : Scene α) :
    v (s.setStatus status) = v s := by
  unfold setStatus
  split
  · rfl
  · exact (hr _ _).trans (view_foldl v _ hv s.selection s)

end View

theorem bare_setFlag (s : Scene α) (h : Nat) (selected : Bool) :
    (s.setFlag h selected).bare = s.bare :=
  bare_modifyNode s h (fun n ↦ { n with selected }) fun _ ↦ rfl

theorem bare_deselect (s : Scene α) : s.deselect.bare = s.bare :=
  view_foldl bare (fun s h ↦ s.setFlag h false) (fun s h ↦ bare_setFlag s h false) s.selection s

theorem bare_clearSelection (s : Scene α) : s.clearSelection.bare = s.bare := by
  unfold clearSelection
  split
  · rfl
  · exact bare_deselect s

theorem bare_setEnabledHandles (s : Scene α) (handles : List Nat) (enabled : Bool) :
    (s.setEnabledHandles handles enabled).bare = s.bare :=
  view_setEnabledHandles bare (fun _ _ ↦ rfl) enabled
    (fun s h ↦ bare_modifyNode s h _ fun _ ↦ rfl) s handles

theorem bare_setStatus (s : Scene α) (status : String) : (s.setStatus status).bare = s.bare :=
  view_setStatus bare (fun _ _ ↦ rfl) status (fun s h ↦ bare_modifyNode s h _ fun _ ↦ rfl) s

theorem require_ok {id : String} {h : Nat} (hr : s.require id = .ok h) : s.handle? id = some h := by
  unfold require at hr
  cases hh : s.handle? id with
  | none => simp [hh] at hr
  | some j => simpa [hh] using hr

theorem select_ok {id : String} (hr : s.select id = .ok s') :
    ∃ h, s.handle? id = some h ∧
      s' = { s.deselect.setFlag h true with
        selection := [h]
        log := s.log.push (.selectionChanged s.selectedId? (some id)) } := by
  obtain ⟨h, hh, hr⟩ := bind_ok hr
  have hl : s.deselect.log = s.log :=
    view_foldl log (fun s h ↦ s.setFlag h false) (fun _ _ ↦ rfl) s.selection s
  cases hr
  exact ⟨h, require_ok hh, by simp only [record, setFlag, modifyNode, hl]⟩

theorem bare_select {id : String} (hr : s.select id = .ok s') : s'.bare = s.bare := by
  obtain ⟨h, -, rfl⟩ := select_ok hr
  exact (bare_setFlag s.deselect h true).trans (bare_deselect s)

variable [Arith α]

/-- What an edit can do to a scene. A failed one does nothing. -/
inductive Change : Scene α → Scene α → Prop
  | nothing (s : Scene α) : Change s s
  | addNode {s s' : Scene α} {h : Nat} {id label : String} {p : Point α} {status : String}
      (hr : s.addNode id label p status = .ok (h, s')) : Change s s'
  | addEdge {s s' : Scene α} {k : Nat} {source target status : String}
      (hr : s.addEdge source target status = .ok (k, s')) : Change s s'
  | move (s : Scene α) (handles : List Nat) (d : Offset α) :
      Change s (handles.foldl (fun s h ↦ s.moveHandle h d) s)
  | select {s s' : Scene α} {id : String} (hr : s.select id = .ok s') : Change s s'
  | clearSelection (s : Scene α) : Change s s.clearSelection
  | setEnabled (s : Scene α) (handles : List Nat) (enabled : Bool) :
      Change s (s.setEnabledHandles handles enabled)
  | setStatus (s : Scene α) (status : String) : Change s (s.setStatus status)

theorem edit_change (s : Scene α) (e : SceneEdit α) : e = .drain ∨ Change s (s.edit e) := by
  cases e with
  | drain => exact .inl rfl
  | addNode id label p status =>
    right
    cases hr : s.addNode id label p status with
    | error _ => simpa [edit, perform, hr, bind, Except.bind] using .nothing s
    | ok r => simpa [edit, perform, hr, bind, Except.bind, pure, Except.pure] using .addNode hr
  | addEdge source target status =>
    right
    cases hr : s.addEdge source target status with
    | error _ => simpa [edit, perform, hr, bind, Except.bind] using .nothing s
    | ok r => simpa [edit, perform, hr, bind, Except.bind, pure, Except.pure] using .addEdge hr
  | moveNode id d =>
    right
    cases hr : s.require id with
    | error _ => simpa [edit, perform, moveNode, hr, bind, Except.bind] using .nothing s
    | ok h =>
      simpa [edit, perform, moveNode, hr, bind, Except.bind, pure, Except.pure] using .move s [h] d
  | moveSelected d => exact .inr (.move s s.selection d)
  | select id =>
    right
    cases hr : s.select id with
    | error _ => simpa [edit, perform, hr, bind, Except.bind] using .nothing s
    | ok r => simpa [edit, perform, hr, bind, Except.bind, pure, Except.pure] using .select hr
  | clearSelection => exact .inr (.clearSelection s)
  | setEnabled ids enabled => exact .inr (.setEnabled s _ enabled)
  | setSelectionEnabled enabled => exact .inr (.setEnabled s _ enabled)
  | enableAll => exact .inr (.setEnabled s _ true)
  | disableAncestors => exact .inr (.setEnabled s _ false)
  | setStatus status => exact .inr (.setStatus s status)

/-- An edit adds a node or an edge, moves nodes, or touches no more than marks, selection and log. -/
theorem edit_induct {P : Scene α → Prop}
    (marked : ∀ {s s' : Scene α}, s'.bare = s.bare → P s → P s')
    (moved : ∀ {s : Scene α} (h : Nat) (d : Offset α), P s → P (s.moveHandle h d))
    (grown : ∀ {s s' : Scene α} {h : Nat} {id label : String} {p : Point α} {status : String},
      s.addNode id label p status = .ok (h, s') → P s → P s')
    (joined : ∀ {s s' : Scene α} {k : Nat} {source target status : String},
      s.addEdge source target status = .ok (k, s') → P s → P s')
    (e : SceneEdit α) (hs : P s) : P (s.edit e) := by
  rcases edit_change s e with rfl | hc
  · exact marked (show s.drain.2.bare = s.bare from rfl) hs
  · generalize s.edit e = t at hc ⊢
    cases hc with
    | nothing => exact hs
    | addNode hr => exact grown hr hs
    | addEdge hr => exact joined hr hs
    | move handles d =>
      exact List.foldlRecOn handles (fun s h ↦ s.moveHandle h d) hs fun _ ht h _ ↦ moved h d ht
    | select hr => exact marked (bare_select hr) hs
    | clearSelection => exact marked (bare_clearSelection s) hs
    | setEnabled handles enabled => exact marked (bare_setEnabledHandles s handles enabled) hs
    | setStatus status => exact marked (bare_setStatus s status) hs

/-- What the empty scene has and every edit keeps, every scene has. -/
theorem run_induct {P : Scene α → Prop} {metrics : NodeMetrics α} {readings : Nat}
    (start : P (.empty metrics readings))
    (step : ∀ (s : Scene α) (e : SceneEdit α), P s → P (s.edit e)) (edits : List (SceneEdit α)) :
    P (run metrics edits readings) :=
  List.foldlRecOn edits edit start fun s hs e _ ↦ step s e hs

theorem edit_addNode {h : Nat} {id label : String} {p : Point α} {status : String}
    (hr : s.addNode id label p status = .ok (h, s')) : s.edit (.addNode id label p status) = s' := by
  simp [edit, perform, hr, bind, Except.bind, pure, Except.pure]

theorem edit_addEdge {k : Nat} {source target status : String}
    (hr : s.addEdge source target status = .ok (k, s')) :
    s.edit (.addEdge source target status) = s' := by
  simp [edit, perform, hr, bind, Except.bind, pure, Except.pure]

theorem edit_select {id : String} (hr : s.select id = .ok s') : s.edit (.select id) = s' := by
  simp [edit, perform, hr, bind, Except.bind, pure, Except.pure]

def Reachable (metrics : NodeMetrics α) (s : Scene α) : Prop :=
  ∃ edits readings, run metrics edits readings = s

theorem reachable_empty (metrics : NodeMetrics α) (readings : Nat) :
    (empty metrics readings).Reachable metrics := ⟨[], readings, rfl⟩

variable {metrics : NodeMetrics α}

theorem Reachable.edit (hs : s.Reachable metrics) (e : SceneEdit α) :
    (s.edit e).Reachable metrics := by
  obtain ⟨edits, readings, rfl⟩ := hs
  exact ⟨edits ++ [e], readings, by rw [run, List.foldl_append, ← run]; rfl⟩

theorem Reachable.addNode {h : Nat} {id label : String} {p : Point α} {status : String}
    (hr : s.addNode id label p status = .ok (h, s')) (hs : s.Reachable metrics) :
    s'.Reachable metrics := edit_addNode hr ▸ hs.edit _

theorem Reachable.addEdge {k : Nat} {source target status : String}
    (hr : s.addEdge source target status = .ok (k, s')) (hs : s.Reachable metrics) :
    s'.Reachable metrics := edit_addEdge hr ▸ hs.edit _

end Scene

end Diagram
