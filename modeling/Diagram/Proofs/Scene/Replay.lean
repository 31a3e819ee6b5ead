import Diagram.Proofs.Scene.Selecting
import Mathlib.Data.List.Basic

namespace Diagram

structure NodeOutline where
  id : String
  status : String
  enabled : Bool
  deriving DecidableEq

/-- What someone who only reads the log knows of a scene. -/
structure Outline where
  nodes : List NodeOutline
  edges : List (String × String)
  selected : Option String
  deriving DecidableEq

namespace Outline

def empty : Outline := ⟨[], [], none⟩

def update (o : Outline) (ids : List String) (f : NodeOutline → NodeOutline) : Outline :=
  { o with nodes := o.nodes.map fun n ↦ if n.id ∈ ids then f n else n }

def apply (o : Outline) : Event → Outline
  | .nodeAdded id status => { o with nodes := o.nodes ++ [⟨id, status, true⟩] }
  | .edgeAdded source target => { o with edges := o.edges ++ [(source, target)] }
  | .selectionChanged _ after => { o with selected := after }
  | .enabledChanged ids enabled => o.update ids fun n ↦ { n with enabled }
  | .statusChanged ids status => o.update ids fun n ↦ { n with status }

theorem update_nil (o : Outline) (f : NodeOutline → NodeOutline) : o.update [] f = o := by
  simp [update]

theorem update_append (o : Outline) (ids ids' : List String) (f : NodeOutline → NodeOutline)
    (hid : ∀ n, (f n).id = n.id) (hf : ∀ n, f (f n) = f n) :
    (o.update ids f).update ids' f = o.update (ids ++ ids') f := by
  simp only [update, List.map_map, mk.injEq, and_self, and_true]
  apply List.map_congr_left
  intro n _
  by_cases h : n.id ∈ ids <;> by_cases h' : n.id ∈ ids' <;> simp [h, h', hid, hf]

end Outline

def replay (events : List Event) : Outline := events.foldl Outline.apply .empty

/-- An event that names the node selected before it names it rightly. -/
def Event.Fits (o : Outline) : Event → Prop
  | .selectionChanged before _ => before = o.selected
  | _ => True

/-- Events that fit lead from one outline to another. -/
inductive Reads : Outline → List Event → Outline → Prop
  | nil (o : Outline) : Reads o [] o
  | cons {o o' : Outline} {e : Event} {events : List Event} :
      e.Fits o → Reads (o.apply e) events o' → Reads o (e :: events) o'

theorem Reads.append {o o' o'' : Outline} {events events' : List Event} (h : Reads o events o')
    (h' : Reads o' events' o'') : Reads o (events ++ events') o'' := by
  induction h with
  | nil => exact h'
  | cons hf _ ih => exact .cons hf (ih h')

theorem Reads.foldl_eq {o o' : Outline} {events : List Event} (h : Reads o events o') :
    events.foldl Outline.apply o = o' := by
  induction h with
  | nil => rfl
  | cons _ _ ih => exact ih

theorem Reads.fits {o o' : Outline} {earlier later : List Event} {e : Event}
    (h : Reads o (earlier ++ e :: later) o') : e.Fits (earlier.foldl Outline.apply o) := by
  induction earlier generalizing o with
  | nil =>
    cases h with
    | cons hf _ => exact hf
  | cons _ _ ih =>
    cases h with
    | cons _ h => exact ih h

variable {α : Type}

def Node.outline (n : Node α) : NodeOutline := ⟨n.id, n.status, n.enabled⟩

@[simp]
theorem Node.outline_id (n : Node α) : n.outline.id = n.id := rfl

namespace Scene

def endIds? (s : Scene α) (e : Edge α) : Option (String × String) := do
  return (← s.idOf? e.source, ← s.idOf? e.target)

def joinedIds (s : Scene α) : List (String × String) := s.edges.toList.filterMap s.endIds?

def outline (s : Scene α) : Outline where
  nodes := s.nodes.toList.map Node.outline
  edges := s.joinedIds
  selected := s.selectedId?

/-- The log of the second scene goes on to tell how it came from the first. -/
def Tells (s s' : Scene α) : Prop :=
  s'.log = s.log ∧ s'.outline = s.outline ∨
    ∃ e, s'.log = s.log.push e ∧ s'.outline = s.outline.apply e ∧ e.Fits s.outline

variable {s s' : Scene α}

theorem endIds?_congr {e : Edge α} (hs : s'.idOf? e.source = s.idOf? e.source)
    (ht : s'.idOf? e.target = s.idOf? e.target) : s'.endIds? e = s.endIds? e := by
  simp only [endIds?, hs, ht]

theorem joinedIds_of_shape (h : s'.shape = s.shape) : s'.joinedIds = s.joinedIds := by
  have hj (t : Scene α) : t.joinedIds = (t.edges.map Edge.core).toList.filterMap fun c ↦ do
      return (← t.idOf? c.1, ← t.idOf? c.2.1) := by
    rw [joinedIds, Array.toList_map, List.filterMap_map]
    rfl
  have hm : s'.edges.map Edge.core = s.edges.map Edge.core := congrArg (·.2.2) h
  rw [hj s', hj s, hm]
  simp only [idOf?_of_shape h]

theorem Linked.joinedIds_length (hl : s.Linked) : s.joinedIds.length = s.edges.size := by
  have hsome : ∀ e ∈ s.edges.toList, (s.endIds? e).isSome := by
    intro e he
    have hlt := hl.ends_lt e (Array.mem_toList_iff.mp he)
    simp [endIds?, idOf?, hlt.1, hlt.2]
  rw [joinedIds, List.filterMap_length_eq_length.mpr hsome, Array.length_toList]

theorem selectedId?_of_shape (h : s'.shape = s.shape) (hsel : s'.selection = s.selection) :
    s'.selectedId? = s.selectedId? := by
  simp only [selectedId?, hsel, funext (idOf?_of_shape h)]

theorem outline_of_shape (h : s'.shape = s.shape) (hsel : s'.selection = s.selection)
    (hn : s'.nodes.map Node.outline = s.nodes.map Node.outline) : s'.outline = s.outline := by
  have hl := congrArg Array.toList hn
  simp only [Array.toList_map] at hl
  simp only [outline, hl, joinedIds_of_shape h, selectedId?_of_shape h hsel]

theorem outline_modifyNode (hs : s.Indexed) {h : Nat} {n : Node α} (hn : s.nodes[h]? = some n)
    (f : Node α → Node α) (g : NodeOutline → NodeOutline) (hb : ∀ m, (f m).bare = m.bare)
    (hfg : ∀ m, (f m).outline = g m.outline) :
    (s.modifyNode h f).outline = s.outline.update [n.id] g := by
  have hshape := shape_of_bare (bare_modifyNode s h f hb)
  have hsel : (s.modifyNode h f).selection = s.selection := rfl
  simp only [outline, Outline.update, joinedIds_of_shape hshape, selectedId?_of_shape hshape hsel,
    Outline.mk.injEq, and_true]
  apply List.ext_getElem?
  intro j
  simp only [modifyNode, Array.toList_modify, List.getElem?_map, List.getElem?_modify,
    Array.getElem?_toList]
  cases hj : s.nodes[j]? with
  | none => simp
  | some m =>
    by_cases hhj : h = j
    · subst hhj
      cases hn.symm.trans hj
      simp [hfg]
    · have hid : m.id ≠ n.id := by
        intro hid
        have hh := (hs n.id h).mpr (congrArg _ hn)
        have hh' := (hs n.id j).mpr ((congrArg _ hj).trans (congrArg some hid))
        exact hhj (Option.some.inj (hh.symm.trans hh'))
      simp [hhj, hid]

/-- What is noted while flags are set tells which flags were set. -/
theorem outline_foldl_setEnabledAt (enabled : Bool) (handles : List Nat)
    (state : Scene α × List String) (hs : state.1.Indexed) :
    ∃ ids, (handles.foldl (setEnabledAt enabled) state).2 = state.2 ++ ids ∧
      (handles.foldl (setEnabledAt enabled) state).1.outline =
        state.1.outline.update ids fun n ↦ { n with enabled } := by
  induction handles generalizing state with
  | nil => exact ⟨[], by simp, by simp [Outline.update_nil]⟩
  | cons h handles ih =>
    rw [List.foldl_cons]
    cases hn : state.1.nodes[h]? with
    | none =>
      have hstep : setEnabledAt enabled state h = state := by simp [setEnabledAt, hn]
      rw [hstep]
      exact ih state hs
    | some n =>
      by_cases hflag : n.enabled = enabled
      · have hstep : setEnabledAt enabled state h = state := by simp [setEnabledAt, hn, hflag]
        rw [hstep]
        exact ih state hs
      · have hstep : setEnabledAt enabled state h =
            (state.1.modifyNode h fun n ↦ { n with enabled }, state.2 ++ [n.id]) := by
          simp [setEnabledAt, hn, hflag]
        have hb := bare_modifyNode state.1 h (fun n ↦ { n with enabled }) fun _ ↦ rfl
        obtain ⟨ids, hids, ho⟩ := ih (setEnabledAt enabled state h)
          (by rw [hstep]; exact hs.of_shape (shape_of_bare hb))
        refine ⟨n.id :: ids, ?_, ?_⟩
        · rw [hids, hstep, List.append_assoc, List.singleton_append]
        · rw [ho, hstep, outline_modifyNode hs hn (fun n ↦ { n with enabled })
            (fun n ↦ { n with enabled }) (fun _ ↦ rfl) (fun _ ↦ rfl)]
          exact Outline.update_append _ [n.id] ids _ (fun _ ↦ rfl) fun _ ↦ rfl

theorem tells_setEnabledHandles (hs : s.Indexed) (handles : List Nat) (enabled : Bool) :
    s.Tells (s.setEnabledHandles handles enabled) := by
  obtain ⟨ids, hids, ho⟩ := outline_foldl_setEnabledAt enabled handles (s, []) hs
  have hlog := view_foldl_setEnabledAt log enabled (fun _ _ ↦ rfl) handles (s, [])
  simp only [setEnabledHandles]
  rw [List.nil_append] at hids
  split
  · next hnone =>
    rw [hids, List.isEmpty_iff] at hnone
    subst hnone
    exact .inl ⟨hlog, ho.trans (Outline.update_nil _ _)⟩
  · refine .inr ⟨.enabledChanged ids enabled, ?_, ho, trivial⟩
    rw [← hids, ← hlog]
    rfl

theorem tells_setStatus (hs : s.Sound) (status : String) : s.Tells (s.setStatus status) := by
  unfold setStatus
  have hlen := hs.marked.length_le
  cases hsel : s.selection with
  | nil => exact .inl ⟨rfl, rfl⟩
  | cons h rest =>
    have hrest : rest = [] := by
      rw [hsel, List.length_cons] at hlen
      exact List.length_eq_zero_iff.mp (by omega)
    subst hrest
    have hlt := hs.marked.lt h (hsel ▸ List.mem_singleton_self h)
    have hn := Array.getElem?_eq_getElem hlt
    refine .inr ⟨.statusChanged [s.nodes[h].id] status, ?_, ?_, trivial⟩
    · simp [record, modifyNode, idOf?, hn]
    · exact outline_modifyNode hs.indexed hn _ (fun n ↦ { n with status }) (fun _ ↦ rfl)
        fun _ ↦ rfl

theorem outline_nodes_of_deselect (s : Scene α) :
    s.deselect.nodes.map Node.outline = s.nodes.map Node.outline :=
  view_foldl (fun t ↦ t.nodes.map Node.outline) (fun s h ↦ s.setFlag h false)
    (fun s h ↦ map_modify Node.outline (fun n ↦ { n with selected := false }) (fun _ ↦ rfl) s.nodes h)
    s.selection s

theorem log_deselect (s : Scene α) : s.deselect.log = s.log :=
  view_foldl log (fun s h ↦ s.setFlag h false) (fun _ _ ↦ rfl) s.selection s

theorem tells_select (hs : s.Indexed) {id : String} (hr : s.select id = .ok s') : s.Tells s' := by
  have hshape := shape_of_bare (bare_select hr)
  obtain ⟨h, hh, rfl⟩ := select_ok hr
  refine .inr ⟨.selectionChanged s.selectedId? (some id), rfl, ?_, rfl⟩
  have hn : (s.deselect.setFlag h true).nodes.map Node.outline = s.nodes.map Node.outline :=
    (map_modify Node.outline (fun n ↦ { n with selected := true }) (fun _ ↦ rfl) _ h).trans
      (outline_nodes_of_deselect s)
  have hl := congrArg Array.toList hn
  have hsel := (idOf?_of_shape hshape h).trans ((hs id h).mp hh)
  simp only [Array.toList_map] at hl
  simp only [outline, Outline.apply, Outline.mk.injEq]
  exact ⟨hl, joinedIds_of_shape hshape, hsel⟩

theorem tells_clearSelection (s : Scene α) : s.Tells s.clearSelection := by
  unfold clearSelection
  split
  · exact .inl ⟨rfl, rfl⟩
  · let e := Event.selectionChanged s.selectedId? none
    have hshape : (s.deselect.record e).shape = s.shape := shape_of_bare (bare_deselect s)
    have hl := congrArg Array.toList (outline_nodes_of_deselect s)
    simp only [Array.toList_map] at hl
    refine .inr ⟨e, congrArg (Log.push · e) (log_deselect s), ?_, rfl⟩
    simp only [outline, Outline.apply, e, Outline.mk.injEq]
    exact ⟨hl, joinedIds_of_shape hshape, rfl⟩

variable [Arith α]

theorem tells_addNode (hs : s.Sound) {h : Nat} {id label : String} {p : Point α} {status : String}
    (hr : s.addNode id label p status = .ok (h, s')) : s.Tells s' := by
  obtain ⟨-, -, hs'⟩ := addNode_ok hr
  have hid {j : Nat} (hj : j < s.nodes.size) : s'.idOf? j = s.idOf? j := by
    rw [hs', idOf?, Array.getElem?_push, if_neg (Nat.ne_of_lt hj), idOf?]
  have hedges : s'.joinedIds = s.joinedIds := by
    have he : s'.edges = s.edges := by rw [hs']
    rw [joinedIds, he]
    apply List.filterMap_congr
    intro e he
    have hlt := hs.linked.ends_lt e (Array.mem_toList_iff.mp he)
    exact endIds?_congr (hid hlt.1) (hid hlt.2)
  have hsel : s'.selectedId? = s.selectedId? := by
    have hsel : s'.selection = s.selection := by rw [hs']
    rw [selectedId?, selectedId?, hsel]
    cases hj : s.selection with
    | nil => rfl
    | cons j rest => exact hid (hs.marked.lt j (hj ▸ List.mem_cons_self))
  refine .inr ⟨.nodeAdded id status, by rw [hs'], ?_, trivial⟩
  simp only [outline, Outline.apply, hedges, hsel, Outline.mk.injEq, and_true]
  simp [hs', Node.outline, Node.create]

theorem tells_addEdge (hs : s.Sound) {k : Nat} {source target status : String}
    (hr : s.addEdge source target status = .ok (k, s')) : s.Tells s' := by
  obtain ⟨a, b, n, m, ⟨ha, -⟩, ⟨hb, -⟩, -, hs'⟩ := addEdge_ok hr
  have hid (j : Nat) : s'.idOf? j = s.idOf? j := by
    rw [hs', idOf?, getElem?_joinedNodes, Option.map_map]
    rfl
  have hnew : s'.endIds? (.create a b status n m) = some (source, target) := by
    have hsource := (hid a).trans ((hs.indexed source a).mp ha)
    have htarget := (hid b).trans ((hs.indexed target b).mp hb)
    simp [endIds?, Edge.create, hsource, htarget]
  have hedges : s'.joinedIds = s.joinedIds ++ [(source, target)] := by
    have he : s'.edges = s.edges.push (.create a b status n m) := by rw [hs']
    rw [joinedIds, he, Array.toList_push, List.filterMap_append]
    congr 1
    · exact List.filterMap_congr fun e _ ↦ endIds?_congr (hid e.source) (hid e.target)
    · rw [List.filterMap_cons_some hnew, List.filterMap_nil]
  have hsel : s'.selectedId? = s.selectedId? := by
    rw [selectedId?, selectedId?, funext hid, hs']
  have hn : s'.nodes.toList.map Node.outline = s.nodes.toList.map Node.outline := by
    rw [hs', ← Array.toList_map, ← Array.toList_map]
    exact congrArg Array.toList (map_joinedNodes Node.outline s.nodes a b _ (fun _ _ ↦ rfl)
      fun _ _ ↦ rfl)
  refine .inr ⟨.edgeAdded source target, by rw [hs'], ?_, trivial⟩
  simp only [outline, Outline.apply, hedges, hsel, hn]

theorem tells_move (s : Scene α) (handles : List Nat) (d : Offset α) :
    s.Tells (handles.foldl (fun s h ↦ s.moveHandle h d) s) := by
  have ho (s : Scene α) (h : Nat) : (s.moveHandle h d).outline = s.outline :=
    outline_of_shape (shape_moveHandle s h d) rfl
      (map_modify Node.outline (·.moveBy d) (fun _ ↦ rfl) s.nodes h)
  exact .inl ⟨view_foldl log (fun s h ↦ s.moveHandle h d) (fun _ _ ↦ rfl) handles s,
    view_foldl outline _ ho handles s⟩

theorem Sound.tells (hs : s.Sound) (hc : Change s s') : s.Tells s' := by
  cases hc with
  | nothing => exact .inl ⟨rfl, rfl⟩
  | addNode hr => exact tells_addNode hs hr
  | addEdge hr => exact tells_addEdge hs hr
  | move handles d => exact tells_move s handles d
  | select hr => exact tells_select hs.indexed hr
  | clearSelection => exact tells_clearSelection s
  | setEnabled handles enabled => exact tells_setEnabledHandles hs.indexed handles enabled
  | setStatus status => exact tells_setStatus hs status

def taken (s : Scene α) : SceneEdit α → List Event
  | .drain => s.drain.1.toList.map LoggedEvent.event
  | _ => []

def drained (s : Scene α) : List (SceneEdit α) → List Event
  | [] => []
  | e :: edits => s.taken e ++ drained (s.edit e) edits

def history (metrics : NodeMetrics α) (edits : List (SceneEdit α)) : List Event :=
  drained (.empty metrics) edits ++ (run metrics edits).log.events

theorem Sound.reads_edit (hs : s.Sound) (e : SceneEdit α) {o : Outline}
    (h : Reads o s.log.events s.outline) :
    ∃ o', Reads o (s.taken e) o' ∧ Reads o' (s.edit e).log.events (s.edit e).outline := by
  by_cases he : e = .drain
  · subst he
    exact ⟨s.outline, h, .nil _⟩
  · have htaken : s.taken e = [] := by
      cases e with
      | drain => exact absurd rfl he
      | _ => rfl
    rw [htaken]
    refine ⟨o, .nil o, ?_⟩
    obtain ⟨hlog, ho⟩ | ⟨event, hlog, ho, hf⟩ := hs.tells ((edit_change s e).resolve_left he)
    · rw [hlog, ho]
      exact h
    · rw [hlog, ho, Log.events_push]
      exact h.append (.cons hf (.nil _))

theorem Sound.reads_drained (hs : s.Sound) (edits : List (SceneEdit α)) {o : Outline}
    (h : Reads o s.log.events s.outline) :
    Reads o (s.drained edits ++ (edits.foldl Scene.edit s).log.events)
      (edits.foldl Scene.edit s).outline := by
  induction edits generalizing s o with
  | nil => exact h
  | cons e edits ih =>
    obtain ⟨o', htaken, hrest⟩ := hs.reads_edit e h
    rw [drained, List.append_assoc]
    exact htaken.append (ih (hs.edit e) hrest)

/-- The log, of which parts may have been taken at any time, tells all of nodes, edges and selection,
and an event that the selection changed knows what was selected before. -/
theorem replay_history (metrics : NodeMetrics α) (edits : List (SceneEdit α)) :
    replay (history metrics edits) = (run metrics edits).outline ∧
      (run metrics edits).outline.edges.length = (run metrics edits).edges.size ∧
      ∀ earlier before after later,
        history metrics edits = earlier ++ .selectionChanged before after :: later →
          before = (replay earlier).selected := by
  have hreads : Reads .empty (history metrics edits) (run metrics edits).outline :=
    (sound_empty metrics 0).reads_drained edits (.nil _)
  refine ⟨hreads.foldl_eq, (sound_run metrics edits).linked.joinedIds_length, ?_⟩
  intro earlier before after later hsplit
  rw [hsplit] at hreads
  exact hreads.fits

end Scene

end Diagram
