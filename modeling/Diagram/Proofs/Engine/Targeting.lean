import Diagram.Proofs.Engine.Moving
import Diagram.Proofs.Engine.Picking

namespace Diagram

variable {α : Type}

def Gesture.target? : Gesture α → Option String
  | .pressed _ target => target
  | _ => none

namespace Scene

def Knows (s : Scene α) (id : String) : Prop := ∃ n ∈ s.nodes, n.id = id

variable {s s' : Scene α} {id : String}

theorem Knows.of_shape (hs : s.Knows id) (h : s'.shape = s.shape) : s'.Knows id := by
  obtain ⟨n, hn, rfl⟩ := hs
  obtain ⟨j, hj⟩ := Array.mem_iff_getElem?.mp hn
  obtain ⟨n', hn', hc⟩ := node_of_shape h.symm hj
  exact ⟨n', Array.mem_of_getElem? hn', congrArg Prod.fst hc⟩

theorem Indexed.handle_of_knows (hs : s.Indexed) (hid : s.Knows id) :
    ∃ h, s.handle? id = some h := by
  obtain ⟨n, hn, rfl⟩ := hid
  exact hs.handle_of_mem (List.mem_map_of_mem (Array.mem_toList_iff.mpr hn))

theorem Indexed.knows_of_handle (hs : s.Indexed) {h : Nat} (hh : s.handle? id = some h) :
    s.Knows id := by
  obtain ⟨n, hn, hid⟩ := hs.node_of_handle hh
  exact ⟨n, Array.mem_of_getElem? hn, hid⟩

variable [Arith α]

theorem Shows.knows {c : Config α} {g : Payload α} (hs : s.Shows c g) (hid : id ∈ g.ids) :
    s.Knows id := by
  rw [← hs.ids_eq] at hid
  obtain ⟨n, hn, hid⟩ := List.mem_map.mp hid
  exact ⟨n, Array.mem_toList_iff.mp hn, hid⟩

theorem shape_moveSelected (s : Scene α) (d : Offset α) : (s.moveSelected d).shape = s.shape :=
  view_foldl shape _ (fun s h ↦ shape_moveHandle s h d) s.selection s

theorem Sound.select_knows (hs : s.Sound) (hid : s.Knows id) :
    (s.edit (.select id)).selectedId? = some id := by
  obtain ⟨n, hn, rfl⟩ := hid
  obtain ⟨s', hr⟩ := hs.select_exists hn
  rw [edit_select hr]
  exact (hs.select_marks hr).1

end Scene

namespace Pointer

variable {p : Pointer α} {id : String}

theorem hovered_leave {left : String} (h : (p.leave left).hovered = some id) :
    p.hovered = some id := by
  unfold leave at h
  split at h
  · cases h
  · exact h

variable [Arith α]

theorem target_move {here : Point α} (h : (p.move here).2.gesture.target? = some id) :
    p.gesture.target? = some id := by
  unfold move at h
  cases hg : p.gesture with
  | pressed intent target =>
    simp only [hg] at h
    split at h
    · rwa [hg] at h
    · cases intent <;> cases h
  | _ =>
    simp only [hg] at h
    cases h

theorem move_still {intent : DragIntent} {target : Option String}
    (hg : p.gesture = .pressed intent target) {here : Point α}
    (hz : (here - p.last).isZero = true) : p.move here = (none, p) := by
  simp only [move, hg, hz, ↓reduceIte]

end Pointer

namespace Engine

variable {e e' : Engine α}

/-- What the pointer is over, and what it was pressed on, are nodes of the scene. -/
structure Live (e : Engine α) : Prop where
  hovered : ∀ id, e.pointer.hovered = some id → e.scene.Knows id
  target : ∀ id, e.pointer.gesture.target? = some id → e.scene.Knows id

variable [Arith α] {i : EngineInput α} {inputs : List (EngineInput α)} {id : String}

theorem nodeAt?_knows {screen : Point α} (h : e.nodeAt? screen = some id) : e.scene.Knows id := by
  obtain ⟨n, hn, rfl⟩ := Option.map_eq_some_iff.mp h
  have hmem := List.mem_of_find?_eq_some hn
  rw [List.mem_reverse, Array.mem_toList_iff] at hmem
  exact ⟨n, hmem, rfl⟩

theorem hovered_pointerAfter (hs : e.scene.Indexed)
    (h : (e.pointerAfter i).hovered = some id) :
    e.pointer.hovered = some id ∨ e.scene.Knows id := by
  cases i with
  | load graph =>
    simp only [pointerAfter] at h
    split at h
    · cases h
    · exact .inl h
  | enterNode entered =>
    simp only [pointerAfter] at h
    split at h
    · next hh =>
      cases h
      obtain ⟨k, hk⟩ := Option.isSome_iff_exists.mp hh
      exact .inr (hs.knows_of_handle hk)
    · exact .inl h
  | leaveNode left => exact .inl (Pointer.hovered_leave h)
  | hover screen => exact .inr (nodeAt?_knows h)
  | move screen =>
    obtain ⟨gesture, last, hm⟩ := e.pointer.move_snd screen
    rw [pointerAfter, hm] at h
    exact .inl h
  | release =>
    rw [pointerAfter, Pointer.release_snd] at h
    exact .inl h
  | _ => exact .inl h

theorem target_pointerAfter (h : (e.pointerAfter i).gesture.target? = some id) :
    e.pointer.gesture.target? = some id ∨ e.pointer.hovered = some id := by
  cases i with
  | load graph =>
    simp only [pointerAfter] at h
    split at h
    · cases h
    · exact .inl h
  | enterNode entered =>
    simp only [pointerAfter] at h
    split at h
    · exact .inl h
    · exact .inl h
  | leaveNode left =>
    rw [pointerAfter, Pointer.leave_eq] at h
    exact .inl h
  | press screen => exact .inr h
  | move screen => exact .inl (Pointer.target_move h)
  | release =>
    rw [pointerAfter, Pointer.release_snd] at h
    cases h
  | grabSlider screen => cases h
  | _ => exact .inl h

theorem Live.next (he : e.Live) (hs : e.scene.Indexed) (h : e.next? i = some e') : e'.Live := by
  by_cases hl : i.Loads
  · -- The scene is another one, of which the pointer remembers nothing yet.
    cases i with
    | load g =>
      have hp : e'.pointer = .resting e.pointer.editMode :=
        (next_pointer h).trans (e.pointerAfter_load hl)
      constructor
      · intro id hid
        rw [hp] at hid
        cases hid
      · intro id hid
        rw [hp] at hid
        cases hid
    | _ => exact hl.elim
  · have hshape := next_view Scene.shape Scene.shape_of_bare Scene.shape_moveSelected hl h
    constructor
    · intro id hid
      rw [next_pointer h] at hid
      rcases hovered_pointerAfter hs hid with hid | hid
      · exact (he.hovered id hid).of_shape hshape
      · exact hid.of_shape hshape
    · intro id hid
      rw [next_pointer h] at hid
      rcases target_pointerAfter hid with hid | hid
      · exact (he.target id hid).of_shape hshape
      · exact (he.hovered id hid).of_shape hshape

theorem next_enterNode (hs : e.scene.Indexed) (hid : e.scene.Knows id) :
    e.next? (.enterNode id) = some { e with pointer := e.pointer.enter id } := by
  obtain ⟨h, hh⟩ := hs.handle_of_knows hid
  simp only [next?, step?, enterNode, hh, Option.isSome_some, ↓reduceIte]
  rfl

theorem live_create (c : Config α) : (create c).Live := ⟨nofun, nofun⟩

theorem run_live {c : Config α} (h : (create c).run? inputs = some e) : e.Live := by
  have hrun : e.Configured c ∧ e.Live := by
    refine run_steps (P := fun m ↦ m.Configured c ∧ m.Live) h
      ⟨configured_create c, live_create c⟩ fun {m m'} i _ hi hm ↦ ?_
    exact ⟨effects_induct (next_effects hi) hm.1 Effect.configured,
      hm.2.next hm.1.reachable.sound.indexed hi⟩
  exact hrun.2

/-- Whether a button that was pressed at a point stays down there. -/
def Stays (p : Point α) : EngineInput α → Prop
  | .load graph => ¬ graph.Loadable
  | .move here => (here - p).isZero = true
  | i => i.isButton = false

theorem pointerAfter_stays {p : Point α} {intent : DragIntent} {target : Option String}
    (hg : e.pointer.gesture = .pressed intent target) (hp : e.pointer.last = p) (hi : Stays p i) :
    (e.pointerAfter i).gesture = .pressed intent target ∧ (e.pointerAfter i).last = p := by
  cases i with
  | load graph => exact e.pointerAfter_refused hi ▸ ⟨hg, hp⟩
  | move here =>
    rw [pointerAfter, Pointer.move_still hg (hp ▸ hi)]
    exact ⟨hg, hp⟩
  | enterNode entered =>
    simp only [pointerAfter]
    split
    · exact ⟨hg, hp⟩
    · exact ⟨hg, hp⟩
  | leaveNode left =>
    simp only [pointerAfter, Pointer.leave]
    split
    · exact ⟨hg, hp⟩
    · exact ⟨hg, hp⟩
  | press _ => cases hi
  | grabSlider _ => cases hi
  | release => cases hi
  | _ => exact ⟨hg, hp⟩

theorem run_stays {p : Point α} (h : e.run? (.press p :: inputs) = some e')
    (hi : ∀ i ∈ inputs, Stays p i) :
    ∃ intent, e'.pointer.gesture = .pressed intent e.pointer.hovered := by
  have hpress : e.next? (.press p) = some { e with pointer := e.pointer.press p e.scene } := rfl
  rw [run?_cons_of_next hpress] at h
  refine ⟨e.pointer.intent e.scene, ?_⟩
  exact (run_steps (P := fun m ↦ m.pointer.gesture =
    .pressed (e.pointer.intent e.scene) e.pointer.hovered ∧ m.pointer.last = p) h ⟨rfl, rfl⟩
    fun {m m'} i him hm hp ↦ next_pointer hm ▸ pointerAfter_stays hp.1 hp.2 (hi i him)).1

/-- The pointer remembers no node that is not there. A press that is released where it was selects
what was hovered when it began, whatever was hovered since. -/
theorem targets_live {c : Config α} (h : (create c).run? inputs = some e) :
    e.Live ∧ ∀ {id : String} {p : Point α} {between : List (EngineInput α)} {down : Engine α},
      e.pointer.hovered = some id → e.run? (.press p :: between) = some down →
        (∀ i ∈ between, Stays p i) →
          ∃ e', down.next? .release = some e' ∧ e'.selectedId? = some id := by
  refine ⟨run_live h, fun {id p between down} hid hdown hstays ↦ ?_⟩
  obtain ⟨intent, hg⟩ := run_stays hdown hstays
  have hrun : (create c).run? (inputs ++ .press p :: between) = some down := by
    rw [run?_append_of_run h, hdown]
  have hknown : down.scene.Knows id := (run_live hrun).target id (by rw [hg]; exact hid)
  rw [hid] at hg
  exact ⟨_, next_release_pressed hg, (run_configured hrun).reachable.sound.select_knows hknown⟩

theorem targets_live_rehovered : ∃ e down e' : Engine ℝ,
    (create .standard).run? [.load stacked, .enterNode "a"] = some e ∧
      e.pointer.hovered = some "a" ∧
      e.run? [.press .origin, .leaveNode "a", .enterNode "b", .move .origin] = some down ∧
      down.pointer.hovered = some "b" ∧ down.next? .release = some e' ∧
      e'.selectedId? = some "a" := by
  obtain ⟨m, hm, hloaded⟩ := (create .standard : Engine ℝ).load_loadable (g := stacked)
    (by decide)
  have hload : (create .standard).next? (.load stacked) = some m := next_load hm
  have hs : m.scene.Indexed := (load_reachable hm).sound.indexed
  have ha : m.scene.Knows "a" := hloaded.shows.knows (by decide)
  have hb : m.scene.Knows "b" := hloaded.shows.knows (by decide)
  let e : Engine ℝ := { m with pointer := m.pointer.enter "a" }
  have h : (create .standard).run? [.load stacked, .enterNode "a"] = some e := by
    rw [run?_cons_of_next hload, run?_cons_of_next (next_enterNode hs ha)]
    rfl
  let pressed : Pointer ℝ := e.pointer.press .origin e.scene
  let left : Engine ℝ := { e with pointer := pressed.leave "a" }
  let down : Engine ℝ := { left with pointer := left.pointer.enter "b" }
  have hstill : down.next? (.move .origin) = some down := next_move_still rfl
  have hdown : e.run? [.press .origin, .leaveNode "a", .enterNode "b", .move .origin] =
      some down := by
    have hpress : e.next? (.press .origin) = some { e with pointer := pressed } := rfl
    have hleave : { e with pointer := pressed }.next? (.leaveNode "a") = some left := rfl
    have henter : left.next? (.enterNode "b") = some down := next_enterNode hs hb
    rw [run?_cons_of_next hpress, run?_cons_of_next hleave, run?_cons_of_next henter,
      run?_cons_of_next hstill]
    rfl
  have hover : e.pointer.hovered = some "a" := rfl
  obtain ⟨e', hrelease, hsel⟩ := (targets_live h).2 hover hdown
    (by simp [Stays, EngineInput.isButton, Point.isZero_sub_iff])
  exact ⟨e, down, e', h, hover, hdown, rfl, hrelease, hsel⟩

end Engine

end Diagram
