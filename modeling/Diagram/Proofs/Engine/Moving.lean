import Diagram.Proofs.Engine.Loading
import Diagram.Proofs.Engine.Pointing
import Diagram.Proofs.Engine.Runs

namespace Diagram

variable {α : Type}

def Gesture.carries : Gesture α → Bool
  | pressed .moveSelection _ => true
  | draggingNode => true
  | _ => false

namespace Scene

def positions (s : Scene α) : Array (Point α) := s.nodes.map Node.position

variable {s s' : Scene α}

theorem positions_of_bare (h : s'.bare = s.bare) : s'.positions = s.positions := by
  have hc (t : Scene α) : t.bare.positions = t.positions := by
    simp only [positions, bare, Array.map_map]
    rfl
  rw [← hc s', h, hc s]

variable [Arith α]

theorem bare_edit_select (s : Scene α) (id : String) : (s.edit (.select id)).bare = s.bare := by
  cases hs : s.select id with
  | error err =>
    simp only [edit, perform, hs]
    rfl
  | ok m => exact edit_select hs ▸ bare_select hs

theorem positions_moveHandle (s : Scene α) (d : Offset α) {h j : Nat} (hj : j ≠ h) :
    (s.moveHandle h d).positions[j]? = s.positions[j]? := by
  simp only [positions, moveHandle, Array.getElem?_map, Array.getElem?_modify, if_neg hj.symm]

theorem Marked.positions_moveSelected (hs : s.Marked) {d : Offset α}
    (hm : (s.moveSelected d).positions ≠ s.positions) :
    ∃ (h : Nat) (n : Node α), s.nodes[h]? = some n ∧ s.selectedId? = some n.id ∧
      ∀ j, j ≠ h → (s.moveSelected d).positions[j]? = s.positions[j]? := by
  obtain hsel | ⟨h, n, hsel, hn, hid⟩ := hs.selection_cases
  · refine absurd ?_ hm
    rw [moveSelected, hsel, List.foldl_nil]
  · refine ⟨h, n, hn, hid, fun j hj ↦ ?_⟩
    rw [moveSelected, hsel, List.foldl_cons, List.foldl_nil, positions_moveHandle s d hj]

end Scene

theorem EngineInput.bare_edit [Arith α] {i : EngineInput α} {x : SceneEdit α} (hx : i.edit? = some x)
    (s : Scene α) : (s.edit x).bare = s.bare := by
  cases i with
  | clearSelection =>
    cases hx
    exact s.bare_clearSelection
  | setStatus status =>
    cases hx
    exact s.bare_setStatus status
  | setEnabled _ _ | enableSelected | disableSelected | disableAncestors | enableAll =>
    cases hx
    exact s.bare_setEnabledHandles _ _
  | _ => cases hx

namespace Pointer

theorem intent_eq_moveSelection {p : Pointer α} {s : Scene α} (h : p.intent s = .moveSelection) :
    p.editMode = true ∧ ∃ id, p.hovered = some id ∧ s.isSelected id = true := by
  unfold intent at h
  split at h
  · next hp =>
    simp only [Bool.and_eq_true, Option.any_eq_true] at hp
    exact hp
  · cases h

variable [Arith α]

theorem carries_move (p : Pointer α) (here : Point α) :
    (p.move here).2.gesture.carries = p.gesture.carries := by
  unfold move
  cases hg : p.gesture with
  | pressed intent target =>
    dsimp only
    split
    · rw [hg]
    · cases intent <;> rfl
  | _ => rfl

theorem carries_of_drag {p : Pointer α} {here : Point α} {d : Offset α}
    (h : (p.move here).1 = some (.dragSelection d)) : p.gesture.carries = true := by
  unfold move at h
  cases hg : p.gesture with
  | pressed intent target =>
    simp only [hg] at h
    split at h
    · cases h
    · cases intent with
      | pan => cases h
      | moveSelection => rfl
  | draggingNode => rfl
  | _ =>
    simp only [hg] at h
    cases h

end Pointer

namespace Engine

variable [Arith α] {e e' : Engine α} {i : EngineInput α} {inputs : List (EngineInput α)}

/-- Between loads a scene keeps all but its marks, except when the pointer drags nodes. -/
theorem next_bare (hl : ∀ g, i ≠ .load g) (h : e.next? i = some e') :
    e'.scene.bare = e.scene.bare ∨ ∃ p d, i = .move p ∧
      (e.pointer.move p).1 = some (.dragSelection d) ∧
      e'.scene = e.scene.moveSelected ⟨d.x / e.viewport.scale, d.y / e.viewport.scale⟩ := by
  obtain ⟨redraws, m, hm, rfl⟩ := next_leads h
  cases hm with
  | load _ => exact absurd rfl (hl _)
  | drag hm => exact .inr ⟨_, _, rfl, hm, rfl⟩
  | select hs => exact .inl (Scene.bare_select hs)
  | center hs _ => exact .inl (Scene.bare_select hs)
  | click _ => exact .inl (Scene.bare_edit_select e.scene _)
  | edit hx => exact .inl (EngineInput.bare_edit hx e.scene)
  | _ => exact .inl rfl

theorem next_view {γ : Type} (v : Scene α → γ)
    (marked : ∀ {s s' : Scene α}, s'.bare = s.bare → v s' = v s)
    (moved : ∀ (s : Scene α) (d : Offset α), v (s.moveSelected d) = v s)
    (hl : ¬ i.Loads) (h : e.next? i = some e') : v e'.scene = v e.scene := by
  cases i with
  | load g =>
    rw [next_refused e hl] at h
    cases h
    rfl
  | _ =>
    obtain hb | ⟨p, d, -, -, hs⟩ := next_bare (by simp) h
    · exact marked hb
    · exact hs ▸ moved e.scene _

/-- The button was last used to press a selected node in edit mode, and is still down. -/
def HoldsNode (start : Engine α) (inputs : List (EngineInput α)) : Prop :=
  ∃ pre p post down id, inputs = pre ++ .press p :: post ∧ (∀ i ∈ post, i.isButton = false) ∧
    start.run? pre = some down ∧ down.pointer.editMode = true ∧ down.pointer.hovered = some id ∧
    down.scene.isSelected id = true

theorem carries_of_next (hb : i.isButton = false) (h : e.next? i = some e')
    (hc : e'.pointer.gesture.carries = true) : e.pointer.gesture.carries = true := by
  rw [next_pointer h] at hc
  cases i with
  | load g =>
    obtain hidle | hsame := e.gesture_pointerAfter_load g
    · rw [hidle] at hc
      cases hc
    · rwa [hsame] at hc
  | move p => exact e.pointer.carries_move p ▸ hc
  | _ => rwa [gesture_pointerAfter hb (by simp) (by simp)] at hc

theorem HoldsNode.concat {start : Engine α} (h : start.HoldsNode inputs) (hb : i.isButton = false) :
    start.HoldsNode (inputs ++ [i]) := by
  obtain ⟨pre, p, post, down, id, rfl, hpost, hdown⟩ := h
  refine ⟨pre, p, post ++ [i], down, id, by simp, fun x hx ↦ ?_, hdown⟩
  rcases List.mem_append.mp hx with hx | hx
  · exact hpost x hx
  · exact List.mem_singleton.mp hx ▸ hb

theorem run_holdsNode {start : Engine α} (hs : start.pointer.gesture.carries = false)
    (h : start.run? inputs = some e) (hc : e.pointer.gesture.carries = true) :
    start.HoldsNode inputs := by
  -- From the end: the last use of the button decides, and a press is told from the state before it.
  induction inputs using List.reverseRecOn generalizing e with
  | nil =>
    cases h
    exact absurd hc (hs ▸ Bool.false_ne_true)
  | append_singleton inputs i ih =>
    obtain ⟨k, hk, hi⟩ := foldlM_concat h
    cases hb : i.isButton with
    | false => exact (ih hk (carries_of_next hb hi hc)).concat hb
    | true =>
      rw [next_pointer hi] at hc
      cases i with
      | press p =>
        cases hintent : k.pointer.intent k.scene with
        | pan =>
          simp only [pointerAfter, Pointer.press, hintent, Gesture.carries] at hc
          cases hc
        | moveSelection =>
          obtain ⟨hedit, id, hid, hsel⟩ := Pointer.intent_eq_moveSelection hintent
          exact ⟨inputs, p, [], k, id, rfl, by simp, hk, hedit, hid, hsel⟩
      | release =>
        rw [pointerAfter, Pointer.release_snd] at hc
        cases hc
      | grabSlider p => cases hc
      | _ => cases hb

theorem next_positions {start : Engine α} (hs : start.pointer.gesture.carries = false)
    (hr : start.scene.Reachable start.config.metrics) (h : start.run? inputs = some e)
    (hl : ∀ g, i ≠ .load g) (hi : e.next? i = some e')
    (hp : e'.scene.positions ≠ e.scene.positions) :
    (∃ p, i = .move p) ∧ start.HoldsNode inputs ∧
      ∃ (h : Nat) (n : Node α), e.scene.nodes[h]? = some n ∧ e.selectedId? = some n.id ∧
        ∀ j, j ≠ h → e'.scene.positions[j]? = e.scene.positions[j]? := by
  obtain hb | ⟨p, d, rfl, hd, hscene⟩ := next_bare hl hi
  · exact absurd (Scene.positions_of_bare hb) hp
  · have hc := Pointer.carries_of_drag hd
    have hm := (run_reachable h hr).2.sound.marked
    rw [hscene] at hp ⊢
    exact ⟨⟨p, rfl⟩, run_holdsNode hs h hc, hm.positions_moveSelected hp⟩

theorem load_carries {graph : Payload α} (h : e.load graph = .ok e') :
    e'.pointer.gesture.carries = false := by
  obtain ⟨scene, -, h⟩ := bind_ok h
  cases h
  rfl

/-- A node only moves while it is selected and the button is held that was pressed in edit mode on a
selected node. Without such a press all nodes stay where they were loaded. -/
theorem nodes_move_only_dragged {m : Engine α} {graph : Payload α} (hl : m.load graph = .ok e)
    (hn : ∀ g, .load g ∉ inputs) (h : e.run? inputs = some e') :
    (∀ pre i post k k', inputs = pre ++ i :: post → e.run? pre = some k → k.next? i = some k' →
      k'.scene.positions ≠ k.scene.positions →
        (∃ p, i = .move p) ∧ e.HoldsNode pre ∧
          ∃ (h : Nat) (n : Node α), k.scene.nodes[h]? = some n ∧ k.selectedId? = some n.id ∧
            ∀ j, j ≠ h → k'.scene.positions[j]? = k.scene.positions[j]?) ∧
    ((∀ pre p post k, inputs = pre ++ .press p :: post → e.run? pre = some k →
      k.pointer.editMode = false) → e'.scene.positions = e.scene.positions) := by
  have hc := load_carries hl
  have hr := load_reachable hl
  constructor
  · intro pre i post k k' hinputs hk hi hp
    have hload : ∀ g, i ≠ .load g := by
      rintro g rfl
      exact hn g (hinputs ▸ List.mem_append_right pre List.mem_cons_self)
    exact next_positions hc hr hk hload hi hp
  · intro hoff
    induction inputs using List.reverseRecOn generalizing e' with
    | nil =>
      cases h
      rfl
    | append_singleton inputs i ih =>
      obtain ⟨k, hk, hi⟩ := foldlM_concat h
      have hload : ∀ g, i ≠ .load g := by
        rintro g rfl
        exact hn g (List.mem_append_right inputs (List.mem_singleton_self _))
      have hstay : e'.scene.positions = k.scene.positions := by
        by_contra hp
        obtain ⟨-, ⟨pre, p, post, down, id, rfl, -, hdown, hedit, -⟩, -⟩ :=
          next_positions hc hr hk hload hi hp
        have hfalse := hoff pre p (post ++ [i]) down (by simp) hdown
        exact Bool.false_ne_true (hfalse.symm.trans hedit)
      rw [hstay]
      refine ih (fun g hg ↦ hn g (List.mem_append_left _ hg)) hk fun pre p post m hinputs hm ↦ ?_
      exact hoff pre p (post ++ [i]) m (by simp [hinputs]) hm

theorem nodes_move_only_dragged_late : ∃ e e' : Engine Float,
    (create .standard).load ⟨[⟨"a", none, 0.0, 0.0, "ready"⟩], []⟩ = .ok e ∧
      e.run? [.select "a", .enterNode "a", .setEditMode false, .press ⟨0.0, 0.0⟩, .setEditMode true,
        .move ⟨3.0, 4.0⟩] = some e' ∧
      e'.scene.positions = e.scene.positions := by
  obtain ⟨e, he, -⟩ := (create .standard : Engine Float).load_loadable
    (g := ⟨[⟨"a", none, 0.0, 0.0, "ready"⟩], []⟩) ⟨by decide, by decide⟩
  obtain ⟨k, hk, hpressed⟩ : ∃ k, e.run? [.select "a", .enterNode "a", .setEditMode false,
      .press ⟨0.0, 0.0⟩, .setEditMode true] = some k ∧ ∃ x y, k.pointer.gesture = .pressed x y :=
    ⟨_, rfl, _, _, rfl⟩
  obtain ⟨e', hmove⟩ : ∃ e', k.next? (.move ⟨3.0, 4.0⟩) = some e' := by
    rw [← Option.ne_none_iff_exists', ne_eq, next?_eq_none_iff]
    rintro ⟨⟨y, hy⟩, -⟩
    obtain ⟨intent, target, hg⟩ := hpressed
    cases hg.symm.trans hy
  have h : e.run? [.select "a", .enterNode "a", .setEditMode false, .press ⟨0.0, 0.0⟩,
      .setEditMode true, .move ⟨3.0, 4.0⟩] = some e' := by
    have hlast := run?_append_of_run hk [.move ⟨3.0, 4.0⟩]
    rw [run?_cons_of_next hmove] at hlast
    exact hlast
  refine ⟨e, e', he, h, (nodes_move_only_dragged he (by simp) h).2 ?_⟩
  intro pre p post m hinputs hm
  rcases pre with _ | ⟨a, _ | ⟨b, _ | ⟨c, _ | ⟨d, _ | ⟨x, _ | ⟨y, pre⟩⟩⟩⟩⟩⟩ <;> simp at hinputs
  obtain ⟨rfl, rfl, rfl, -⟩ := hinputs
  cases hm
  rfl

end Engine

end Diagram
