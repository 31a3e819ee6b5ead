import Diagram.Engine.Display
import Diagram.Proofs.Engine.Pointing
import Diagram.Proofs.Engine.Runs
import Mathlib.Data.List.Induction

namespace Diagram

variable {α : Type}

namespace Display

theorem slot_setSlot (d : Display α) (n m : Nat) (s : Slot α) :
    (d.setSlot n s).slot m = if n = m then s else d.slot m := by
  simp only [slot, setSlot, Std.HashMap.getD_insert, beq_iff_eq]

/-- Only the current slot is attached, and only there can a frame be. -/
structure Held (d : Display α) : Prop where
  other : ∀ n, d.current ≠ some n → d.slot n = .detached
  own : ∀ n, d.current = some n → (d.slot n).attached = true

variable {d d' : Display α}

theorem Held.detach_slot (h : d.Held) (n : Nat) : d.detach.slot n = .detached := by
  unfold detach
  split
  · next m hm =>
    change (d.setSlot m .detached).slot n = _
    rw [slot_setSlot]
    split
    · rfl
    · next hn => exact h.other n fun hc ↦ hn (Option.some.inj (hm.symm.trans hc))
  · next hc => exact h.other n (hc ▸ nofun)

theorem current_detach (d : Display α) : d.detach.current = none := by
  unfold detach
  split
  · rfl
  · next hc => exact hc

end Display

variable [Arith α]

namespace Engine

variable {e : Engine α} {i : EngineInput α} {o : Outcome α}

theorem render_point {pointer : Pointer α} (h : pointer.editMode = e.pointer.editMode) :
    { e with pointer }.render = e.render := by
  simp only [render, h]

theorem editMode_pointerAfter (hi : i.setsMode = false) :
    (e.pointerAfter i).editMode = e.pointer.editMode := by
  cases i with
  | load graph =>
    simp only [pointerAfter]
    split <;> rfl
  | enterNode id =>
    simp only [pointerAfter]
    split <;> rfl
  | leaveNode id => rw [pointerAfter, Pointer.leave_eq]
  | move screen =>
    obtain ⟨gesture, last, hm⟩ := e.pointer.move_snd screen
    rw [pointerAfter, hm]
  | release => rw [pointerAfter, Pointer.release_snd]
  | setEditMode _ | toggleEditMode => cases hi
  | _ => rfl

theorem setsMode_of_idles (h : e.Idles i) : i.setsMode = false := by
  cases i with
  | setEditMode _ | toggleEditMode => exact h.elim
  | _ => rfl

theorem render_unseen (h : e.step? i = some o) (hr : o.redraws = false) :
    o.engine.render = e.render := by
  obtain ⟨m, hm, heq⟩ := step_leads h
  rw [hr] at hm
  rw [heq]
  -- Neither the area nor where the handle was grabbed or the log is on the screen.
  cases hm with
  | idle hi => exact render_point (editMode_pointerAfter (setsMode_of_idles hi))
  | resize width height =>
    exact render_point (e := { e with area := ⟨width, height⟩ }) (editMode_pointerAfter rfl)
  | grab screen =>
    exact render_point (e := { e with slider := e.slider.grab })
      (editMode_pointerAfter (i := .grabSlider screen) rfl)
  | drain =>
    exact render_point (e := { e with scene := e.scene.edit .drain })
      (editMode_pointerAfter (i := .drain) rfl)

end Engine

namespace Display

/-- A frame shows the engine as it is. -/
structure Fresh (d : Display α) : Prop extends d.Held where
  frame_eq : ∀ n f, (d.slot n).frame = some f → f = d.engine.render

variable {d d' : Display α}

theorem fresh_unattached (e : Engine α) : (unattached e).Fresh := by
  have hs (n : Nat) : (unattached e).slot n = .detached := Std.HashMap.getD_empty
  refine ⟨⟨fun n _ ↦ hs n, nofun⟩, fun n f hf ↦ ?_⟩
  rw [hs n] at hf
  cases hf

theorem Held.detach (h : d.Held) : d.detach.Fresh := by
  refine ⟨⟨fun n _ ↦ h.detach_slot n, fun n hn ↦ ?_⟩, fun n f hf ↦ ?_⟩
  · rw [current_detach] at hn
    cases hn
  · rw [h.detach_slot n] at hf
    cases hf

theorem fresh_present (h : ∀ n, d.current ≠ some n → d.slot n = .detached) : d.present.Fresh := by
  unfold present
  split
  · next m hm =>
    have hs (n : Nat) := d.slot_setSlot m n ⟨true, some d.engine.render⟩
    refine ⟨⟨fun n hn ↦ ?_, fun n hn ↦ ?_⟩, fun n f hf ↦ ?_⟩
    · have hne : m ≠ n := fun hmn ↦ hn (hmn ▸ hm)
      rw [hs, if_neg hne]
      exact h n hn
    · have hmn : m = n := Option.some.inj (hm.symm.trans hn)
      rw [hs, if_pos hmn]
    · rw [hs] at hf
      split at hf
      · cases hf
        rfl
      · next hne =>
        rw [h n fun hc ↦ hne (Option.some.inj (hm.symm.trans hc))] at hf
        cases hf
  · next hc =>
    refine ⟨⟨h, fun n hn ↦ ?_⟩, fun n f hf ↦ ?_⟩
    · rw [hc] at hn
      cases hn
    · rw [h n (hc ▸ nofun)] at hf
      cases hf

theorem Held.attach (h : d.Held) (n : Nat) : (d.attach n).Fresh :=
  fresh_present fun m _ ↦ h.detach_slot m

theorem Fresh.take (h : d.Fresh) (n : Nat) : (d.take n).2.Fresh := by
  have hs (m : Nat) := d.slot_setSlot n m { d.slot n with frame := none }
  refine ⟨⟨fun m hm ↦ ?_, fun m hm ↦ ?_⟩, fun m f hf ↦ ?_⟩
  · change (d.setSlot n _).slot m = _
    rw [hs]
    split
    · next hn =>
      subst hn
      rw [h.other n hm]
      rfl
    · exact h.other m hm
  · change ((d.setSlot n _).slot m).attached = true
    rw [hs]
    split
    · next hn =>
      subst hn
      exact h.own n hm
    · exact h.own m hm
  · change ((d.setSlot n _).slot m).frame = some f at hf
    rw [hs] at hf
    split at hf
    · cases hf
    · exact h.frame_eq m f hf

theorem next_engine {i : EngineInput α} (h : d.next? (.engine i) = some d') :
    ∃ o, d.engine.step? i = some o ∧
      d' = if o.redraws then { d with engine := o.engine }.present
        else { d with engine := o.engine } := by
  simp only [next?, step?, Option.map_eq_map, Option.map_eq_some_iff, Option.bind_eq_bind,
    Option.bind_eq_some_iff] at h
  obtain ⟨_, ⟨o, ho, hr⟩, rfl⟩ := h
  cases hr
  exact ⟨o, ho, rfl⟩

theorem Fresh.next (h : d.Fresh) {i : DisplayInput α} (hi : d.next? i = some d') : d'.Fresh := by
  cases i with
  | engine i =>
    obtain ⟨o, ho, rfl⟩ := next_engine hi
    cases hr : o.redraws with
    | true => exact fresh_present h.other
    | false => exact ⟨⟨h.other, h.own⟩, fun n f hf ↦
        (h.frame_eq n f hf).trans (Engine.render_unseen ho hr).symm⟩
  | attach n =>
    cases hi
    exact h.attach n
  | detach =>
    cases hi
    exact h.toHeld.detach
  | take n =>
    cases hi
    exact h.take n

theorem Fresh.run (h : d.Fresh) {inputs : List (DisplayInput α)} (hr : d.run? inputs = some d') :
    d'.Fresh := by
  induction inputs using List.reverseRecOn generalizing d' with
  | nil =>
    cases hr
    exact h
  | append_singleton inputs i ih =>
    obtain ⟨m, hm, hi⟩ := foldlM_concat hr
    exact (ih hm).next hi

def presents (d : Display α) : DisplayInput α → Bool
  | .engine i => d.current.isSome && (d.engine.step? i).any Outcome.redraws
  | .attach _ => true
  | .detach | .take _ => false

/-- Inputs lead from one display to another without a frame. -/
inductive Quiet (d : Display α) : List (DisplayInput α) → Display α → Prop
  | nil : Quiet d [] d
  | concat {m d' : Display α} {inputs : List (DisplayInput α)} {i : DisplayInput α} :
      Quiet d inputs m → m.presents i = false → m.next? i = some d' → Quiet d (inputs ++ [i]) d'

/-- What some inputs make of a display ends with the frame of a slot taken, and none drawn since. -/
def Taken (start : Display α) (inputs : List (DisplayInput α)) (d : Display α) (n : Nat) : Prop :=
  ∃ pre post m, inputs = pre ++ .take n :: post ∧ start.run? pre = some m ∧ Quiet (m.take n).2 post d

theorem next_quiet {i : DisplayInput α} (hp : d.presents i = false) (hi : d.next? i = some d')
    {n : Nat} (hn : (d.slot n).frame = none) : (d'.slot n).frame = none := by
  cases i with
  | engine i =>
    obtain ⟨o, ho, rfl⟩ := next_engine hi
    simp only [presents, ho, Option.any_some, Bool.and_eq_false_iff, Option.isSome_eq_false_iff,
      Option.isNone_iff_eq_none] at hp
    split
    · next hr =>
      have hc : d.current = none := hp.resolve_right (by simp [hr])
      simp only [present, hc]
      exact hn
    · exact hn
  | attach _ => cases hp
  | detach =>
    cases hi
    unfold detach
    split
    · next m _ =>
      change ((d.setSlot m _).slot n).frame = none
      rw [slot_setSlot]
      split
      · rfl
      · exact hn
    · exact hn
  | take m =>
    cases hi
    change ((d.setSlot m _).slot n).frame = none
    rw [slot_setSlot]
    split
    · rfl
    · exact hn

theorem Quiet.frame_none {inputs : List (DisplayInput α)} (h : Quiet d inputs d') {n : Nat}
    (hn : (d.slot n).frame = none) : (d'.slot n).frame = none := by
  induction h with
  | nil => exact hn
  | concat _ hp hi ih => exact next_quiet hp hi ih

theorem Taken.frame_none {start : Display α} {inputs : List (DisplayInput α)} {n : Nat}
    (h : Taken start inputs d n) : (d.slot n).frame = none := by
  obtain ⟨pre, post, m, -, -, hq⟩ := h
  refine hq.frame_none ?_
  change ((m.setSlot n _).slot n).frame = none
  rw [slot_setSlot, if_pos rfl]

theorem Taken.concat {start m : Display α} {inputs : List (DisplayInput α)} {i : DisplayInput α}
    {n : Nat} (h : Taken start inputs m n) (hp : m.presents i = false) (hi : m.next? i = some d) :
    Taken start (inputs ++ [i]) d n := by
  obtain ⟨pre, post, k, rfl, hk, hq⟩ := h
  exact ⟨pre, post ++ [i], k, by simp, hk, hq.concat hp hi⟩

theorem slot_present {n : Nat} (hc : d.current = some n) :
    d.present.slot n = ⟨true, some d.engine.render⟩ := by
  simp only [present, hc]
  rw [slot_setSlot, if_pos rfl]

theorem current_present (d : Display α) : d.present.current = d.current := by
  unfold present
  split <;> rfl

theorem frame_of_presents {i : DisplayInput α} (hp : d.presents i = true)
    (hi : d.next? i = some d') {n : Nat} (hc : d'.current = some n) : (d'.slot n).frame ≠ none := by
  cases i with
  | engine i =>
    obtain ⟨o, ho, rfl⟩ := next_engine hi
    simp only [presents, ho, Option.any_some, Bool.and_eq_true] at hp
    rw [if_pos hp.2, current_present] at hc
    rw [if_pos hp.2, slot_present hc]
    nofun
  | attach k =>
    cases hi
    rw [attach, current_present] at hc
    rw [attach, slot_present hc]
    nofun
  | detach => cases hp
  | take _ => cases hp

theorem quiet_before {i : DisplayInput α} (hp : d.presents i = false) (hi : d.next? i = some d')
    {n : Nat} (hne : i ≠ .take n) (hc : d'.current = some n) (hn : (d'.slot n).frame = none) :
    d.current = some n ∧ (d.slot n).frame = none := by
  cases i with
  | engine i =>
    obtain ⟨o, ho, rfl⟩ := next_engine hi
    cases hr : o.redraws with
    | true =>
      rw [if_pos hr, current_present] at hc
      have hc : d.current = some n := hc
      simp [presents, ho, hr, hc] at hp
    | false =>
      simp only [hr, Bool.false_eq_true, ↓reduceIte] at hc hn
      exact ⟨hc, hn⟩
  | attach _ => cases hp
  | detach =>
    cases hi
    rw [current_detach] at hc
    cases hc
  | take k =>
    cases hi
    have hk : k ≠ n := fun hk ↦ hne (congrArg _ hk)
    change ((d.setSlot k _).slot n).frame = none at hn
    rw [slot_setSlot, if_neg hk] at hn
    exact ⟨hc, hn⟩

theorem taken_of_frame_none {e : Engine α} {inputs : List (DisplayInput α)} {n : Nat}
    (h : (unattached e).run? inputs = some d) (hc : d.current = some n)
    (hn : (d.slot n).frame = none) : Taken (unattached e) inputs d n := by
  induction inputs using List.reverseRecOn generalizing d with
  | nil =>
    cases h
    cases hc
  | append_singleton inputs i ih =>
    obtain ⟨m, hm, hi⟩ := foldlM_concat h
    cases hp : m.presents i with
    | true => exact absurd hn (frame_of_presents hp hi hc)
    | false =>
      by_cases hne : i = .take n
      · subst hne
        cases hi
        exact ⟨inputs, [], m, rfl, hm, .nil⟩
      · obtain ⟨hmc, hmn⟩ := quiet_before hp hi hne hc hn
        exact (ih hm hmc hmn).concat hp hi

/-- The one slot that is attached shows the engine as it is, unless its frame was taken after it was
drawn. No other slot shows anything. -/
theorem attached_slot_current {e : Engine α} {inputs : List (DisplayInput α)}
    (h : (unattached e).run? inputs = some d) (n : Nat) :
    ((d.slot n).attached = true ↔ d.current = some n) ∧
      (d.current ≠ some n → (d.slot n).frame = none) ∧
      (∀ f, (d.slot n).frame = some f → f = d.engine.render) ∧
      (d.current = some n → ((d.slot n).frame = none ↔ Taken (unattached e) inputs d n)) := by
  have hf := (fresh_unattached e).run h
  refine ⟨⟨fun ha ↦ ?_, hf.own n⟩, fun hn ↦ ?_, hf.frame_eq n, fun hc ↦ ?_⟩
  · by_contra hn
    rw [hf.other n hn] at ha
    cases ha
  · rw [hf.other n hn]
    rfl
  · exact ⟨taken_of_frame_none h hc, Taken.frame_none⟩

theorem attached_slot_current_taken : ∃ d : Display Float,
    (unattached (.create .standard)).run?
        [.attach 0, .engine .toggleEditMode, .attach 0, .take 0, .engine .leaveSurface] = some d ∧
      (d.slot 0).attached = true ∧ (d.slot 0).frame = none ∧ (d.slot 1).frame = none := by
  have h : (unattached (.create .standard : Engine Float)).run?
      [.attach 0, .engine .toggleEditMode, .attach 0, .take 0, .engine .leaveSurface] = some _ := rfl
  obtain ⟨hattached, -, -, htaken⟩ := attached_slot_current h 0
  obtain ⟨-, hother, -, -⟩ := attached_slot_current h 1
  have hq : Taken (unattached (.create .standard : Engine Float))
      [.attach 0, .engine .toggleEditMode, .attach 0, .take 0, .engine .leaveSurface] _ 0 :=
    ⟨[_, _, _], [_], _, rfl, rfl, .concat .nil rfl rfl⟩
  exact ⟨_, h, hattached.mpr rfl, (htaken rfl).mpr hq, hother nofun⟩

end Display

end Diagram
