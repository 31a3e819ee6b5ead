import Diagram.Proofs.Engine.Mirroring
import Diagram.Proofs.Engine.Pointing
import Mathlib.Data.List.Induction

namespace Diagram

variable {α : Type}

def Gesture.origin? : Gesture α → Option α
  | .draggingSlider y => some y
  | _ => none

theorem Gesture.origin?_eq_some_iff {g : Gesture α} {y : α} :
    g.origin? = some y ↔ g = .draggingSlider y := by
  cases g <;> simp [origin?]

theorem Pointer.origin?_move [Arith α] (p : Pointer α) (here : Point α) :
    (p.move here).2.gesture.origin? = p.gesture.origin? := by
  unfold move
  cases hg : p.gesture with
  | pressed intent target =>
    dsimp only
    split
    · rw [hg]
    · cases intent <;> rfl
  | _ => rfl

namespace Engine

def Sliding (e : Engine α) : Prop := ∃ y, e.pointer.gesture = .draggingSlider y

/-- The slider is held while the pointer drags it, and only then. -/
def Owned (e : Engine α) : Prop := e.slider.grabbed = true ↔ e.Sliding

variable {e e' : Engine α}

theorem sliding_iff : e.Sliding ↔ ∃ y, e.pointer.gesture.origin? = some y := by
  simp only [Sliding, Gesture.origin?_eq_some_iff]

theorem sliding_congr (hg : e'.pointer.gesture.origin? = e.pointer.gesture.origin?) :
    e'.Sliding ↔ e.Sliding := by rw [sliding_iff, sliding_iff, hg]

theorem not_sliding (hg : e.pointer.gesture.origin? = none) : ¬ e.Sliding := by
  rw [sliding_iff, hg]
  nofun

variable [Arith α]

/-- Whether an input takes the slider from a pointer that drags it, or the pointer from the
slider. -/
def Disturbs (e : Engine α) : EngineInput α → Prop
  | .move _ => False
  | .press _ => True
  | .load graph => ∃ s, e.sceneOf graph = .ok s
  | i => e.SetsZoom i

def Undisturbed : Engine α → List (EngineInput α) → Prop
  | _, [] => True
  | e, i :: inputs => ¬ (e.Sliding ∧ e.Disturbs i) ∧ ∀ m, e.next? i = some m → Undisturbed m inputs

/-- What an input does to a drag, which the pointer and the slider know of each on its own. -/
inductive Handles (e : Engine α) : EngineInput α → Engine α → Prop
  | grab (screen : Point α) : Handles e (.grabSlider screen) (e.grabSlider screen)
  | drag {screen : Point α} {e' : Engine α} {y : α} (hy : e.pointer.gesture = .draggingSlider y)
      (hy' : e'.pointer.gesture = .draggingSlider y)
      (hm : e.slider.dragBy? (screen.y - y) = some e'.slider) : Handles e (.move screen) e'
  | finish {e' : Engine α} (hs : e'.slider = e.slider.release) (hg : ¬ e'.Sliding) :
      Handles e .release e'
  | letGo {i : EngineInput α} {e' : Engine α} (hi : e.Disturbs i)
      (hs : e'.slider.grabbed = false)
      (hg : e'.pointer.gesture.origin? = e.pointer.gesture.origin?) : Handles e i e'
  | drop {i : EngineInput α} {e' : Engine α} (hi : e.Disturbs i) (hs : e'.slider = e.slider)
      (hg : ¬ e'.Sliding) : Handles e i e'
  | keep {i : EngineInput α} {e' : Engine α} (hi : ¬ e.Disturbs i) (hn : ∀ p, i ≠ .grabSlider p)
      (hs : e'.slider = e.slider)
      (hg : e'.pointer.gesture.origin? = e.pointer.gesture.origin?) : Handles e i e'

variable {i : EngineInput α} {inputs : List (EngineInput α)}

theorem origin?_pointerAfter (hb : i.isButton = false) (hl : ∀ g, i ≠ .load g) :
    (e.pointerAfter i).gesture.origin? = e.pointer.gesture.origin? := by
  cases i with
  | move p => exact e.pointer.origin?_move p
  | _ => exact congrArg Gesture.origin? (gesture_pointerAfter hb (by simp) hl)

theorem Idles.handles (hi : e.Idles i) : Handles e i { e with pointer := e.pointerAfter i } := by
  cases i with
  | load g =>
    obtain ⟨err, hs⟩ := hi
    refine .keep ?_ (by simp) rfl (by simp only [pointerAfter, hs])
    rintro ⟨s, hs'⟩
    cases hs.symm.trans hs'
  | press p => exact .drop trivial rfl (not_sliding rfl)
  | release =>
    refine .keep id (by simp) rfl ?_
    rw [pointerAfter, Pointer.release_snd]
    obtain - | ⟨hr, -⟩ | ⟨_, _, hr, -⟩ := e.pointer.release_cases
    · cases hg : e.pointer.gesture with
      | draggingSlider y => simp [Idles, Pointer.release, hg] at hi
      | _ => rfl
    · cases hr.symm.trans hi
    · cases hr.symm.trans hi
  | wheel notches focus =>
    refine .keep (fun hd ↦ ?_) (by simp) rfl rfl
    have hw : e.pointer.wheel notches focus = none := hi
    simp [Pointer.wheel, hd.1, hd.2.1] at hw
  | fit _ _ | clickSlider _ | clickZoom _ | grabSlider _ => exact hi.elim
  | _ => exact .keep id (by simp) rfl (origin?_pointerAfter rfl (by simp))

theorem next_handles (h : e.next? i = some e') : Handles e i e' := by
  obtain ⟨redraws, m, hm, rfl⟩ := next_leads h
  cases hm with
  | idle hi => exact hi.handles
  | grab screen => exact .grab screen
  | @slide screen y _ hy hm =>
    refine .drag hy ?_ hm
    rw [← Gesture.origin?_eq_some_iff] at hy ⊢
    exact (e.pointer.origin?_move screen).trans hy
  | letGo _ => exact .finish rfl (not_sliding (by rw [pointerAfter, Pointer.release_snd]; rfl))
  | click hp =>
    refine .keep id (by simp) rfl ?_
    rw [pointerAfter, Pointer.release_snd, hp]
    rfl
  | load hs => exact .drop ⟨_, hs⟩ rfl (not_sliding (by simp only [pointerAfter, hs]; rfl))
  | fit hb _ => exact .letGo hb rfl rfl
  | turn hin hn hf hr => exact .letGo ⟨hin, hn, _, hf, hr⟩ rfl rfl
  | place hi _ =>
    cases i with
    | clickSlider _ | clickZoom _ => exact .letGo trivial rfl rfl
    | _ => cases hi
  | widen _ _ hb =>
    exact .keep (fun hd ↦ Bool.false_ne_true (hd.symm.trans hb)) (by simp) rfl rfl
  | refuse hf hr =>
    refine .keep (fun hd ↦ ?_) (by simp) rfl rfl
    obtain ⟨-, -, factor, hf', hr'⟩ := hd
    cases hf.symm.trans hf'
    exact Bool.false_ne_true (hr'.symm.trans hr)
  | @pan screen _ _ => exact .keep id (by simp) rfl (e.pointer.origin?_move screen)
  | @drag screen _ _ => exact .keep id (by simp) rfl (e.pointer.origin?_move screen)
  | mode hi =>
    cases i with
    | setEditMode _ | toggleEditMode => exact .keep id (by simp) rfl rfl
    | _ => cases hi
  | edit hx =>
    cases i with
    | clearSelection | setEnabled _ _ | enableSelected | disableSelected | disableAncestors
    | enableAll | setStatus _ => exact .keep id (by simp) rfl rfl
    | _ => cases hx
  | _ => exact .keep id (by simp) rfl rfl

theorem not_sliding_create (c : Config α) : ¬ (create c).Sliding := not_sliding rfl

theorem owned_create (c : Config α) : (create c).Owned :=
  iff_of_false Bool.false_ne_true (not_sliding_create c)

theorem Owned.handles (ho : e.Owned) (h : Handles e i e') :
    e'.Owned ↔ ¬ (e.Sliding ∧ e.Disturbs i) := by
  cases h with
  | grab screen => exact iff_of_true ⟨fun _ ↦ ⟨_, rfl⟩, fun _ ↦ rfl⟩ And.right
  | drag hy hy' hm =>
    have hgrabbed : e'.slider.grabbed = e.slider.grabbed := by rw [Slider.moveTo?_some hm]
    have hheld : e'.slider.grabbed = true := hgrabbed.trans (ho.mpr ⟨_, hy⟩)
    exact iff_of_true (iff_of_true hheld ⟨_, hy'⟩) And.right
  | finish hs hg =>
    have hfree : e'.slider.grabbed ≠ true := hs ▸ Bool.false_ne_true
    exact iff_of_true (iff_of_false hfree hg) And.right
  | letGo hi hs hg =>
    rw [Owned, sliding_congr hg, hs]
    simp [hi]
  | drop hi hs hg =>
    have hheld := not_congr ho
    rw [Owned, hs]
    simp only [hg, iff_false, hi, and_true]
    exact hheld
  | keep hi hn hs hg =>
    rw [Owned, hs, sliding_congr hg]
    exact iff_of_true ho fun h ↦ hi h.2

theorem owned_iff_undisturbed (he : e.Owned) (h : e.run? inputs = some e') :
    (∀ pre m, pre <+: inputs → e.run? pre = some m → m.Owned) ↔ e.Undisturbed inputs := by
  induction inputs generalizing e with
  | nil =>
    refine iff_of_true (fun pre m hpre hm ↦ ?_) trivial
    rw [List.prefix_nil.mp hpre] at hm
    cases hm
    exact he
  | cons i inputs ih =>
    rw [run?_cons, Option.bind_eq_bind, Option.bind_eq_some_iff] at h
    obtain ⟨k, hk, h⟩ := h
    have hcons (pre : List (EngineInput α)) : e.run? (i :: pre) = k.run? pre :=
      run?_cons_of_next hk pre
    have hstep := he.handles (next_handles hk)
    constructor
    · intro ho
      have hko : k.Owned := ho [i] k (List.prefix_append [i] inputs) (hcons [])
      refine ⟨hstep.mp hko, fun m hm ↦ ?_⟩
      cases hk.symm.trans hm
      exact (ih hko h).mp fun pre m hpre hm ↦
        ho (i :: pre) m (List.cons_prefix_cons.mpr ⟨rfl, hpre⟩) ((hcons pre).trans hm)
    · rintro ⟨hi, hrest⟩ pre m hpre hm
      have hko : k.Owned := hstep.mpr hi
      cases pre with
      | nil =>
        cases hm
        exact he
      | cons i' pre =>
        obtain ⟨rfl, htail⟩ := List.cons_prefix_cons.mp hpre
        exact (ih hko h).mpr (hrest k hk) pre m htail ((hcons pre).symm.trans hm)

theorem Undisturbed.concat {m : Engine α} (h : e.Undisturbed (inputs ++ [i]))
    (hr : e.run? inputs = some m) : e.Undisturbed inputs ∧ ¬ (m.Sliding ∧ m.Disturbs i) := by
  induction inputs generalizing e with
  | nil =>
    cases hr
    exact ⟨trivial, h.1⟩
  | cons i' inputs ih =>
    rw [run?_cons, Option.bind_eq_bind, Option.bind_eq_some_iff] at hr
    obtain ⟨k, hk, hr⟩ := hr
    obtain ⟨hrest, hi⟩ := ih (h.2 k hk) hr
    refine ⟨⟨h.1, fun k' hk' ↦ ?_⟩, hi⟩
    cases hk.symm.trans hk'
    exact hrest

/-- A run up to a grab of the slider, and what came of the drag since. -/
structure Drag (start : Engine α) (inputs : List (EngineInput α)) (e : Engine α)
    (pre : List (EngineInput α)) (m : Engine α) (grip : Point α) (mid : List (EngineInput α)) :
    Prop where
  inputs_eq : inputs = pre ++ .grabSlider grip :: mid
  before : start.run? pre = some m
  since : (m.grabSlider grip).run? mid = some e
  last : ∀ p, .grabSlider p ∉ mid
  gesture_eq : e.pointer.gesture = .draggingSlider grip.y
  baseline_eq : (m.grabSlider grip).Undisturbed mid → e.slider.baseline = m.slider.position

theorem Drag.concat {start m : Engine α} {pre mid : List (EngineInput α)} {grip : Point α}
    (hd : start.Drag inputs e pre m grip mid) (h : e.next? i = some e') (hn : ∀ p, i ≠ .grabSlider p)
    (hg : e'.pointer.gesture.origin? = e.pointer.gesture.origin?)
    (hb : ¬ e.Disturbs i → e'.slider.baseline = e.slider.baseline) :
    start.Drag (inputs ++ [i]) e' pre m grip (mid ++ [i]) where
  inputs_eq := by rw [hd.inputs_eq, List.append_assoc, List.cons_append]
  before := hd.before
  since := by
    rw [run?_append_of_run hd.since, run?_cons_of_next h]
    rfl
  last p hp := by
    rcases List.mem_append.mp hp with hp | hp
    · exact hd.last p hp
    · exact hn p (List.mem_singleton.mp hp).symm
  gesture_eq := by
    rw [← Gesture.origin?_eq_some_iff, hg]
    exact Gesture.origin?_eq_some_iff.mpr hd.gesture_eq
  baseline_eq hu := by
    obtain ⟨hrest, hi⟩ := hu.concat hd.since
    have hi : ¬ e.Disturbs i := fun h ↦ hi ⟨⟨_, hd.gesture_eq⟩, h⟩
    exact (hb hi).trans (hd.baseline_eq hrest)

theorem run_drag {start : Engine α} (hs : ¬ start.Sliding) (h : start.run? inputs = some e)
    (he : e.Sliding) : ∃ pre m grip mid, start.Drag inputs e pre m grip mid := by
  -- From the end, since a later grab begins the drag anew.
  induction inputs using List.reverseRecOn generalizing e with
  | nil =>
    cases h
    exact absurd he hs
  | append_singleton inputs i ih =>
    obtain ⟨k, hk, hi⟩ := foldlM_concat h
    cases next_handles hi with
    | grab screen =>
      exact ⟨inputs, k, screen, [], rfl, hk, rfl, fun _ ↦ List.not_mem_nil, rfl, fun _ ↦ rfl⟩
    | drag hy hy' hm =>
      obtain ⟨pre, m, grip, mid, hd⟩ := ih hk ⟨_, hy⟩
      have hg := congrArg Gesture.origin? (hy'.trans hy.symm)
      refine ⟨pre, m, grip, mid ++ [_], hd.concat hi (by simp) hg fun _ ↦ ?_⟩
      rw [Slider.moveTo?_some hm]
    | finish hs hg => exact absurd he hg
    | letGo hdis hs hg =>
      obtain ⟨pre, m, grip, mid, hd⟩ := ih hk ((sliding_congr hg).mp he)
      refine ⟨pre, m, grip, mid ++ [i], hd.concat hi ?_ hg fun hn ↦ absurd hdis hn⟩
      rintro p rfl
      exact hdis
    | drop hdis hs hg => exact absurd he hg
    | keep hdis hn hs hg =>
      obtain ⟨pre, m, grip, mid, hd⟩ := ih hk ((sliding_congr hg).mp he)
      exact ⟨pre, m, grip, mid ++ [i], hd.concat hi hn hg fun _ ↦ by rw [hs]⟩

theorem position_move {y : α} (hy : e.pointer.gesture = .draggingSlider y) (p : Point α) :
    (e.next? (.move p)).map (·.slider.position) =
      Arith.clamp? (e.slider.baseline + (p.y - y)) 1.0 e.slider.track.length := by
  simp only [next?, step?, Pointer.move, hy, actOn?, perform?, Slider.dragBy?, Slider.moveTo?]
  cases Arith.clamp? (e.slider.baseline + (p.y - y)) 1.0 e.slider.track.length <;> rfl

/-- The slider and the pointer agree on who drags the slider until a drag is disturbed. A drag that
was not disturbed since the handle was grabbed moves it from where it was then. -/
theorem drag_undisturbed {c : Config α} (h : (create c).run? inputs = some e) :
    ((∀ pre m, pre <+: inputs → (create c).run? pre = some m → m.Owned) ↔
      (create c).Undisturbed inputs) ∧
    (e.Sliding → ∃ pre m grip mid, inputs = pre ++ .grabSlider grip :: mid ∧
      (∀ p, .grabSlider p ∉ mid) ∧ (create c).run? pre = some m ∧
      ((m.grabSlider grip).Undisturbed mid → e.slider.baseline = m.slider.position ∧
        ∀ p, (e.next? (.move p)).map (·.slider.position) =
          Arith.clamp? (m.slider.position + (p.y - grip.y)) 1.0 c.slider.length)) := by
  refine ⟨owned_iff_undisturbed (owned_create c) h, fun he ↦ ?_⟩
  obtain ⟨pre, m, grip, mid, hd⟩ := run_drag (not_sliding_create c) h he
  refine ⟨pre, m, grip, mid, hd.inputs_eq, hd.last, hd.before, fun hu ↦ ?_⟩
  have hb := hd.baseline_eq hu
  refine ⟨hb, fun p ↦ ?_⟩
  rw [position_move hd.gesture_eq, hb, (run_configured h).track_eq]

theorem drag_undisturbed_outside : ∃ e : Engine ℝ,
    (create .standard).run? [.grabSlider ⟨5, 100⟩, .leaveSurface] = some e ∧ e.Sliding ∧ e.Owned ∧
      (e.next? (.move ⟨5, 40⟩)).map (·.slider.position) = some 140 := by
  have h : (create .standard : Engine ℝ).run? [.grabSlider ⟨5, 100⟩, .leaveSurface] = some _ := rfl
  obtain ⟨howned, hdrag⟩ := drag_undisturbed h
  have hcalm : (create .standard : Engine ℝ).Undisturbed [.grabSlider ⟨5, 100⟩, .leaveSurface] :=
    ⟨And.right, fun _ _ ↦ ⟨And.right, fun _ _ ↦ trivial⟩⟩
  obtain ⟨pre, m, grip, mid, hinputs, -, hm, hmove⟩ := hdrag ⟨100, rfl⟩
  refine ⟨_, h, ⟨100, rfl⟩, howned.mpr hcalm _ _ (List.prefix_refl _) h, ?_⟩
  cases pre with
  | nil =>
    cases hinputs
    cases hm
    rw [(hmove ⟨And.right, fun _ _ ↦ trivial⟩).2]
    simp only [create, Config.standard, SliderTrack.standard, Slider.atBottom,
      ExactArith.ofScientific_eq, ↓reduceIte]
    rw [Arith.clamp?_eq (by norm_num)]
    norm_num
  | cons i pre =>
    obtain ⟨-, hinputs⟩ := List.cons_eq_cons.mp hinputs
    cases pre with
    | nil => cases hinputs
    | cons i pre => simp at hinputs

/-- The wheel lets go of a slider that is still dragged. With the pointer where it grabbed the
handle, the handle is then not where it was grabbed. -/
theorem wheel_disturbs_drag : ∃ m e : Engine ℝ,
    (create .standard).run? [.enterSurface] = some m ∧
      m.run? [.grabSlider ⟨5, 100⟩, .wheel 1 ⟨5, 100⟩] = some e ∧
      e.Sliding ∧ e.slider.grabbed = false ∧ e.slider.baseline ≠ m.slider.position ∧
      (e.next? (.move ⟨5, 100⟩)).map (·.slider.position) ≠ some m.slider.position := by
  let m : Engine ℝ := (create .standard).setInside true
  let v : Viewport ℝ := m.viewport.zoomAt m.viewport.policy.wheelIn ⟨5, 100⟩
  let e : Engine ℝ := { m.grabSlider ⟨5, 100⟩ with viewport := v }.syncSlider
  have hr : m.viewport.refuses m.viewport.policy.wheelIn = false := Viewport.refuses_standard _
  have h : m.run? [.grabSlider ⟨5, 100⟩, .wheel 1 ⟨5, 100⟩] = some e := by
    have hgrab : m.next? (.grabSlider ⟨5, 100⟩) = some (m.grabSlider ⟨5, 100⟩) := rfl
    have hwheel : (m.grabSlider ⟨5, 100⟩).next? (.wheel 1 ⟨5, 100⟩) = some e :=
      next_wheel (e := m.grabSlider ⟨5, 100⟩) rfl (by decide) (Viewport.wheelFactor?_one _) hr _
    rw [run?_cons_of_next hgrab, run?_cons_of_next hwheel]
    rfl
  have hscale : v.scale = 21 / 20 := by
    have hone : m.viewport.scale = 1 := ExactArith.one_eq
    have hpolicy : m.viewport.policy = .standard := rfl
    rw [Viewport.scale_zoomAt hr, hone, hpolicy]
    simp only [ZoomPolicy.standard, ExactArith.ofScientific_eq, ↓reduceIte]
    norm_num
  have hzoom : 0 < v.zoomPercent := by
    have hpolicy : v.policy = .standard := Viewport.policy_zoomAt _ _ _
    rw [Viewport.zoomPercent_eq, hscale, Viewport.zoomSpan, hpolicy]
    simp only [ZoomPolicy.standard, ExactArith.ofScientific_eq, ↓reduceIte]
    norm_num
  have hone : 1 < m.slider.position := by
    change 1 < (SliderTrack.standard : SliderTrack ℝ).length
    simp only [SliderTrack.standard, ExactArith.ofScientific_eq, ↓reduceIte]
    norm_num
  have hlt : e.slider.baseline < m.slider.position :=
    Slider.position_sync_lt (zero_lt_one.trans hone) hzoom
  have hmove : (e.next? (.move ⟨5, 100⟩)).map (·.slider.position) =
      some (max 1 (min (e.slider.baseline + (100 - 100)) m.slider.position)) := by
    rw [position_move (y := 100) rfl, ExactArith.one_eq]
    exact Arith.clamp?_eq hone.le
  have hback : max 1 (min (e.slider.baseline + (100 - 100)) m.slider.position) <
      m.slider.position := by
    rw [sub_self, add_zero]
    exact max_lt hone ((min_le_left _ _).trans_lt hlt)
  refine ⟨m, e, rfl, h, ⟨100, rfl⟩, rfl, hlt.ne, ?_⟩
  rw [hmove]
  exact fun heq ↦ hback.ne (Option.some.inj heq)

end Engine

end Diagram
