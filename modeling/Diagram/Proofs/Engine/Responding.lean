import Diagram.Engine.Input
import Diagram.Proofs.Scene.Selecting

namespace Diagram

variable {α : Type}

namespace EngineInput

def edit? : EngineInput α → Option (SceneEdit α)
  | clearSelection => some .clearSelection
  | setEnabled ids enabled => some (.setEnabled ids enabled)
  | enableSelected => some (.setSelectionEnabled true)
  | disableSelected => some (.setSelectionEnabled false)
  | disableAncestors => some .disableAncestors
  | enableAll => some .enableAll
  | setStatus status => some (.setStatus status)
  | _ => none

def setsMode : EngineInput α → Bool
  | setEditMode _ | toggleEditMode => true
  | _ => false

def placesSlider : EngineInput α → Bool
  | clickSlider _ | clickZoom _ => true
  | _ => false

theorem edit?_ne_drain (i : EngineInput α) : i.edit? ≠ some .drain := by
  cases i <;> nofun

end EngineInput

namespace Pointer

variable (p : Pointer α)

theorem release_snd : p.release.2 = { p with gesture := .idle } := by
  unfold release
  dsimp only
  split <;> rfl

theorem release_cases : p.release.1 = none ∨
    (p.release.1 = some .sliderReleased ∧ ∃ y, p.gesture = .draggingSlider y) ∨
      ∃ intent id, p.release.1 = some (.select id) ∧ p.gesture = .pressed intent (some id) := by
  unfold release
  cases p.gesture with
  | pressed intent target =>
    cases target with
    | none => exact .inl rfl
    | some id => exact .inr (.inr ⟨intent, id, rfl, rfl⟩)
  | draggingSlider y => exact .inr (.inl ⟨rfl, y, rfl⟩)
  | _ => exact .inl rfl

theorem leave_eq (id : String) :
    p.leave id = { p with hovered := if p.hovered = some id then none else p.hovered } := by
  unfold leave
  simp only [beq_iff_eq]
  split <;> rfl

theorem wheel_eq_some {notches : Int32} {focus : Point α} {a : PointerAction α}
    (h : p.wheel notches focus = some a) :
    p.inside = true ∧ notches ≠ 0 ∧ a = .zoom notches focus := by
  unfold wheel at h
  split at h
  · cases h
  · next hw =>
    cases h
    simp only [Bool.or_eq_true, Bool.not_eq_true', beq_iff_eq, not_or, Bool.not_eq_false] at hw
    exact ⟨hw.1, hw.2, rfl⟩

variable [Arith α]

theorem move_snd (here : Point α) : ∃ gesture last, (p.move here).2 = { p with gesture, last } := by
  obtain ⟨gesture, editMode, hovered, last, inside⟩ := p
  cases gesture with
  | pressed intent target =>
    dsimp only [move]
    split
    · exact ⟨_, last, rfl⟩
    · cases intent with
      | pan => exact ⟨.panning, here, rfl⟩
      | moveSelection => exact ⟨.draggingNode, here, rfl⟩
  | _ => exact ⟨_, here, rfl⟩

theorem move_cases (here : Point α) : (p.move here).1 = none ∨
    (∃ d, (p.move here).1 = some (.pan d)) ∨ (∃ d, (p.move here).1 = some (.dragSelection d)) ∨
      ∃ y, (p.move here).1 = some (.sliderMoved (here.y - y)) ∧ p.gesture = .draggingSlider y := by
  unfold move
  cases p.gesture with
  | idle => exact .inl rfl
  | pressed intent target =>
    dsimp only
    split
    · exact .inl rfl
    · cases intent with
      | pan => exact .inr (.inl ⟨_, rfl⟩)
      | moveSelection => exact .inr (.inr (.inl ⟨_, rfl⟩))
  | panning => exact .inr (.inl ⟨_, rfl⟩)
  | draggingNode => exact .inr (.inr (.inl ⟨_, rfl⟩))
  | draggingSlider y => exact .inr (.inr (.inr ⟨y, rfl, rfl⟩))

end Pointer

namespace Engine

theorem engine_of_redrawn {r : Option (Engine α)} {o : Outcome α}
    (h : (do return (← r).redrawn) = some o) : ∃ m, r = some m ∧ o = m.redrawn := by
  simp only [Option.bind_eq_bind, Option.bind_eq_some_iff] at h
  obtain ⟨m, hm, h⟩ := h
  cases h
  exact ⟨m, hm, rfl⟩

variable [Arith α]

theorem hoverAt_eq (e : Engine α) (screen : Point α) :
    e.hoverAt screen = { e with pointer := { e.pointer with hovered := e.nodeAt? screen } } := by
  unfold hoverAt
  generalize e.nodeAt? screen = hit
  obtain ⟨config, scene, viewport, slider, ⟨gesture, editMode, hovered, last, inside⟩, area⟩ := e
  cases hovered with
  | none => cases hit <;> rfl
  | some old =>
    cases hit with
    | none => simp [Pointer.leave]
    | some new =>
      by_cases hid : old = new
      · simp [hid]
      · simp [hid, Pointer.leave, Pointer.enter]

theorem perform_select (e : Engine α) (id : String) :
    e.perform? (.select id) = some { e with scene := e.scene.edit (.select id) } := by
  simp only [perform?, select, Scene.edit, Scene.perform]
  cases e.scene.select id <;> rfl

def pointerAfter (e : Engine α) : EngineInput α → Pointer α
  | .load graph =>
    match e.sceneOf graph with
    | .ok _ => .resting e.pointer.editMode
    | .error _ => e.pointer
  | .enterNode id => if (e.scene.handle? id).isSome then e.pointer.enter id else e.pointer
  | .leaveNode id => e.pointer.leave id
  | .hover screen => { e.pointer with hovered := e.nodeAt? screen }
  | .enterSurface => { e.pointer with inside := true }
  | .leaveSurface => { e.pointer with inside := false }
  | .press screen => e.pointer.press screen e.scene
  | .move screen => (e.pointer.move screen).2
  | .release => e.pointer.release.2
  | .grabSlider screen => e.pointer.pressSlider screen
  | .setEditMode editMode => { e.pointer with editMode }
  | .toggleEditMode => { e.pointer with editMode := !e.pointer.editMode }
  | _ => e.pointer

/-- Whether an input does nothing but to the pointer, as the engine is. -/
def Idles (e : Engine α) : EngineInput α → Prop
  | .load graph => ∃ err, e.sceneOf graph = .error err
  | .select id | .selectAndCenter id => ∃ err, e.scene.select id = .error err
  | .enterNode _ | .leaveNode _ | .hover _ | .enterSurface | .leaveSurface | .press _ => True
  | .move screen => (e.pointer.move screen).1 = none
  | .release => e.pointer.release.1 = none
  | .wheel notches focus => e.pointer.wheel notches focus = none
  | _ => False

/-- All that an input can do to an engine, apart from its pointer, and whether the screen is then drawn
anew. Whatever holds of every step is read off this list. -/
inductive Response (e : Engine α) : EngineInput α → Bool → Engine α → Prop
  | idle {i : EngineInput α} (hi : e.Idles i) : Response e i false e
  | mode {i : EngineInput α} (hi : i.setsMode = true) : Response e i true e
  | load {graph : Payload α} {scene : Scene α} (hs : e.sceneOf graph = .ok scene) :
      Response e (.load graph) true { e with scene }
  | resize (width height : α) :
      Response e (.resize width height) false { e with area := ⟨width, height⟩ }
  | widen (width height : α) (hb : e.scene.bounds.isEmpty = true) :
      Response e (.fit width height) true { e with area := ⟨width, height⟩ }
  | fit {width height scale : α} (hb : e.scene.bounds.isEmpty = false)
      (hf : Viewport.fitScale? e.viewport.policy e.scene.bounds.height height = some scale) :
      Response e (.fit width height) true
        { e.resize width height with
          viewport := e.viewport.fitted e.scene.bounds width scale }.syncSlider
  | select {id : String} {scene : Scene α} (hs : e.scene.select id = .ok scene) :
      Response e (.select id) true { e with scene }
  | center {id : String} {scene : Scene α} {viewport : Viewport α}
      (hs : e.scene.select id = .ok scene)
      (hv : viewport = e.viewport ∨ ∃ p, viewport = e.viewport.centerOn p e.area) :
      Response e (.selectAndCenter id) true { e with scene, viewport }
  | pan {screen : Point α} {d : Offset α} (hm : (e.pointer.move screen).1 = some (.pan d)) :
      Response e (.move screen) true { e with viewport := e.viewport.pan d }
  | drag {screen : Point α} {d : Offset α}
      (hm : (e.pointer.move screen).1 = some (.dragSelection d)) :
      Response e (.move screen) true { e with
        scene := e.scene.moveSelected ⟨d.x / e.viewport.scale, d.y / e.viewport.scale⟩ }
  | slide {screen : Point α} {y : α} {slider : Slider α}
      (hy : e.pointer.gesture = .draggingSlider y)
      (hm : e.slider.dragBy? (screen.y - y) = some slider) :
      Response e (.move screen) true
        { e with slider, viewport := e.viewport.zoomToPercent slider.percent e.area }
  | letGo {y : α} (hy : e.pointer.gesture = .draggingSlider y) :
      Response e .release true { e with slider := e.slider.release }
  | click {intent : DragIntent} {id : String}
      (hp : e.pointer.gesture = .pressed intent (some id)) :
      Response e .release true { e with scene := e.scene.edit (.select id) }
  | refuse {notches : Int32} {focus : Point α} {factor : α}
      (hf : e.viewport.wheelFactor? notches = some factor)
      (hr : e.viewport.refuses factor = true) : Response e (.wheel notches focus) true e
  | turn {notches : Int32} {focus : Point α} {factor : α} (hin : e.pointer.inside = true)
      (hn : notches ≠ 0) (hf : e.viewport.wheelFactor? notches = some factor)
      (hr : e.viewport.refuses factor = false) :
      Response e (.wheel notches focus) true
        { e with viewport := e.viewport.zoomAt factor focus }.syncSlider
  | grab (screen : Point α) : Response e (.grabSlider screen) false { e with slider := e.slider.grab }
  | place {i : EngineInput α} {position : α} {slider : Slider α} (hi : i.placesSlider = true)
      (hm : e.slider.moveTo? position = some slider) : Response e i true (e.placeSlider slider)
  | edit {i : EngineInput α} {x : SceneEdit α} (hx : i.edit? = some x) :
      Response e i true { e with scene := e.scene.edit x }
  | drain : Response e .drain false { e with scene := e.scene.edit .drain }

variable {e e' : Engine α} {i : EngineInput α} {o : Outcome α}

def Leads (e : Engine α) (i : EngineInput α) (o : Outcome α) : Prop :=
  ∃ m, Response e i o.redraws m ∧ o.engine = { m with pointer := e.pointerAfter i }

theorem load_leads {graph : Payload α} (h : e.step? (.load graph) = some o) :
    e.Leads (.load graph) o := by
  simp only [step?, Engine.load] at h
  cases hs : e.sceneOf graph with
  | error err =>
    simp only [hs] at h
    cases h
    exact ⟨e, .idle ⟨err, hs⟩, by simp only [pointerAfter, hs]; rfl⟩
  | ok scene =>
    simp only [hs] at h
    cases h
    exact ⟨_, .load hs, by simp only [pointerAfter, hs]; rfl⟩

theorem fit_cases {width height : α} (h : e.fit? width height = some e') :
    (e.scene.bounds.isEmpty = true ∧ e' = e.resize width height) ∨
      (e.scene.bounds.isEmpty = false ∧ ∃ scale,
        Viewport.fitScale? e.viewport.policy e.scene.bounds.height height = some scale ∧
        e' = { e.resize width height with
          viewport := e.viewport.fitted e.scene.bounds width scale }.syncSlider) := by
  cases hb : e.scene.bounds.isEmpty with
  | true =>
    simp only [fit?, Viewport.fit?, hb, ↓reduceIte] at h
    cases h
    exact .inl ⟨rfl, rfl⟩
  | false =>
    simp only [fit?, Viewport.fit?, hb, Bool.false_eq_true, ↓reduceIte, Option.bind_eq_bind,
      Option.bind_eq_some_iff] at h
    obtain ⟨_, ⟨scale, hf, hv⟩, h⟩ := h
    cases hv
    cases h
    exact .inr ⟨rfl, scale, hf, rfl⟩

theorem fit_leads {width height : α} (h : e.step? (.fit width height) = some o) :
    e.Leads (.fit width height) o := by
  obtain ⟨m, hm, rfl⟩ := engine_of_redrawn h
  obtain ⟨hb, rfl⟩ | ⟨hb, scale, hf, rfl⟩ := fit_cases hm
  · exact ⟨_, .widen width height hb, rfl⟩
  · exact ⟨_, .fit hb hf, rfl⟩

theorem select_leads {id : String} (h : e.step? (.select id) = some o) : e.Leads (.select id) o := by
  simp only [step?, Engine.select] at h
  cases hs : e.scene.select id with
  | error err =>
    rw [hs] at h
    cases h
    exact ⟨e, .idle ⟨err, hs⟩, rfl⟩
  | ok scene =>
    rw [hs] at h
    cases h
    exact ⟨_, .select hs, rfl⟩

theorem center_leads {id : String} (h : e.step? (.selectAndCenter id) = some o) :
    e.Leads (.selectAndCenter id) o := by
  simp only [step?, selectAndCenter, Engine.select] at h
  cases hs : e.scene.select id with
  | error err =>
    rw [hs] at h
    cases h
    exact ⟨e, .idle ⟨err, hs⟩, rfl⟩
  | ok scene =>
    cases hn : scene.node? id with
    | none =>
      simp only [hs, bind, Except.bind, pure, Except.pure, hn] at h
      cases h
      exact ⟨_, .center hs (.inl rfl), rfl⟩
    | some n =>
      simp only [hs, bind, Except.bind, pure, Except.pure, hn] at h
      cases h
      exact ⟨_, .center hs (.inr ⟨n.position, rfl⟩), rfl⟩

theorem move_leads {screen : Point α} (h : e.step? (.move screen) = some o) :
    e.Leads (.move screen) o := by
  simp only [step?] at h
  obtain hm | ⟨d, hm⟩ | ⟨d, hm⟩ | ⟨y, hm, hy⟩ := e.pointer.move_cases screen
  · rw [hm] at h
    cases h
    exact ⟨e, .idle hm, rfl⟩
  · rw [hm] at h
    cases h
    exact ⟨_, .pan hm, rfl⟩
  · rw [hm] at h
    cases h
    exact ⟨_, .drag hm, rfl⟩
  · rw [hm] at h
    obtain ⟨m, hs, rfl⟩ := engine_of_redrawn h
    simp only [perform?, Option.bind_eq_bind, Option.bind_eq_some_iff] at hs
    obtain ⟨slider, hs, hm⟩ := hs
    cases hm
    exact ⟨_, .slide hy hs, rfl⟩

theorem release_leads (h : e.step? .release = some o) : e.Leads .release o := by
  simp only [step?] at h
  obtain hr | ⟨hr, y, hy⟩ | ⟨intent, id, hr, hp⟩ := e.pointer.release_cases
  · rw [hr] at h
    cases h
    exact ⟨e, .idle hr, rfl⟩
  · rw [hr] at h
    cases h
    exact ⟨_, .letGo hy, rfl⟩
  · rw [hr, actOn?, perform_select] at h
    cases h
    exact ⟨_, .click hp, rfl⟩

theorem wheel_leads {notches : Int32} {focus : Point α}
    (h : e.step? (.wheel notches focus) = some o) : e.Leads (.wheel notches focus) o := by
  simp only [step?] at h
  cases ha : e.pointer.wheel notches focus with
  | none =>
    rw [ha] at h
    cases h
    exact ⟨e, .idle ha, rfl⟩
  | some a =>
    rw [ha] at h
    obtain ⟨hin, hn, rfl⟩ := e.pointer.wheel_eq_some ha
    obtain ⟨m, hm, rfl⟩ := engine_of_redrawn h
    simp only [perform?, Option.bind_eq_bind, Option.bind_eq_some_iff] at hm
    obtain ⟨factor, hf, hm⟩ := hm
    split at hm
    · next hr =>
      cases hm
      exact ⟨_, .refuse hf hr, rfl⟩
    · next hr =>
      cases hm
      exact ⟨_, .turn hin hn hf (Bool.not_eq_true _ ▸ hr), rfl⟩

theorem place_leads {position : α} (hi : i.placesSlider = true)
    (h : (do return (← e.clickSlider? position).redrawn) = some o) : e.Leads i o := by
  obtain ⟨m, hm, rfl⟩ := engine_of_redrawn h
  simp only [clickSlider?, Option.bind_eq_bind, Option.bind_eq_some_iff] at hm
  obtain ⟨slider, hm, hs⟩ := hm
  cases hs
  refine ⟨_, .place hi hm, ?_⟩
  cases i <;> first | rfl | cases hi

theorem step_leads (h : e.step? i = some o) : e.Leads i o := by
  cases i with
  | load graph => exact load_leads h
  | fit width height => exact fit_leads h
  | select id => exact select_leads h
  | selectAndCenter id => exact center_leads h
  | move screen => exact move_leads h
  | release => exact release_leads h
  | wheel notches focus => exact wheel_leads h
  | clickSlider position | clickZoom zoomIn => exact place_leads rfl h
  | enterNode id =>
    cases h
    refine ⟨e, .idle trivial, ?_⟩
    simp only [unseen, Engine.enterNode, pointerAfter]
    split <;> rfl
  | hover screen =>
    cases h
    exact ⟨e, .idle trivial, hoverAt_eq e screen⟩
  | leaveNode _ | enterSurface | leaveSurface | press _ =>
    cases h
    exact ⟨e, .idle trivial, rfl⟩
  | setEditMode _ | toggleEditMode =>
    cases h
    exact ⟨e, .mode rfl, rfl⟩
  | resize width height =>
    cases h
    exact ⟨_, .resize width height, rfl⟩
  | grabSlider screen =>
    cases h
    exact ⟨_, .grab screen, rfl⟩
  | drain =>
    cases h
    exact ⟨_, .drain, rfl⟩
  | _ =>
    cases h
    exact ⟨_, .edit rfl, rfl⟩

theorem next_leads (h : e.next? i = some e') :
    ∃ redraws m, Response e i redraws m ∧ e' = { m with pointer := e.pointerAfter i } := by
  simp only [next?, Option.map_eq_map, Option.map_eq_some_iff] at h
  obtain ⟨o, h, rfl⟩ := h
  obtain ⟨m, hm, he⟩ := step_leads h
  exact ⟨_, m, hm, he⟩

theorem next_wheel {notches : Int32} {factor : α} (hin : e.pointer.inside = true) (hn : notches ≠ 0)
    (hf : e.viewport.wheelFactor? notches = some factor) (hr : e.viewport.refuses factor = false)
    (focus : Point α) : e.next? (.wheel notches focus) =
      some { e with viewport := e.viewport.zoomAt factor focus }.syncSlider := by
  have ha : e.pointer.wheel notches focus = some (.zoom notches focus) := by
    simp [Pointer.wheel, hin, hn]
  have hperform : e.perform? (.zoom notches focus) =
      some { e with viewport := e.viewport.zoomAt factor focus }.syncSlider := by
    simp only [perform?, hf, Option.bind_eq_bind, Option.bind_some, hr, Bool.false_eq_true,
      ↓reduceIte]
    rfl
  rw [next?, step?, ha, actOn?, hperform]
  rfl

theorem next_pointer (h : e.next? i = some e') : e'.pointer = e.pointerAfter i := by
  obtain ⟨redraws, m, -, rfl⟩ := next_leads h
  rfl

end Engine

end Diagram
