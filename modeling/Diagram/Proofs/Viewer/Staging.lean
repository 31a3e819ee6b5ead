import Diagram.Proofs.Viewer.Asking

namespace Diagram

/-- A fold that keeps a record beside its state. -/
theorem map_foldlM {β γ δ : Type} {f : γ → β → Option γ} {g : δ → β → Option δ} {state : δ → γ}
    (step : ∀ t x, state <$> g t x = f (state t) x) (xs : List β) (t : δ) :
    state <$> xs.foldlM g t = xs.foldlM f (state t) := by
  induction xs generalizing t with
  | nil => rfl
  | cons x xs ih =>
    rw [List.foldlM_cons, List.foldlM_cons, map_bind, ← step, bind_map_left]
    exact bind_congr fun t' ↦ ih t'

inductive Stage
  | settle
  | notice
  | hover
  | press
  | move
  | release
  | wheel

namespace CanvasInput

def hasArea (i : CanvasInput) : Bool :=
  decide (0.0 < i.canvas.size.x) && decide (0.0 < i.canvas.size.y)

def fit (i : CanvasInput) : EngineInput Float :=
  .fit (toDouble i.canvas.size.x) (toDouble i.canvas.size.y)

end CanvasInput

namespace Stage

def all : List Stage := [settle, notice, hover, press, move, release, wheel]

def call? (i : CanvasInput) (v : Viewer) : Stage → Option (EngineInput Float)
  | settle =>
    if !v.fitted && i.hasArea then some i.fit
    else if i.canvas.size.x == v.canvasSize.x && i.canvas.size.y == v.canvasSize.y then none
    else some (.resize (toDouble i.canvas.size.x) (toDouble i.canvas.size.y))
  | notice =>
    if i.hovered == v.inside then none
    else some (if i.hovered then .enterSurface else .leaveSurface)
  | hover =>
    i.pointer.bind fun p ↦
      if i.hovered && v.isIdle then some (.hover (i.canvas.toLocal p)) else none
  | press =>
    i.pointer.bind fun p ↦
      if i.pressed && i.hovered then some (v.pressAt i.canvas p) else none
  | move => i.pointer.bind fun p ↦ if v.isIdle then none else some (.move (i.canvas.toLocal p))
  | release => if i.released then some .release else none
  | wheel =>
    i.pointer.bind fun p ↦
      if i.scroll == 0.0 then none
      else some (.wheel (if 0.0 < i.scroll then 1 else -1) (i.canvas.toLocal p))

/-- What a stage may ask, with the reason. -/
inductive Asks (i : CanvasInput) (v : Viewer) : Stage → Option (EngineInput Float) → Prop
  | fit (hnew : v.fitted = false) (harea : i.hasArea = true) : Asks i v settle (some i.fit)
  | resize (hold : (!v.fitted && i.hasArea) = false) :
      Asks i v settle (some (.resize (toDouble i.canvas.size.x) (toDouble i.canvas.size.y)))
  | same (hold : (!v.fitted && i.hasArea) = false)
      (hx : (i.canvas.size.x == v.canvasSize.x) = true)
      (hy : (i.canvas.size.y == v.canvasSize.y) = true) : Asks i v settle none
  | enter (hin : i.hovered = true) : Asks i v notice (some .enterSurface)
  | leave (hin : i.hovered = false) : Asks i v notice (some .leaveSurface)
  | stay (hin : i.hovered = v.inside) : Asks i v notice none
  | hover (p : Point Float) : Asks i v hover (some (.hover p))
  | grab (hp : i.pressed = true) (hin : i.hovered = true) (p : Point Float) :
      Asks i v press (some (.grabSlider p))
  | click (hp : i.pressed = true) (hin : i.hovered = true) (position : Float) :
      Asks i v press (some (.clickSlider position))
  | press (hp : i.pressed = true) (hin : i.hovered = true) (p : Point Float) :
      Asks i v press (some (.press p))
  | move (p : Point Float) : Asks i v move (some (.move p))
  | release (hr : i.released = true) : Asks i v release (some .release)
  | hold (hr : i.released = false) : Asks i v release none
  | wheel {notches : Int32} (hn : notches ≠ Int32.minValue) (p : Point Float) :
      Asks i v wheel (some (.wheel notches p))
  | nothing {s : Stage} (hs : s ≠ settle) (hn : s ≠ notice) (hr : s ≠ release) : Asks i v s none

theorem asks (i : CanvasInput) (v : Viewer) (s : Stage) : s.Asks i v (s.call? i v) := by
  cases s with
  | settle =>
    simp only [call?]
    cases hfit : !v.fitted && i.hasArea with
    | true =>
      simp only [Bool.and_eq_true, Bool.not_eq_true'] at hfit
      exact .fit hfit.1 hfit.2
    | false =>
      cases hsize : i.canvas.size.x == v.canvasSize.x && i.canvas.size.y == v.canvasSize.y with
      | true =>
        rw [Bool.and_eq_true] at hsize
        exact .same hfit hsize.1 hsize.2
      | false => exact .resize hfit
  | notice =>
    simp only [call?]
    cases hin : i.hovered == v.inside with
    | true => exact .stay (beq_iff_eq.mp hin)
    | false =>
      cases hh : i.hovered with
      | true => exact .enter hh
      | false => exact .leave hh
  | release =>
    simp only [call?]
    cases hr : i.released with
    | true => exact .release hr
    | false => exact .hold hr
  | hover =>
    cases hp : i.pointer with
    | none => simpa only [call?, hp] using .nothing nofun nofun nofun
    | some p =>
      simp only [call?, hp, Option.bind_some]
      split
      · exact .hover _
      · exact .nothing nofun nofun nofun
  | press =>
    cases hp : i.pointer with
    | none => simpa only [call?, hp] using .nothing nofun nofun nofun
    | some p =>
      simp only [call?, hp, Option.bind_some, Viewer.pressAt]
      split
      · next hdown =>
        rw [Bool.and_eq_true] at hdown
        obtain ⟨hdown, hin⟩ := hdown
        split
        · exact .grab hdown hin _
        · split
          · exact .click hdown hin _
          · exact .press hdown hin _
      · exact .nothing nofun nofun nofun
  | move =>
    cases hp : i.pointer with
    | none => simpa only [call?, hp] using .nothing nofun nofun nofun
    | some p =>
      simp only [call?, hp, Option.bind_some]
      split
      · exact .nothing nofun nofun nofun
      · exact .move _
  | wheel =>
    cases hp : i.pointer with
    | none => simpa only [call?, hp] using .nothing nofun nofun nofun
    | some p =>
      simp only [call?, hp, Option.bind_some]
      split
      · exact .nothing nofun nofun nofun
      · exact .wheel (by split <;> decide) _

theorem Asks.negatable {i : CanvasInput} {v : Viewer} {s : Stage}
    {call : Option (EngineInput Float)} (h : s.Asks i v call) : ∀ x ∈ call, x.Negatable := by
  intro x hx
  cases h with
  | wheel hn p =>
    cases hx
    exact hn
  | _ => cases hx <;> exact trivial

def note (i : CanvasInput) (v : Viewer) : Stage → Viewer
  | settle => { v with fitted := v.fitted || i.hasArea, canvasSize := i.canvas.size }
  | notice => { v with inside := i.hovered }
  | _ => v

theorem note_eq {s : Stage} (i : CanvasInput) (v : Viewer) (hs : s ≠ settle) (hn : s ≠ notice) :
    s.note i v = v := by
  cases s with
  | settle => exact absurd rfl hs
  | notice => exact absurd rfl hn
  | _ => rfl

theorem note_display (i : CanvasInput) (v : Viewer) (display : Display Float) (s : Stage) :
    s.note i { v with display } = { s.note i v with display } := by
  cases s <;> rfl

theorem note_engine (i : CanvasInput) (v : Viewer) (s : Stage) :
    (s.note i v).engine = v.engine := by
  cases s <;> rfl

end Stage

namespace Viewer

variable {i : CanvasInput}

def stage? (i : CanvasInput) (v : Viewer) (s : Stage) : Option Viewer :=
  (s.note i ·) <$> v.ask? (s.call? i v)

theorem settle?_eq (v : Viewer) (i : CanvasInput) :
    v.settle? i.canvas.size = v.stage? i .settle := by
  have hcond : (!v.fitted && decide (0.0 < i.canvas.size.x) && decide (0.0 < i.canvas.size.y)) =
      (!v.fitted && i.hasArea) := Bool.and_assoc ..
  simp only [settle?, hcond, stage?, Stage.call?]
  cases hfit : !v.fitted && i.hasArea with
  | true =>
    have harea : i.hasArea = true := (Bool.and_eq_true_iff.mp hfit).2
    simp only [↓reduceIte, ask?, Stage.note, harea, Bool.or_true, CanvasInput.fit, map_pure,
      bind_pure_comp]
  | false =>
    have hfitted : (v.fitted || i.hasArea) = v.fitted := by
      revert hfit
      cases v.fitted <;> simp
    cases hsize : i.canvas.size.x == v.canvasSize.x && i.canvas.size.y == v.canvasSize.y with
    | true => simp [ask?, Stage.note, hfitted]
    | false =>
      simp only [Bool.false_eq_true, ↓reduceIte, ask?, Stage.note, feed?_eq, hfitted,
        bind_pure_comp, Option.map_eq_map, Option.map_map, Function.comp_def]

theorem notice?_eq (v : Viewer) (i : CanvasInput) :
    v.notice? i.hovered = v.stage? i .notice := by
  simp only [notice?, stage?, Stage.call?]
  cases hin : i.hovered == v.inside with
  | true =>
    rw [beq_iff_eq] at hin
    simp [ask?, Stage.note, hin]
  | false => simp only [Bool.false_eq_true, ↓reduceIte, ask?, Stage.note, bind_pure_comp]

theorem pointerAt?_eq {p : PixelPoint} (hp : i.pointer = some p) (v : Viewer) :
    v.pointerAt? i p = [.hover, .press, .move].foldlM (stage? i) v := by
  have hhover (v : Viewer) : v.stage? i .hover =
      if i.hovered && v.isIdle then v.feed? (.hover (i.canvas.toLocal p)) else pure v := by
    simp only [stage?, Stage.call?, hp, Option.bind_some]
    split <;> exact id_map _
  have hpress (v : Viewer) : v.stage? i .press =
      if i.pressed && i.hovered then v.feed? (v.pressAt i.canvas p) else pure v := by
    simp only [stage?, Stage.call?, hp, Option.bind_some]
    split <;> exact id_map _
  have hmove (v : Viewer) : v.stage? i .move =
      if v.isIdle then pure v else v.feed? (.move (i.canvas.toLocal p)) := by
    simp only [stage?, Stage.call?, hp, Option.bind_some]
    split <;> exact id_map _
  simp only [pointerAt?, List.foldlM_cons, List.foldlM_nil, bind_pure, hhover, hpress, hmove,
    apply_ite_left bind]

theorem frame?_eq (v : Viewer) (i : CanvasInput) : v.frame? i = Stage.all.foldlM (stage? i) v := by
  have hrelease (v : Viewer) : v.stage? i .release =
      if i.released then v.feed? .release else pure v := by
    simp only [stage?, Stage.call?]
    split <;> exact id_map _
  have hcut (v : Viewer) : Stage.all.foldlM (stage? i) v = (do
      let v ← v.stage? i .settle
      let v ← v.stage? i .notice
      let v ← [.hover, .press, .move].foldlM (stage? i) v
      let v ← v.stage? i .release
      v.stage? i .wheel) := by
    simp only [Stage.all, List.foldlM_cons, List.foldlM_nil, bind_assoc, bind_pure]
  simp only [frame?, hcut, settle?_eq, notice?_eq, hrelease, apply_ite_left bind]
  cases hp : i.pointer with
  | none =>
    have hstill {s : Stage} (hs : s ∈ [.hover, .press, .move, .wheel]) (v : Viewer) :
        v.stage? i s = pure v := by
      simp only [List.mem_cons, List.not_mem_nil, or_false] at hs
      rcases hs with rfl | rfl | rfl | rfl <;> simp only [stage?, Stage.call?, hp] <;> rfl
    simp [hstill]
  | some p =>
    have hwheel (v : Viewer) : v.scrollAt? i p = v.stage? i .wheel := by
      simp only [scrollAt?, stage?, Stage.call?, hp, Option.bind_some]
      split <;> exact (id_map _).symm
    simp only [Option.elim_some, pointerAt?_eq hp, hwheel]

/-- The calls of a frame so far, and what they have made of the viewer. -/
def traceStage? (i : CanvasInput) (t : List (EngineInput Float) × Viewer) (s : Stage) :
    Option (List (EngineInput Float) × Viewer) := do
  return (t.1 ++ (s.call? i t.2).toList, ← t.2.stage? i s)

def traceFrame? (v : Viewer) (i : CanvasInput) : Option (List (EngineInput Float) × Viewer) :=
  Stage.all.foldlM (traceStage? i) ([], v)

def traceStep? (clock : Clock) (t : List (List (EngineInput Float)) × Viewer) :
    ViewerStep → Option (List (List (EngineInput Float)) × Viewer)
  | .frame i => do
    let (calls, v) ← t.2.traceFrame? i
    return (t.1 ++ [calls], v)
  | step => do return (t.1, ← t.2.next? clock step)

def trace? (clock : Clock) (v : Viewer) (steps : List ViewerStep) :
    Option (List (List (EngineInput Float)) × Viewer) :=
  steps.foldlM (traceStep? clock) ([], v)

theorem traceFrame?_snd (v : Viewer) (i : CanvasInput) :
    Prod.snd <$> v.traceFrame? i = v.frame? i := by
  rw [frame?_eq]
  refine map_foldlM (fun t s ↦ ?_) Stage.all ([], v)
  simp only [traceStage?, bind_pure_comp, Functor.map_map, id_map']

theorem trace?_snd (clock : Clock) (v : Viewer) (steps : List ViewerStep) :
    Prod.snd <$> v.trace? clock steps = v.run? clock steps := by
  refine map_foldlM (fun t step ↦ ?_) steps ([], v)
  cases step with
  | frame i =>
    rw [next?, ← traceFrame?_snd]
    simp only [traceStep?, bind_pure_comp, Functor.map_map]
  | _ => simp only [traceStep?, bind_pure_comp, Functor.map_map, id_map']

end Viewer

end Diagram
