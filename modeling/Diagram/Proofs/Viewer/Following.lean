import Diagram.Proofs.Viewer.Staging
import Mathlib.Data.List.Induction

namespace Diagram

section Comparing

open Float.Model

variable {x y z : UnpackedFloat}

theorem beq_cases (h : x.beq y = true) : x = y ∨ ∃ s t, x = .zero s ∧ y = .zero t := by
  cases x with
  | notANumber => cases y <;> cases h
  | zero s =>
    cases y with
    | zero t => exact .inr ⟨s, t, rfl, rfl⟩
    | finite t => cases t <;> cases h
    | infinity t => cases t <;> cases h
    | notANumber => cases h
  | infinity s =>
    cases y with
    | infinity t => cases s <;> cases t <;> first | exact .inl rfl | cases h
    | _ => cases s <;> cases h
  | finite s m e hm =>
    cases y with
    | finite t m' e' hm' =>
      have hparts : s = t ∧ (compare e e').then (compare m m') = .eq := by
        cases s <;> cases t
        · exact ⟨rfl, Ordering.swap_eq_eq.mp (Option.some.inj (eq_of_beq h))⟩
        · cases h
        · cases h
        · exact ⟨rfl, Option.some.inj (eq_of_beq h)⟩
      obtain ⟨rfl, hthen⟩ := hparts
      obtain ⟨he, hm⟩ := Ordering.then_eq_eq.mp hthen
      obtain rfl := Std.LawfulEqOrd.eq_of_compare he
      obtain rfl := Std.LawfulEqOrd.eq_of_compare hm
      exact .inl rfl
    | infinity t => cases s <;> cases t <;> cases h
    | _ => cases s <;> cases h

theorem beq_trans (h : x.beq y = true) (h' : y.beq z = true) : x.beq z = true := by
  obtain rfl | ⟨s, t, rfl, rfl⟩ := beq_cases h
  · exact h'
  · obtain rfl | ⟨s', t', -, rfl⟩ := beq_cases h'
    · rfl
    · rfl

end Comparing

/-- A number that was in single precision, or equal to what was. -/
def Widens (a : Float) (b : Float32) : Prop := ∃ c, a = toDouble c ∧ (b = c ∨ (b == c) = true)

theorem widens_toDouble (b : Float32) : Widens (toDouble b) b := ⟨b, rfl, .inl rfl⟩

theorem Widens.congr {a : Float} {b b' : Float32} (h : Widens a b) (hb : (b' == b) = true) :
    Widens a b' := by
  obtain ⟨c, rfl, rfl | hc⟩ := h
  · exact ⟨b, rfl, .inr hb⟩
  · exact ⟨c, rfl, .inr (beq_trans hb hc)⟩

def Size.Covers (size : Size Float) (p : PixelPoint) : Prop :=
  Widens size.width p.x ∧ Widens size.height p.y

namespace Viewer

variable {v v' : Viewer} {i : CanvasInput} {s : Stage} {call : Option (EngineInput Float)}

theorem stage_cases (h : v.stage? i s = some v') :
    ∃ call m, s.Asks i v call ∧ v.ask? call = some m ∧ v' = s.note i m := by
  rw [stage?, Option.map_eq_map, Option.map_eq_some_iff] at h
  obtain ⟨m, hm, rfl⟩ := h
  exact ⟨_, m, s.asks i v, hm, rfl⟩

/-- What a viewer keeps of its engine is right. -/
structure InStep (v : Viewer) : Prop where
  covers : v.engine.area.Covers v.canvasSize
  inside_eq : v.engine.pointer.inside = v.inside

theorem InStep.stage (hv : v.InStep) (h : v.stage? i s = some v') : v'.InStep := by
  obtain ⟨call, m, hasks, hm, rfl⟩ := stage_cases h
  have hl : ∀ x ∈ call, ¬ x.Loads := by
    rintro x hx
    cases hasks <;> cases hx <;> exact id
  have harea := ask_area hm
  have hinside := ask_inside hl hm
  have hsize : m.canvasSize = v.canvasSize := by rw [ask_eq hm]
  have hin (h : m.engine.pointer.inside = v.engine.pointer.inside) :
      m.engine.pointer.inside = m.inside := by rw [h, hv.inside_eq, ask_eq hm]
  cases hasks with
  | fit _ _ | resize _ => exact ⟨harea ▸ ⟨widens_toDouble _, widens_toDouble _⟩, hin hinside⟩
  | same _ hx hy =>
    exact ⟨harea ▸ ⟨hv.covers.1.congr hx, hv.covers.2.congr hy⟩, hin hinside⟩
  | enter hh | leave hh => exact ⟨hsize ▸ harea ▸ hv.covers, hinside.trans hh.symm⟩
  | stay hh => exact ⟨hsize ▸ harea ▸ hv.covers, hinside.trans (hv.inside_eq.trans hh.symm)⟩
  | nothing hs hn _ =>
    rw [s.note_eq i m hs hn]
    exact ⟨hsize ▸ harea ▸ hv.covers, hin hinside⟩
  | _ => exact ⟨hsize ▸ harea ▸ hv.covers, hin hinside⟩

theorem stages_eq {stages : List Stage} (h : stages.foldlM (stage? i) v = some v') :
    v' = { stages.foldl (fun v s ↦ s.note i v) v with display := v'.display } := by
  induction stages using List.reverseRecOn generalizing v' with
  | nil =>
    cases h
    rfl
  | append_singleton stages s ih =>
    obtain ⟨m, hm, hs⟩ := foldlM_concat h
    obtain ⟨call, k, -, hk, rfl⟩ := stage_cases hs
    rw [ask_eq hk, ih hm, s.note_display, s.note_display, List.foldl_append]
    rfl

theorem frame_eq (h : v.frame? i = some v') :
    v' = { v with
      display := v'.display
      fitted := v.fitted || i.hasArea
      canvasSize := i.canvas.size
      inside := i.hovered } := by
  rw [frame?_eq] at h
  exact stages_eq h

theorem rests_of_stage (hs : s ≠ .press ∨ ¬ (i.pressed ∧ i.hovered)) (h : v.stage? i s = some v')
    (hg : v.engine.pointer.gesture = .idle) : v'.engine.pointer.gesture = .idle := by
  obtain ⟨call, m, hasks, hm, rfl⟩ := stage_cases h
  have hx : ∀ x ∈ call, x.presses = false := by
    rintro x hx
    cases hasks with
    | grab hp hh _ | press hp hh _ => simp [hp, hh] at hs
    | _ => cases hx <;> rfl
  rw [s.note_engine]
  exact ask_rests hx hm hg

theorem rests_of_stages {stages : List Stage} (hs : .press ∉ stages ∨ ¬ (i.pressed ∧ i.hovered))
    (h : stages.foldlM (stage? i) v = some v') (hg : v.engine.pointer.gesture = .idle) :
    v'.engine.pointer.gesture = .idle := by
  refine foldlM_steps (P := fun m ↦ m.engine.pointer.gesture = .idle) h hg fun s hmem hstage hg ↦ ?_
  exact rests_of_stage (hs.imp_left fun hpress heq ↦ hpress (heq ▸ hmem)) hstage hg

theorem rests_of_released (hr : i.released = true) (h : v.frame? i = some v') :
    v'.engine.pointer.gesture = .idle := by
  rw [frame?_eq] at h
  have hcut : Stage.all =
      [Stage.settle, .notice, .hover, .press, .move] ++ [Stage.release] ++ [Stage.wheel] := rfl
  rw [hcut] at h
  obtain ⟨m, hm, hwheel⟩ := foldlM_concat h
  obtain ⟨k, -, hrelease⟩ := foldlM_concat hm
  refine rests_of_stage (s := .wheel) (.inl nofun) hwheel ?_
  obtain ⟨call, k', hasks, hm', rfl⟩ := stage_cases hrelease
  cases hasks with
  | release _ => exact Engine.rests_of_release (feed_next hm').2
  | hold hr' => simp [hr] at hr'
  | nothing _ _ hr' => exact absurd rfl hr'

variable {t t' : List (EngineInput Float) × Viewer} {calls : List (EngineInput Float)}

theorem traceStage_cases (h : traceStage? i t s = some t') :
    ∃ call m, s.Asks i t.2 call ∧ t.2.ask? call = some m ∧
      t' = (t.1 ++ call.toList, s.note i m) := by
  simp only [traceStage?, stage?, bind_pure_comp, Option.map_eq_map, Option.map_eq_some_iff] at h
  obtain ⟨_, ⟨m, hm, rfl⟩, rfl⟩ := h
  exact ⟨_, m, s.asks i t.2, hm, rfl⟩

/-- What a frame asks of the engine is all that it does to it. -/
theorem run_of_traceFrame (h : v.traceFrame? i = some (calls, v')) :
    v.engine.run? calls = some v'.engine := by
  refine foldlM_steps (P := fun t ↦ v.engine.run? t.1 = some t.2.engine) h rfl fun s _ hs ht ↦ ?_
  obtain ⟨call, m, -, hm, rfl⟩ := traceStage_cases hs
  rw [Engine.run?_append_of_run ht, ask_run hm, s.note_engine]

theorem fits_of_stages {stages : List Stage} (hs : .settle ∉ stages)
    (h : stages.foldlM (traceStage? i) t = some t') :
    t'.1.filter EngineInput.isFit = t.1.filter EngineInput.isFit := by
  refine foldlM_steps (P := fun k ↦ k.1.filter EngineInput.isFit = t.1.filter EngineInput.isFit) h
    rfl fun s hmem hstage ht ↦ ?_
  obtain ⟨call, m, hasks, -, rfl⟩ := traceStage_cases hstage
  have hcall : call.toList.filter EngineInput.isFit = [] := by
    cases hasks with
    | fit | resize | same => exact absurd hmem hs
    | _ => rfl
  rw [List.filter_append, ht, hcall, List.append_nil]

theorem fits_of_traceFrame (h : v.traceFrame? i = some (calls, v')) :
    calls.filter EngineInput.isFit = if !v.fitted && i.hasArea then [i.fit] else [] := by
  rw [traceFrame?, Stage.all, List.foldlM_cons, Option.bind_eq_bind, Option.bind_eq_some_iff] at h
  obtain ⟨t, hsettle, h⟩ := h
  rw [fits_of_stages (by simp) h]
  obtain ⟨call, k, hasks, -, rfl⟩ := traceStage_cases hsettle
  cases hasks with
  | fit hnew harea =>
    rw [hnew, harea]
    rfl
  | resize hold | same hold _ _ =>
    rw [hold]
    rfl
  | nothing hs _ _ => exact absurd rfl hs

section Answered

variable {c : Config Float} (htrack : 1.0 ≤ c.slider.length)
  (hfit : c.zoom.minFitScale ≤ c.zoom.maxFitScale)

include htrack hfit

theorem ask_total (hv : v.engine.Configured c) (hn : ∀ x ∈ call, x.Negatable) :
    ∃ v', v.ask? call = some v' ∧ v'.engine.Configured c := by
  cases call with
  | none => exact ⟨v, rfl, hv⟩
  | some x =>
    have hx : ¬ v.engine.Stuck x := by
      rw [hv.stuck_iff (hn x rfl)]
      cases x <;> simp [Engine.Strands, htrack, hfit]
    have hd : v.display.next? (.engine x) ≠ none := by
      rw [ne_eq, Display.next?_eq_none_iff]
      rintro ⟨y, hy, hs⟩
      cases hy
      exact hx hs
    obtain ⟨d, hd⟩ := Option.ne_none_iff_exists'.mp hd
    refine ⟨{ v with display := d }, ?_, Display.next_configured hv hd⟩
    rw [ask?, feed?_eq, hd]
    rfl

theorem traceStage_total (hv : t.2.InStep ∧ t.2.engine.Configured c) (s : Stage) :
    ∃ t', traceStage? i t s = some t' ∧ t'.2.InStep ∧ t'.2.engine.Configured c := by
  obtain ⟨m, hm, hc⟩ := ask_total htrack hfit hv.2 (s.asks i t.2).negatable
  have hs : t.2.stage? i s = some (s.note i m) := by
    rw [stage?, hm]
    rfl
  refine ⟨(t.1 ++ (s.call? i t.2).toList, s.note i m), ?_, hv.1.stage hs, ?_⟩
  · rw [traceStage?, hs]
    rfl
  · rwa [s.note_engine]

theorem traceFrame_total (hv : v.InStep) (hc : v.engine.Configured c) (i : CanvasInput) :
    ∃ calls v', v.traceFrame? i = some (calls, v') ∧ v'.InStep ∧ v'.engine.Configured c := by
  obtain ⟨⟨calls, v'⟩, h, hv'⟩ : ∃ t, Stage.all.foldlM (traceStage? i) ([], v) = some t ∧
      t.2.InStep ∧ t.2.engine.Configured c :=
    foldlM_total (fun s _ ht ↦ traceStage_total htrack hfit ht s) ⟨hv, hc⟩
  exact ⟨calls, v', h, hv'⟩

end Answered

end Viewer

def ViewerStep.canvas? : ViewerStep → Option CanvasInput
  | frame i => some i
  | panel _ | collect => none

def ViewerStep.canvases (steps : List ViewerStep) : List CanvasInput := steps.filterMap canvas?

theorem ViewerStep.canvases_concat (steps : List ViewerStep) (step : ViewerStep) :
    canvases (steps ++ [step]) = canvases steps ++ step.canvas?.toList := by
  cases step <;> simp [canvases, ViewerStep.canvas?]

namespace CanvasInput

/-- What each frame has to fit: only the first canvas with an area is fitted into. -/
def fits : List CanvasInput → List (List (EngineInput Float))
  | [] => []
  | i :: rest => if i.hasArea then [i.fit] :: rest.map (fun _ ↦ []) else [] :: fits rest

/-- The button went down over the canvas, and has not come up in that frame or since. -/
def ButtonHeld (frames : List CanvasInput) : Prop :=
  ∃ before i after, frames = before ++ i :: after ∧ i.pressed = true ∧ i.hovered = true ∧
    ∀ j ∈ i :: after, j.released = false

theorem fits_concat (frames : List CanvasInput) (i : CanvasInput) :
    fits (frames ++ [i]) =
      fits frames ++ [if !frames.any hasArea && i.hasArea then [i.fit] else []] := by
  induction frames with
  | nil =>
    simp only [List.nil_append, fits, List.any_nil, Bool.not_false, Bool.true_and]
    split <;> rfl
  | cons j frames ih =>
    by_cases hj : j.hasArea
    · simp [fits, hj]
    · simp [fits, hj, ih]

theorem ButtonHeld.concat {frames : List CanvasInput} {i : CanvasInput} (h : ButtonHeld frames)
    (hi : i.released = false) : ButtonHeld (frames ++ [i]) := by
  obtain ⟨before, j, after, rfl, hp, hin, hr⟩ := h
  refine ⟨before, j, after ++ [i], by simp, hp, hin, fun k hk ↦ ?_⟩
  rw [← List.cons_append, List.mem_append, List.mem_singleton] at hk
  rcases hk with hk | rfl
  · exact hr k hk
  · exact hi

end CanvasInput

namespace Viewer

/-- A call that leaves alone what the canvas tells the engine. -/
structure Mild (v : Viewer) (x : EngineInput Float) : Prop where
  not_loads : ¬ x.Loads
  negatable : x.Negatable
  notice_eq : x.notice? = none
  presses_eq : x.presses = false
  covers : ∀ size ∈ x.size?, size.Covers v.canvasSize

theorem mild_panelCall (v : Viewer) (a : PanelAction) : ∀ x ∈ v.panelCall? a, v.Mild x := by
  intro x hx
  cases a with
  | resetView =>
    cases hx
    exact ⟨id, trivial, rfl, rfl, fun size hs ↦ by cases hs; exact ⟨widens_toDouble _, widens_toDouble _⟩⟩
  | onSelection a =>
    obtain ⟨id', -, hx⟩ := Option.bind_eq_some_iff.mp hx
    cases a with
    | setStatus status =>
      simp only [SelectionAction.call?] at hx
      split at hx <;> cases hx
      exact ⟨id, trivial, rfl, rfl, nofun⟩
    | _ =>
      cases hx
      exact ⟨id, trivial, rfl, rfl, nofun⟩
  | _ =>
    cases hx
    exact ⟨id, trivial, rfl, rfl, nofun⟩

structure Following (c : Config Float) (frames : List CanvasInput)
    (calls : List (List (EngineInput Float))) (v : Viewer) : Prop where
  configured : v.engine.Configured c
  inStep : v.InStep
  fitted_eq : v.fitted = frames.any CanvasInput.hasArea
  fits_eq : calls.map (List.filter EngineInput.isFit) = CanvasInput.fits frames
  held : v.engine.pointer.gesture ≠ .idle → CanvasInput.ButtonHeld frames

variable {v v' : Viewer} {c : Config Float} {frames : List CanvasInput}
  {calls : List (List (EngineInput Float))}

theorem following_start {graph : Payload Float} (h : withGraph c graph = .ok v) :
    Following c [] [] v := by
  obtain ⟨e, he, rfl⟩ := map_ok h
  have hengine : (ofEngine e).engine = e :=
    (Display.engine_present _).trans (Display.engine_detach _)
  have hconfigured : e.Configured c :=
    Engine.run_configured (Engine.run?_cons_of_next (Engine.next_load he) [])
  obtain ⟨harea, hpointer⟩ : e.area = .zero ∧ e.pointer = .resting c.editMode := by
    obtain ⟨scene, -, he⟩ := bind_ok he
    cases he
    exact ⟨rfl, rfl⟩
  have hzero : Widens 0.0 0.0 := ⟨0.0, by decide +kernel, .inl rfl⟩
  refine ⟨hengine.symm ▸ hconfigured, ⟨?_, ?_⟩, rfl, rfl, fun hg ↦ ?_⟩
  · rw [hengine, harea]
    exact ⟨hzero, hzero⟩
  · rw [hengine, hpointer]
    rfl
  · rw [hengine, hpointer] at hg
    exact absurd rfl hg

theorem Following.ask {call : Option (EngineInput Float)} (h : Following c frames calls v)
    (hcall : ∀ x ∈ call, v.Mild x) (ha : v.ask? call = some v') :
    Following c frames calls v' := by
  have hconfigured : v'.engine.Configured c :=
    Engine.run_induct (ask_run ha) h.configured Engine.Effect.configured
  have harea := ask_area ha
  have hinside := ask_inside (fun x hx ↦ (hcall x hx).not_loads) ha
  have hrests := ask_rests (fun x hx ↦ (hcall x hx).presses_eq) ha
  have hnotice : call.bind EngineInput.notice? = none :=
    Option.bind_eq_none_iff.mpr fun x hx ↦ (hcall x hx).notice_eq
  have hcovers : v'.engine.area.Covers v.canvasSize := by
    rw [harea]
    cases hs : call.bind EngineInput.size? with
    | none => exact h.inStep.covers
    | some size =>
      obtain ⟨x, hx, hsize⟩ := Option.bind_eq_some_iff.mp hs
      exact (hcall x hx).covers size hsize
  rw [hnotice, Option.getD_none, h.inStep.inside_eq] at hinside
  have hkeep := ask_eq ha
  refine ⟨hconfigured, ⟨?_, ?_⟩, ?_, h.fits_eq, fun hg ↦ h.held fun hg' ↦ hg (hrests hg')⟩
  · rw [hkeep]
    exact hcovers
  · rw [hkeep]
    exact hinside
  · rw [hkeep]
    exact h.fitted_eq

theorem Following.collect (h : Following c frames calls v) {clock : Clock}
    (hc : v.collect? clock = some v') :
    Following c frames calls v' := by
  simp only [collect?, Option.bind_eq_bind, Option.bind_eq_some_iff] at hc
  obtain ⟨m, hm, hc⟩ := hc
  cases hc
  have hdrain : ∀ x ∈ some EngineInput.drain, v.Mild x := by
    intro x hx
    cases hx
    exact ⟨id, trivial, rfl, rfl, nofun⟩
  -- The lines are nothing to the engine.
  obtain ⟨hconfigured, ⟨hcovers, hinside⟩, hfitted, hfits, hheld⟩ := h.ask hdrain hm
  exact ⟨hconfigured, ⟨hcovers, hinside⟩, hfitted, hfits, hheld⟩

theorem frame_of_trace {i : CanvasInput} {now : List (EngineInput Float)}
    (h : v.traceFrame? i = some (now, v')) : v.frame? i = some v' := by
  rw [← traceFrame?_snd, h]
  rfl

theorem Following.frame {i : CanvasInput} {now : List (EngineInput Float)}
    (h : Following c frames calls v) (ht : v.traceFrame? i = some (now, v'))
    (hs : v'.InStep) (hc : v'.engine.Configured c) :
    Following c (frames ++ [i]) (calls ++ [now]) v' := by
  have hf := frame_of_trace ht
  refine ⟨hc, hs, ?_, ?_, fun hg ↦ ?_⟩
  · rw [frame_eq hf]
    simp [h.fitted_eq]
  · rw [List.map_append, h.fits_eq, CanvasInput.fits_concat, ← h.fitted_eq, List.map_singleton,
      fits_of_traceFrame ht]
  · have hr : i.released = false :=
      Bool.eq_false_iff.mpr fun hr ↦ hg (rests_of_released hr hf)
    by_cases hp : i.pressed ∧ i.hovered
    · exact ⟨frames, i, [], rfl, hp.1, hp.2, fun j hj ↦ List.mem_singleton.mp hj ▸ hr⟩
    · rw [frame?_eq] at hf
      exact (h.held fun hrest ↦ hg (rests_of_stages (.inr hp) hf hrest)).concat hr

section Answered

variable (htrack : 1.0 ≤ c.slider.length) (hfit : c.zoom.minFitScale ≤ c.zoom.maxFitScale)

include htrack hfit

theorem Following.step (h : Following c frames calls v) (clock : Clock) (step : ViewerStep) :
    ∃ calls' v', traceStep? clock (calls, v) step = some (calls', v') ∧
      Following c (frames ++ step.canvas?.toList) calls' v' := by
  cases step with
  | frame i =>
    obtain ⟨now, v', ht, hs, hc⟩ := traceFrame_total htrack hfit h.inStep h.configured i
    refine ⟨calls ++ [now], v', ?_, h.frame ht hs hc⟩
    rw [traceStep?, ht]
    rfl
  | panel a =>
    have hmild := mild_panelCall v a
    obtain ⟨v', ha, -⟩ := ask_total htrack hfit h.configured fun x hx ↦ (hmild x hx).negatable
    refine ⟨calls, v', ?_, ?_⟩
    · simp only [traceStep?, next?, ha]
      rfl
    · rw [ViewerStep.canvas?, Option.toList_none, List.append_nil]
      exact h.ask hmild ha
  | collect =>
    obtain ⟨m, hm, -⟩ : ∃ m, v.ask? (some .drain) = some m ∧ m.engine.Configured c :=
      ask_total htrack hfit h.configured (by simp [EngineInput.Negatable])
    obtain ⟨v', hv'⟩ : ∃ v', v.collect? clock = some v' := by
      rw [ask?] at hm
      simp only [collect?, hm]
      exact ⟨_, rfl⟩
    refine ⟨calls, v', ?_, ?_⟩
    · simp only [traceStep?, next?, hv']
      rfl
    · rw [ViewerStep.canvas?, Option.toList_none, List.append_nil]
      exact h.collect hv'

theorem Following.run (h : Following c [] [] v) (clock : Clock) (steps : List ViewerStep) :
    ∃ calls v', v.trace? clock steps = some (calls, v') ∧
      Following c (ViewerStep.canvases steps) calls v' := by
  induction steps using List.reverseRecOn with
  | nil => exact ⟨[], v, rfl, h⟩
  | append_singleton steps step ih =>
    obtain ⟨calls, m, hm, hfollow⟩ := ih
    obtain ⟨calls', v', hstep, hfollow'⟩ := hfollow.step htrack hfit clock step
    refine ⟨calls', v', ?_, ?_⟩
    · rw [trace?, List.foldlM_append, ← trace?, hm]
      simp [hstep]
    · rwa [ViewerStep.canvases_concat]

end Answered

/-- After each frame, whatever came before and whatever was asked for in between, the engine has the
size of the canvas and knows whether the pointer is over it; the diagram has been fitted into the
first canvas that had an area, and into no other; and the pointer rests unless the button went down
over the canvas and has not come up since. -/
theorem frame_follows {graph : Payload Float} (h : withGraph c graph = .ok v)
    (htrack : 1.0 ≤ c.slider.length) (hfit : c.zoom.minFitScale ≤ c.zoom.maxFitScale)
    (clock : Clock) (steps : List ViewerStep) (i : CanvasInput) :
    ∃ before after earlier now, v.run? clock steps = some before ∧ before.frame? i = some after ∧
      v.trace? clock (steps ++ [ViewerStep.frame i]) = some (earlier ++ [now], after) ∧
      before.engine.run? now = some after.engine ∧
      after.engine.area.Covers i.canvas.size ∧
      after.engine.pointer.inside = i.hovered ∧
      (earlier ++ [now]).map (List.filter EngineInput.isFit) =
        CanvasInput.fits (ViewerStep.canvases (steps ++ [ViewerStep.frame i])) ∧
      (i.released = true → after.engine.pointer.gesture = .idle) ∧
      (after.engine.pointer.gesture ≠ .idle →
        CanvasInput.ButtonHeld (ViewerStep.canvases (steps ++ [ViewerStep.frame i]))) := by
  obtain ⟨earlier, before, hbefore, hfollow⟩ := (following_start h).run htrack hfit clock steps
  obtain ⟨now, after, ht, hs, hc⟩ :=
    traceFrame_total htrack hfit hfollow.inStep hfollow.configured i
  have hrun : v.run? clock steps = some before := by
    rw [← trace?_snd, hbefore]
    rfl
  have hf := frame_of_trace ht
  have htrace : v.trace? clock (steps ++ [ViewerStep.frame i]) = some (earlier ++ [now], after) := by
    rw [trace?, List.foldlM_append, ← trace?, hbefore]
    simp [traceStep?, ht]
  have hlast := hfollow.frame ht hs hc
  have hsize : after.canvasSize = i.canvas.size := by rw [frame_eq hf]
  have hin : after.inside = i.hovered := by rw [frame_eq hf]
  rw [ViewerStep.canvases_concat]
  exact ⟨before, after, earlier, now, hrun, hf, htrace, run_of_traceFrame ht, hsize ▸ hs.covers,
    hs.inside_eq.trans hin, hlast.fits_eq, fun hr ↦ rests_of_released hr hf, hlast.held⟩

def hovering (pressed released : Bool) : CanvasInput where
  canvas := ⟨.origin, ⟨800.0, 600.0⟩⟩
  hovered := true
  pressed := pressed
  released := released
  pointer := some ⟨400.0, 300.0⟩
  scroll := 0.0

theorem frame_follows_reset : ∃ (v v' : Viewer) (calls : List (List (EngineInput Float))),
    withGraph .standard ⟨[⟨"a", none, 0.0, 0.0, "ready"⟩], []⟩ = .ok v ∧
      v.trace? .eachSecond
        [.frame (hovering true false), .panel .resetView, .frame (hovering false true)] =
          some (calls, v') ∧
      calls.map (List.filter EngineInput.isFit) = [[(hovering true false).fit], []] ∧
      v'.engine.pointer.inside = true ∧ v'.engine.pointer.gesture = .idle := by
  have hg : Payload.Loadable (α := Float) ⟨[⟨"a", none, 0.0, 0.0, "ready"⟩], []⟩ := by decide
  obtain ⟨e, he, -⟩ := (Engine.create .standard).load_loadable hg
  have hv : withGraph .standard ⟨[⟨"a", none, 0.0, 0.0, "ready"⟩], []⟩ = .ok (ofEngine e) :=
    congrArg (ofEngine <$> ·) he
  have htrack : (1.0 : Float) ≤ Config.standard.slider.length := by decide
  have hfit : (Config.standard.zoom.minFitScale : Float) ≤ Config.standard.zoom.maxFitScale := by
    decide
  have harea : (hovering true false).hasArea = true := by decide +kernel
  obtain ⟨-, v', earlier, now, -, -, htrace, -, -, hin, hfits, hidle, -⟩ :=
    frame_follows hv htrack hfit .eachSecond [.frame (hovering true false), .panel .resetView]
      (hovering false true)
  refine ⟨_, v', earlier ++ [now], hv, htrace, ?_, hin, hidle rfl⟩
  rw [hfits]
  change CanvasInput.fits [hovering true false, hovering false true] = _
  rw [CanvasInput.fits, if_pos harea]
  rfl

end Viewer

end Diagram
