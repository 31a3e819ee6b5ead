import Diagram.Proofs.Engine.Loading
import Diagram.Proofs.Engine.Presenting
import Diagram.Proofs.Scene.Checking

namespace Diagram

variable {α β γ ε : Type}

/-- A loop that checks what it reaches for fails where, and only where, the unchecked one does. -/
theorem run_foldlM_eq {P : γ → Prop} {f : γ → β → ExceptT ε Option γ} {g : γ → β → Except ε γ}
    (step : ∀ {s x}, P s → (f s x).run = some (g s x))
    (keep : ∀ {s x s'}, g s x = .ok s' → P s → P s') (xs : List β) {s : γ} (hs : P s) :
    (xs.foldlM f s).run = some (xs.foldlM g s) := by
  induction xs generalizing s with
  | nil => rfl
  | cons x xs ih =>
    rw [List.foldlM_cons, List.foldlM_cons, ExceptT.run_bind, step hs]
    cases hg : g s x with
    | error _ => rfl
    | ok s' => exact ih (keep hg hs)

namespace Engine

namespace Checked

variable {e : Engine α}

def select (e : Engine α) (id : String) : ExceptT SceneError Option (Engine α) := do
  return { e with scene := ← Scene.Checked.select e.scene id }

theorem select_eq (hs : e.scene.Sound) (id : String) :
    (select e id).run = some (e.select id) := by
  rw [select, ExceptT.run_bind, Scene.Checked.select_eq hs, Engine.select]
  cases e.scene.select id <;> rfl

variable [Arith α]

def layEdge (s : Scene α) (x : EdgeEntry) : ExceptT SceneError Option (Scene α) :=
  Prod.snd <$> Scene.Checked.addEdge s x.source x.target x.status

def sceneOf (e : Engine α) (graph : Payload α) : ExceptT SceneError Option (Scene α) := do
  let s ← ExceptT.mk (some (graph.nodes.foldlM Scene.layNode
    (.empty e.config.metrics e.scene.log.readings)))
  let s ← graph.edges.foldlM layEdge s
  Scene.Checked.setEnabled s (s.finished e.config) false

def load (e : Engine α) (graph : Payload α) : ExceptT SceneError Option (Engine α) := do
  let scene ← sceneOf e graph
  return { e with scene, pointer := .resting e.pointer.editMode }

def selectAndCenter (e : Engine α) (id : String) : ExceptT SceneError Option (Engine α) := do
  let e ← select e id
  match e.scene.node? id with
  | some n => return { e with viewport := e.viewport.centerOn n.position e.area }
  | none => return e

def perform (e : Engine α) : PointerAction α → Option (Engine α)
  | .dragSelection delta => do
    let scale := e.viewport.scale
    let scene ← Scene.Checked.moveSelected e.scene ⟨delta.x / scale, delta.y / scale⟩
    return { e with scene }
  | .select id => do
    match ← (select e id).run with
    | .ok e => return e
    | .error _ => return e
  | action => e.perform? action

def actOn (e : Engine α) : Option (PointerAction α) → Option (Outcome α)
  | none => some e.unseen
  | some action => do return (← perform e action).redrawn

def onScene (e : Engine α) (scene : Option (Scene α)) : Option (Outcome α) := do
  return { e with scene := ← scene }.redrawn

def step (e : Engine α) : EngineInput α → Option (Outcome α)
  | .load graph => do
    match ← (load e graph).run with
    | .ok e => return e.redrawn
    | .error err => return e.unseen (.failed err)
  | .select id => do return e.selection (← (select e id).run)
  | .selectAndCenter id => do return e.selection (← (selectAndCenter e id).run)
  | .clearSelection => onScene e (Scene.Checked.clearSelection e.scene)
  | .move screen =>
    let (action, pointer) := e.pointer.move screen
    actOn { e with pointer } action
  | .release =>
    let (action, pointer) := e.pointer.release
    actOn { e with pointer } action
  | .setEnabled ids enabled => onScene e (Scene.Checked.setEnabled e.scene ids enabled)
  | .enableSelected => onScene e (Scene.Checked.setSelectionEnabled e.scene true)
  | .disableSelected => onScene e (Scene.Checked.setSelectionEnabled e.scene false)
  | .disableAncestors => onScene e (Scene.Checked.disableAncestors e.scene)
  | .enableAll => onScene e (Scene.Checked.enableAll e.scene)
  | .setStatus status => onScene e (Scene.Checked.setStatus e.scene status)
  | input => e.step? input

theorem layEdge_eq {s : Scene α} (hs : s.Indexed) (x : EdgeEntry) :
    (layEdge s x).run = some (s.layEdge x) := by
  rw [layEdge, ExceptT.run_map, Scene.Checked.addEdge_eq hs]
  rfl

theorem sceneOf_eq (e : Engine α) (graph : Payload α) :
    (sceneOf e graph).run = some (e.sceneOf graph) := by
  rw [sceneOf, Engine.sceneOf_eq, ExceptT.run_bind, ExceptT.run_mk]
  cases hn : graph.nodes.foldlM Scene.layNode (.empty e.config.metrics e.scene.log.readings) with
  | error _ => rfl
  | ok s₁ =>
    have h₁ := Scene.layNodes_induct hn (Scene.reachable_empty _ _) .addNode
    have hedges : (graph.edges.foldlM layEdge s₁).run =
        some (graph.edges.foldlM Scene.layEdge s₁) := by
      refine run_foldlM_eq (P := Scene.Reachable e.config.metrics)
        (fun hs ↦ layEdge_eq hs.sound.indexed _) (fun hx hs ↦ ?_) graph.edges h₁
      obtain ⟨⟨k, m⟩, ha, rfl⟩ := map_ok hx
      exact .addEdge ha hs
    change (graph.edges.foldlM layEdge s₁ >>= _).run = some (graph.edges.foldlM _ s₁ >>= _)
    rw [ExceptT.run_bind, hedges]
    cases he : graph.edges.foldlM Scene.layEdge s₁ with
    | error _ => rfl
    | ok s₂ =>
      have h₂ := (Scene.layEdges_induct he h₁ .addEdge).sound.indexed
      change (liftM (Scene.Checked.setEnabled s₂ _ false) : ExceptT _ Option _).run = _
      rw [Scene.Checked.setEnabled_eq h₂]
      rfl

theorem load_eq (e : Engine α) (graph : Payload α) : (load e graph).run = some (e.load graph) := by
  rw [load, ExceptT.run_bind, sceneOf_eq, Engine.load]
  cases e.sceneOf graph <;> rfl

theorem selectAndCenter_eq (hs : e.scene.Sound) (id : String) :
    (selectAndCenter e id).run = some (e.selectAndCenter id) := by
  rw [selectAndCenter, ExceptT.run_bind, select_eq hs, Engine.selectAndCenter]
  cases e.select id with
  | error _ => rfl
  | ok m =>
    simp only [bind, Except.bind, Option.bind_some]
    cases m.scene.node? id <;> rfl

theorem perform_eq (hs : e.scene.Sound) (action : PointerAction α) :
    perform e action = e.perform? action := by
  cases action with
  | dragSelection d =>
    rw [perform, Scene.Checked.moveSelected_eq hs]
    rfl
  | select id =>
    rw [perform, select_eq hs, perform?]
    cases e.select id <;> rfl
  | _ => rfl

theorem actOn_eq (hs : e.scene.Sound) (action : Option (PointerAction α)) :
    actOn e action = e.actOn? action := by
  cases action with
  | none => rfl
  | some action => rw [actOn, perform_eq hs, actOn?]

theorem step_eq (hs : e.scene.Sound) (i : EngineInput α) : step e i = e.step? i := by
  cases i with
  | load graph =>
    rw [step, load_eq, step?]
    cases e.load graph <;> rfl
  | select id =>
    rw [step, select_eq hs]
    rfl
  | selectAndCenter id =>
    rw [step, selectAndCenter_eq hs]
    rfl
  | clearSelection =>
    rw [step, Scene.Checked.clearSelection_eq hs]
    rfl
  | move screen => exact actOn_eq (e := { e with pointer := (e.pointer.move screen).2 }) hs _
  | release => exact actOn_eq (e := { e with pointer := e.pointer.release.2 }) hs _
  | setEnabled ids enabled =>
    rw [step, Scene.Checked.setEnabled_eq hs.indexed]
    rfl
  | enableSelected =>
    rw [step, Scene.Checked.setSelectionEnabled_eq hs.marked]
    rfl
  | disableSelected =>
    rw [step, Scene.Checked.setSelectionEnabled_eq hs.marked]
    rfl
  | disableAncestors =>
    rw [step, Scene.Checked.disableAncestors_eq hs.linked]
    rfl
  | enableAll =>
    rw [step, Scene.Checked.enableAll_eq]
    rfl
  | setStatus status =>
    rw [step, Scene.Checked.setStatus_eq hs]
    rfl
  | _ => rfl

end Checked

variable [Arith α] {c : Config α} {e : Engine α}

/-- The inputs that have no outcome under a configuration whose bounds are out of order. -/
def Strands (c : Config α) (e : Engine α) : EngineInput α → Prop
  | .clickSlider _ | .clickZoom _ => ¬ 1.0 ≤ c.slider.length
  | .move _ => (∃ y, e.pointer.gesture = .draggingSlider y) ∧ ¬ 1.0 ≤ c.slider.length
  | .fit _ _ => e.scene.bounds.isEmpty = false ∧ ¬ c.zoom.minFitScale ≤ c.zoom.maxFitScale
  | _ => False

theorem Configured.stuck_iff (he : e.Configured c) {i : EngineInput α} (hi : i.Negatable) :
    e.Stuck i ↔ Strands c e i := by
  cases i with
  | wheel notches focus => exact iff_of_false (fun h ↦ hi h.2) id
  | _ => simp only [Stuck, Strands, he.policy_eq, he.track_eq]

theorem Configured.step (he : e.Configured c) {i : EngineInput α} {o : Outcome α}
    (h : e.step? i = some o) : o.engine.Configured c := by
  have hn : e.next? i = some o.engine := by
    rw [next?, h]
    rfl
  exact effects_induct (next_effects hn) he Effect.configured

end Engine

namespace Display

theorem engine_detach (d : Display α) : d.detach.engine = d.engine := by
  unfold detach
  split <;> rfl

variable [Arith α] {c : Config α} {d d' : Display α}

theorem engine_present (d : Display α) : d.present.engine = d.engine := by
  unfold present
  split <;> rfl

theorem next_configured (hd : d.engine.Configured c) {i : DisplayInput α}
    (h : d.next? i = some d') : d'.engine.Configured c := by
  cases i with
  | engine i =>
    obtain ⟨o, ho, rfl⟩ := next_engine h
    have hc := hd.step ho
    split
    · rwa [engine_present]
    · exact hc
  | attach n =>
    cases h
    rw [attach, engine_present]
    exact (engine_detach d).symm ▸ hd
  | detach =>
    cases h
    exact (engine_detach d).symm ▸ hd
  | take n =>
    cases h
    exact hd

theorem next?_eq_none_iff (d : Display α) (i : DisplayInput α) :
    d.next? i = none ↔ ∃ x, i = .engine x ∧ d.engine.Stuck x := by
  cases i with
  | engine x =>
    have hx := Engine.next?_eq_none_iff d.engine x
    rw [Engine.next?, Option.map_eq_map, Option.map_eq_none_iff] at hx
    simp only [next?, step?, Option.map_eq_map, Option.map_eq_none_iff, bind_pure_comp, hx,
      DisplayInput.engine.injEq, exists_eq_left']
  | _ => simp [next?, step?]

namespace Checked

def step (d : Display α) : DisplayInput α → Option (Reply × Display α)
  | .engine input => do
    let o ← Engine.Checked.step d.engine input
    let d := { d with engine := o.engine }
    return (o.reply, if o.redraws then d.present else d)
  | input => d.step? input

def next (d : Display α) (i : DisplayInput α) : Option (Display α) := Prod.snd <$> step d i

def run (d : Display α) (inputs : List (DisplayInput α)) : Option (Display α) :=
  inputs.foldlM next d

theorem step_eq (hd : d.engine.Configured c) (i : DisplayInput α) : step d i = d.step? i := by
  cases i with
  | engine i => rw [step, Engine.Checked.step_eq hd.reachable.sound, step?]
  | _ => rfl

theorem next_eq (hd : d.engine.Configured c) (i : DisplayInput α) : next d i = d.next? i := by
  rw [next, step_eq hd, next?]

theorem run_configured {inputs : List (DisplayInput α)}
    (h : run (unattached (.create c)) inputs = some d) :
    (unattached (.create c)).run? inputs = some d ∧ d.engine.Configured c := by
  induction inputs using List.reverseRecOn generalizing d with
  | nil =>
    cases h
    exact ⟨rfl, Engine.configured_create c⟩
  | append_singleton inputs i ih =>
    -- The state before the last input is one of the plain run, so whatever the last checks is there.
    obtain ⟨m, hm, hi⟩ := foldlM_concat h
    obtain ⟨hrun, hc⟩ := ih hm
    rw [next_eq hc] at hi
    refine ⟨?_, next_configured hc hi⟩
    rw [run?, List.foldlM_append, ← run?, hrun]
    simp [hi]

/-- In every run, of loads that succeed or fail and of whatever else reaches an engine, all that one
reaches for is there. An input goes unanswered only where a value has to be brought into a range that
is none, or where the wheel is to turn by the number of notches that has no negation. -/
theorem next_eq_none_iff {inputs : List (DisplayInput α)}
    (h : run (unattached (.create c)) inputs = some d) :
    (unattached (.create c)).run? inputs = some d ∧ d.engine.scene.InRange ∧
      (∀ i, step d i = d.step? i ∧ ((∀ x, i = .engine x → x.Negatable) →
        (next d i = none ↔ ∃ x, i = .engine x ∧ Engine.Strands c d.engine x))) ∧
      ∀ focus, next d (.engine (.wheel Int32.minValue focus)) = none ↔
        d.engine.pointer.inside = true := by
  obtain ⟨hrun, hd⟩ := run_configured h
  refine ⟨hrun, hd.reachable.sound.inRange, fun i ↦ ⟨step_eq hd i, fun hi ↦ ?_⟩, fun focus ↦ ?_⟩
  · rw [next_eq hd, Display.next?_eq_none_iff]
    refine exists_congr fun x ↦ and_congr_right fun hx ↦ ?_
    exact hd.stuck_iff (hi x hx)
  · rw [next_eq hd, Display.next?_eq_none_iff]
    simp [Engine.Stuck]

def shortTrack : Config Float :=
  { Config.standard with slider := { SliderTrack.standard with length := 0.5 } }

theorem next_eq_none_iff_shortTrack : ∃ d : Display Float,
    run (unattached (.create shortTrack)) [.engine (.load ⟨[⟨"a", none, 0.0, 0.0, "ready"⟩], []⟩)] =
        some d ∧ d.engine.scene.InRange ∧ next d (.engine (.clickZoom true)) = none := by
  have h₀ : run (unattached (.create shortTrack)) [] = some (unattached (.create shortTrack)) := rfl
  obtain ⟨d, hd⟩ : ∃ d, next (unattached (.create shortTrack))
      (.engine (.load ⟨[⟨"a", none, 0.0, 0.0, "ready"⟩], []⟩)) = some d := by
    rw [← Option.ne_none_iff_exists', ne_eq,
      ((next_eq_none_iff h₀).2.2.1 _).2 (by rintro _ ⟨⟩; trivial)]
    rintro ⟨x, hx, hs⟩
    cases hx
    exact hs
  have h : run (unattached (.create shortTrack))
      [.engine (.load ⟨[⟨"a", none, 0.0, 0.0, "ready"⟩], []⟩)] = some d := by
    rw [run, List.foldlM_cons, hd]
    rfl
  obtain ⟨-, hrange, hnext, -⟩ := next_eq_none_iff h
  refine ⟨d, h, hrange, ((hnext _).2 (by rintro _ ⟨⟩; trivial)).mpr ⟨.clickZoom true, rfl, ?_⟩⟩
  show ¬ (1.0 : Float) ≤ 0.5
  decide

end Checked

end Display

end Diagram
