import Diagram.Proofs.Engine.Logging
import Diagram.Proofs.Viewer.Following

namespace Diagram

/-- What can happen to a viewer: what happens in its window, and whatever else reaches its engine or
its slots. -/
inductive ViewerActivity
  | step (s : ViewerStep)
  | input (i : DisplayInput Float)

namespace ViewerActivity

/-- Whether events that nobody has seen are thrown away: with the scene that another graph replaces, or
by someone who takes the log and does not list it. -/
def Discards : ViewerActivity → Prop
  | input (.engine i) => i.Loads ∨ i = .drain
  | _ => False

end ViewerActivity

namespace Viewer

variable {clock : Clock} {v v' : Viewer} {x : ViewerActivity}

def act? (clock : Clock) (v : Viewer) : ViewerActivity → Option Viewer
  | .step s => v.next? clock s
  | .input i => Prod.snd <$> v.input? i

def pending (v : Viewer) : List LoggedEvent := v.engine.scene.log.entries.toList

def takes (v : Viewer) : ViewerActivity → List LoggedEvent
  | .step .collect => v.engine.scene.drain.1.toList
  | _ => []

/-- A viewer, with all events that were logged and all that were handed over to be listed. -/
structure Account where
  viewer : Viewer
  logged : List LoggedEvent
  drained : List LoggedEvent

/-- What stands in the log beyond what was left there is new. -/
def Account.next? (clock : Clock) (a : Account) (x : ViewerActivity) : Option Account := do
  let v ← a.viewer.act? clock x
  let taken := a.viewer.takes x
  return {
    viewer := v
    logged := a.logged ++ v.pending.drop (a.viewer.pending.length - taken.length)
    drained := a.drained ++ taken }

def account? (clock : Clock) (v : Viewer) (activities : List ViewerActivity) : Option Account :=
  activities.foldlM (Account.next? clock) ⟨v, v.pending, []⟩

theorem account?_viewer (clock : Clock) (v : Viewer) (activities : List ViewerActivity) :
    Account.viewer <$> v.account? clock activities = activities.foldlM (act? clock) v :=
  map_foldlM (fun _ _ ↦ by simp only [Account.next?, bind_pure_comp, Functor.map_map, id_map'])
    activities _

def latest (lines : List String) : List String := lines.drop (lines.length - maxLines)

theorem length_latest (lines : List String) :
    (latest lines).length = min maxLines lines.length := by
  rw [latest, List.length_drop]
  omega

theorem pushLine_latest (lines : List String) (line : String) :
    pushLine (latest lines) line = latest (lines ++ [line]) := by
  have hshift : latest lines ++ [line] = (lines ++ [line]).drop (lines.length - maxLines) :=
    (List.drop_append_of_le_length (Nat.sub_le ..)).symm
  have hlength := length_latest lines
  simp only [pushLine, List.length_append, List.length_singleton, hlength]
  rw [hshift]
  split
  · next hfull =>
    rw [List.tail_drop, latest, List.length_append, List.length_singleton]
    congr 1
    omega
  · next hroom =>
    rw [latest, List.length_append, List.length_singleton]
    congr 1
    omega

theorem foldl_pushLine (new lines : List String) :
    new.foldl pushLine (latest lines) = latest (lines ++ new) := by
  induction new generalizing lines with
  | nil => rw [List.append_nil, List.foldl_nil]
  | cons line new ih => rw [List.foldl_cons, pushLine_latest, ih, List.append_assoc,
      List.singleton_append]

theorem collect_cases (h : v.collect? clock = some v') :
    v'.lines = (v.pending.map clock.line).foldl pushLine v.lines ∧
      v.engine.next? .drain = some v'.engine := by
  simp only [collect?, Option.bind_eq_bind, Option.bind_eq_some_iff] at h
  obtain ⟨m, hm, h⟩ := h
  cases h
  exact ⟨rfl, (feed_next hm).2⟩

theorem exists_collect (clock : Clock) (v : Viewer) : ∃ v', v.collect? clock = some v' := ⟨_, rfl⟩

theorem collect_pending (h : v.collect? clock = some v') : v'.pending = [] := by
  have hnext := (collect_cases h).2
  simp only [Engine.next?, Engine.step?, Option.map_eq_map, Option.map_some,
    Option.some.injEq] at hnext
  rw [pending, ← hnext]
  rfl

theorem act_lines (hx : x ≠ .step .collect) (h : v.act? clock x = some v') : v'.lines = v.lines := by
  cases x with
  | step s =>
    cases s with
    | frame i => rw [frame_eq h]
    | panel a => rw [ask_eq h]
    | collect => exact absurd rfl hx
  | input i =>
    simp only [act?, input?, Option.map_eq_map, Option.map_eq_some_iff, Option.bind_eq_bind,
      Option.bind_eq_some_iff] at h
    obtain ⟨_, ⟨⟨reply, d⟩, -, h⟩, rfl⟩ := h
    cases h
    rfl

theorem takes_of_ne (hx : x ≠ .step .collect) : v.takes x = [] := by
  cases x with
  | step s =>
    cases s with
    | collect => exact absurd rfl hx
    | _ => rfl
  | input i => rfl

theorem takes_cases (h : v.act? clock x = some v') :
    v.takes x = [] ∨ v.takes x = v.pending ∧ v'.pending = [] := by
  by_cases hx : x = .step .collect
  · subst hx
    exact .inr ⟨rfl, collect_pending h⟩
  · exact .inl (takes_of_ne hx)

theorem act_lists {drained : List LoggedEvent} (hv : v.lines = latest (drained.map clock.line))
    (h : v.act? clock x = some v') :
    v'.lines = latest ((drained ++ v.takes x).map clock.line) := by
  by_cases hx : x = .step .collect
  · subst hx
    rw [(collect_cases h).1, hv, foldl_pushLine, List.map_append]
    rfl
  · rw [act_lines hx h, hv, takes_of_ne hx, List.append_nil]

theorem ask_pending {call : Option (EngineInput Float)}
    (hcall : ∀ i ∈ call, ¬ i.Loads ∧ i ≠ .drain) (h : v.ask? call = some v') :
    v.pending <+: v'.pending :=
  Engine.run_log_extends (by simpa using hcall) (ask_run h)

theorem stage_pending {i : CanvasInput} {s : Stage} (h : v.stage? i s = some v') :
    v.pending <+: v'.pending := by
  obtain ⟨call, m, hasks, hm, rfl⟩ := stage_cases h
  rw [pending, pending, s.note_engine]
  refine ask_pending (fun y hy ↦ ?_) hm
  cases hasks <;> cases hy <;> exact ⟨id, nofun⟩

theorem frame_pending {i : CanvasInput} (h : v.frame? i = some v') : v.pending <+: v'.pending := by
  rw [frame?_eq] at h
  exact foldlM_steps (P := fun m ↦ v.pending <+: m.pending) h (List.prefix_refl _)
    fun s _ hs hm ↦ hm.trans (stage_pending hs)

theorem panel_pending {a : PanelAction} (h : v.ask? (v.panelCall? a) = some v') :
    v.pending <+: v'.pending := by
  refine ask_pending (fun i hi ↦ ⟨(mild_panelCall v a i hi).not_loads, ?_⟩) h
  rintro rfl
  cases a with
  | onSelection a =>
    obtain ⟨id, -, ha⟩ := Option.bind_eq_some_iff.mp hi
    cases a with
    | setStatus status =>
      simp only [SelectionAction.call?] at ha
      split at ha <;> cases ha
    | _ => cases ha
  | _ => cases hi

theorem input_cases {i : DisplayInput Float} (h : v.act? clock (.input i) = some v') :
    v'.engine = v.engine ∨ ∃ j, i = .engine j ∧ v.engine.next? j = some v'.engine := by
  cases i with
  | engine j => exact .inr ⟨j, rfl, (feed_next h).2⟩
  | attach n =>
    cases h
    exact .inl ((Display.engine_present _).trans (Display.engine_detach _))
  | detach =>
    cases h
    exact .inl (Display.engine_detach v.display)
  | take n =>
    cases h
    exact .inl rfl

theorem input_pending {i : DisplayInput Float} (hd : ¬ (ViewerActivity.input i).Discards)
    (h : v.act? clock (.input i) = some v') : v.pending <+: v'.pending := by
  obtain he | ⟨j, rfl, hj⟩ := input_cases h
  · rw [pending, pending, he]
  · obtain ⟨hl, hne⟩ := not_or.mp hd
    exact Engine.next_log_extends hl hne hj

theorem act_run (h : v.act? clock x = some v') : ∃ calls, v.engine.run? calls = some v'.engine := by
  cases x with
  | input i =>
    obtain he | ⟨j, rfl, hj⟩ := input_cases h
    · exact ⟨[], congrArg some he.symm⟩
    · exact ⟨[j], Engine.run?_cons_of_next hj []⟩
  | step s =>
    cases s with
    | frame i =>
      obtain ⟨⟨calls, m⟩, ht, rfl⟩ := Option.map_eq_some_iff.mp ((traceFrame?_snd v i).trans h)
      exact ⟨calls, run_of_traceFrame ht⟩
    | panel a => exact ⟨_, ask_run h⟩
    | collect => exact ⟨[.drain], Engine.run?_cons_of_next (collect_cases h).2 []⟩

/-- What was waiting is handed over or waits on, in front of what is new. -/
theorem act_pending (hd : ¬ x.Discards) (h : v.act? clock x = some v') :
    ∃ left new, v.pending = v.takes x ++ left ∧ v'.pending = left ++ new := by
  by_cases hx : x = .step .collect
  · subst hx
    exact ⟨[], [], (List.append_nil _).symm, collect_pending h⟩
  · have hprefix : v.pending <+: v'.pending := by
      cases x with
      | input i => exact input_pending hd h
      | step s =>
        cases s with
        | frame i => exact frame_pending h
        | panel a => exact panel_pending h
        | collect => exact absurd rfl hx
    obtain ⟨new, hnew⟩ := hprefix
    exact ⟨v.pending, new, by rw [takes_of_ne hx, List.nil_append], hnew.symm⟩

namespace Account

variable {a a' : Account}

theorem next_cases (h : a.next? clock x = some a') :
    ∃ v, a.viewer.act? clock x = some v ∧ a' =
      ⟨v, a.logged ++ v.pending.drop (a.viewer.pending.length - (a.viewer.takes x).length),
        a.drained ++ a.viewer.takes x⟩ := by
  simp only [next?, Option.bind_eq_bind, Option.bind_eq_some_iff] at h
  obtain ⟨v, hv, h⟩ := h
  cases h
  exact ⟨v, hv, rfl⟩

/-- Everything that was logged was handed over once or is still waiting. -/
def Balanced (a : Account) : Prop := a.logged = a.drained ++ a.viewer.pending

theorem Balanced.next (hb : a.Balanced) (hd : ¬ x.Discards) (h : a.next? clock x = some a') :
    a'.Balanced := by
  obtain ⟨v, hv, rfl⟩ := next_cases h
  obtain ⟨left, new, hleft, hnew⟩ := act_pending hd hv
  have hdrop : v.pending.drop (a.viewer.pending.length - (a.viewer.takes x).length) = new := by
    rw [hnew, hleft, List.length_append, Nat.add_sub_cancel_left, List.drop_left]
  rw [Balanced, hdrop, hb, hleft, hnew]
  simp only [List.append_assoc]

/-- Every event that was handed over is older than those that are waiting, and those are told apart
from whatever comes. -/
def Timely (a : Account) : Prop :=
  (a.drained ++ a.viewer.pending).Pairwise (fun x y ↦ x.time < y.time) ∧
    ∀ x ∈ a.drained, x.time < a.viewer.engine.scene.log.readings

theorem Timely.next (ht : a.Timely) (h : a.next? clock x = some a') : a'.Timely := by
  obtain ⟨v, hv, rfl⟩ := next_cases h
  obtain ⟨horder, hpast⟩ := ht
  obtain ⟨calls, hrun⟩ := act_run hv
  obtain ⟨hreadings, hnew⟩ := Engine.run_log_follows hrun
  rcases takes_cases hv with htakes | ⟨htakes, hnone⟩
  · obtain ⟨hdrained, -, hlater⟩ := List.pairwise_append.mp horder
    simp only [Timely, htakes, List.append_nil]
    refine ⟨List.pairwise_append.mpr ⟨hdrained, v.engine.scene.log.ordered, fun y hy z hz ↦ ?_⟩,
      fun y hy ↦ (hpast y hy).trans_le hreadings⟩
    rcases hnew z hz with hold | hlate
    · exact hlater y hy z hold
    · exact (hpast y hy).trans_le hlate
  · simp only [Timely, htakes, hnone, List.append_nil]
    refine ⟨horder, fun y hy ↦ ?_⟩
    rcases List.mem_append.mp hy with hy | hy
    · exact (hpast y hy).trans_le hreadings
    · exact (a.viewer.engine.scene.log.past y hy).trans_le hreadings

end Account

/-- The lines are those of the latest events of all that were handed over, in their order, and whoever
lists the events anew gets what is waiting below them. Unless events are thrown away elsewhere,
everything that was ever logged was handed over once or is still waiting. -/
theorem lines_latest {e : Engine Float} {activities : List ViewerActivity}
    (h : activities.foldlM (act? clock) (ofEngine e) = some v) :
    ∃ logged drained, (ofEngine e).account? clock activities = some ⟨v, logged, drained⟩ ∧
      v.lines = (drained.map clock.line).drop (drained.length - 50) ∧
      v.lines.length = min 50 drained.length ∧
      (∃ v', v.collect? clock = some v' ∧ v'.pending = [] ∧ v'.lines =
        ((drained ++ v.pending).map clock.line).drop ((drained ++ v.pending).length - 50)) ∧
      (drained ++ v.pending).Pairwise (fun x y ↦ x.time < y.time) ∧
      ((∀ x ∈ activities, ¬ x.Discards) → logged = drained ++ v.pending) := by
  rw [← account?_viewer, Option.map_eq_map, Option.map_eq_some_iff] at h
  obtain ⟨⟨v, logged, drained⟩, ha, rfl⟩ := h
  have hlines := foldlM_steps (P := fun a : Account ↦
      a.viewer.lines = latest (a.drained.map clock.line)) ha rfl fun x _ hx hp ↦ by
    obtain ⟨v, hv, rfl⟩ := Account.next_cases hx
    exact act_lists hp hv
  have htimely := foldlM_steps (P := Account.Timely) ha ⟨(ofEngine e).engine.scene.log.ordered, nofun⟩
    fun x _ hx ht ↦ ht.next hx
  refine ⟨logged, drained, ha, ?_, ?_, ?_, htimely.1, fun hd ↦ ?_⟩
  · rw [hlines, latest, List.length_map]
    rfl
  · rw [hlines, length_latest, List.length_map]
    rfl
  · obtain ⟨v', hv'⟩ := exists_collect clock v
    refine ⟨v', hv', collect_pending hv', ?_⟩
    rw [act_lists (x := .step .collect) hlines hv', latest, List.length_map]
    rfl
  · exact foldlM_steps (P := Account.Balanced) ha rfl fun x hmem hx hb ↦ hb.next (hd x hmem) hx

def crowd : Payload Float :=
  ⟨(List.range 60).map fun n ↦ ⟨String.ofList (List.replicate n 'x'), none, 0.0, 0.0, "ready"⟩, []⟩

theorem crowd_loadable : crowd.Loadable := by
  refine ⟨?_, nofun⟩
  rw [Payload.ids, crowd, List.map_map]
  refine List.nodup_range.map fun m n h ↦ ?_
  have hlength := congrArg String.length h
  simpa using hlength

theorem lines_latest_crowd : ∃ e v, Engine.withGraph .standard crowd = .ok e ∧
    [ViewerActivity.step .collect].foldlM (act? .eachSecond) (ofEngine e) = some v ∧
    v.lines = (crowd.nodes.zipIdx.drop 10).map fun (n, k) ↦
      Clock.timeOfDay k ++ " added " ++ n.id ++ " (ready)" := by
  obtain ⟨e, he, hloaded⟩ := (Engine.create .standard).load_loadable crowd_loadable
  have hengine : (ofEngine e).engine = e :=
    (Display.engine_present _).trans (Display.engine_detach _)
  have hwhole : e.scene.log.Whole := by
    obtain ⟨s, hs, hload⟩ := bind_ok he
    cases hload
    exact Engine.log_whole_load hs rfl
  have hevents : e.scene.log.events = crowd.nodes.map fun n ↦ .nodeAdded n.id n.status := by
    rw [hloaded.shows.log_eq, if_pos (by rfl)]
    simp only [crowd, List.map_nil, List.append_nil]
  obtain ⟨v, hv⟩ := exists_collect .eachSecond (ofEngine e)
  have hrun : [ViewerActivity.step .collect].foldlM (act? .eachSecond) (ofEngine e) = some v := by
    simp only [List.foldlM_cons, List.foldlM_nil, act?, next?, hv]
    rfl
  obtain ⟨logged, drained, haccount, hlines, -⟩ := lines_latest hrun
  have hdrained : drained = (ofEngine e).pending := by
    rw [account?, List.foldlM_cons, Option.bind_eq_bind, Option.bind_eq_some_iff] at haccount
    obtain ⟨a, ha, h⟩ := haccount
    cases h
    obtain ⟨_, -, heq⟩ := Account.next_cases ha
    exact congrArg Account.drained heq
  refine ⟨e, v, he, hrun, ?_⟩
  have hlength : (ofEngine e).pending.length = 60 := by
    have h := congrArg List.length hevents
    simpa [Log.events, pending, hengine, crowd] using h
  rw [hlines, hdrained, hlength, pending, hengine, hwhole.lines_eq, hevents]
  -- All of them are ready, and the words around an id are one text.
  have hline : ∀ n ∈ crowd.nodes, " " ++ (Event.nodeAdded n.id n.status).line =
      " added " ++ n.id ++ " (ready)" := by
    intro n hn
    obtain ⟨k, -, rfl⟩ := List.mem_map.mp hn
    simp only [Event.line, ← String.toList_inj, String.toList_append, List.append_assoc]
    rfl
  rw [List.zipIdx_map, List.map_map, List.map_drop]
  refine congrArg (List.drop 10) (List.map_congr_left fun x hx ↦ ?_)
  have h := congrArg (Clock.timeOfDay x.2 ++ ·) (hline x.1 (List.fst_mem_of_mem_zipIdx hx))
  simpa only [Function.comp_apply, Prod.map, id, Clock.eachSecond, String.append_assoc] using h

end Viewer

end Diagram
