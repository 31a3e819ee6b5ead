import Diagram.Proofs.Engine.Loading
import Diagram.Proofs.Engine.Runs
import Diagram.Proofs.Scene.Flagging
import Diagram.Proofs.Scene.Replay

namespace Diagram

variable {α : Type} [Arith α]

namespace Log

variable {l m n : Log}

/-- The second log is later than the first: whatever does not stand there already was logged since. -/
def Follows (l m : Log) : Prop :=
  l.readings ≤ m.readings ∧ ∀ a ∈ m.entries.toList, a ∈ l.entries.toList ∨ l.readings ≤ a.time

theorem Follows.refl (l : Log) : l.Follows l := ⟨Nat.le_refl _, fun _ ha ↦ .inl ha⟩

theorem Follows.trans (h : l.Follows m) (h' : m.Follows n) : l.Follows n := by
  refine ⟨Nat.le_trans h.1 h'.1, fun a ha ↦ ?_⟩
  rcases h'.2 a ha with hm | hm
  · exact h.2 a hm
  · exact .inr (Nat.le_trans h.1 hm)

theorem follows_push (l : Log) (e : Event) : l.Follows (l.push e) := by
  refine ⟨Nat.le_succ _, fun a ha ↦ ?_⟩
  rw [push, Array.toList_push, List.mem_append, List.mem_singleton] at ha
  obtain hold | rfl := ha
  · exact .inl hold
  · exact .inr (Nat.le_refl _)

theorem follows_cleared (l : Log) : l.Follows l.cleared := ⟨Nat.le_refl _, nofun⟩

def Whole (l : Log) : Prop := l.entries.toList.map LoggedEvent.time = List.range l.readings

theorem whole_empty : (empty).Whole := rfl

theorem Whole.push (h : l.Whole) (e : Event) : (l.push e).Whole := by
  rw [Whole, Log.push, Array.toList_push, List.map_append, h, List.range_succ]
  rfl

/-- As long as nothing was taken, the readings number the events. -/
theorem Whole.lines_eq (h : l.Whole) (c : Clock) : l.entries.toList.map c.line =
    l.events.zipIdx.map fun (e, k) ↦ c.text (c.reading k) ++ " " ++ e.line := by
  refine List.ext_getElem? fun k ↦ ?_
  simp only [events, List.getElem?_map, List.getElem?_zipIdx, Option.map_map]
  refine Option.map_congr fun a ha ↦ ?_
  have htime := congrArg (·[k]?) (show _ = _ from h)
  simp only [List.getElem?_map, ha, Option.map_some] at htime
  obtain ⟨hk, htime⟩ := List.getElem?_eq_some_iff.mp htime.symm
  rw [List.getElem_range] at htime
  simp only [Function.comp_apply, Clock.line, Clock.stamp, ← htime, Nat.zero_add]

end Log

namespace Scene

variable {s s' : Scene α}

theorem change_of_ne_drain (s : Scene α) {x : SceneEdit α} (hx : x ≠ .drain) :
    Change s (s.edit x) := (edit_change s x).resolve_left hx

theorem Change.log_cases (h : Change s s') : s'.log = s.log ∨ ∃ e, s'.log = s.log.push e := by
  cases h with
  | nothing => exact .inl rfl
  | addNode hr =>
    obtain ⟨-, -, rfl⟩ := addNode_ok hr
    exact .inr ⟨_, rfl⟩
  | addEdge hr =>
    obtain ⟨a, b, n, m, -, -, -, rfl⟩ := addEdge_ok hr
    exact .inr ⟨_, rfl⟩
  | move handles d =>
    exact .inl (view_foldl log (fun s h ↦ s.moveHandle h d) (fun _ _ ↦ rfl) handles s)
  | select hr =>
    obtain ⟨h, -, rfl⟩ := select_ok hr
    exact .inr ⟨_, rfl⟩
  | clearSelection =>
    unfold Scene.clearSelection
    split
    · exact .inl rfl
    · exact .inr ⟨_, congrArg (Log.push · _) (log_deselect s)⟩
  | setEnabled handles enabled =>
    rw [log_setEnabledHandles]
    split
    · exact .inl rfl
    · exact .inr ⟨_, rfl⟩
  | setStatus status =>
    have hlog := view_foldl log
      (fun s h ↦ s.modifyNode h fun n ↦ { n with status }) (fun _ _ ↦ rfl) s.selection s
    unfold Scene.setStatus
    split
    · exact .inl rfl
    · exact .inr ⟨_, congrArg (Log.push · _) hlog⟩

theorem Change.log_extends (h : Change s s') : s.log.entries.toList <+: s'.log.entries.toList := by
  obtain hl | ⟨e, hl⟩ := h.log_cases
  · rw [hl]
  · rw [hl, Log.push, Array.toList_push]
    exact List.prefix_append ..

theorem log_follows_edit (s : Scene α) (x : SceneEdit α) : s.log.Follows (s.edit x).log := by
  rcases edit_change s x with rfl | hc
  · exact s.log.follows_cleared
  · obtain hl | ⟨e, hl⟩ := hc.log_cases
    · exact hl ▸ .refl _
    · exact hl ▸ s.log.follows_push e

end Scene

namespace Engine

open Scene

variable {e e' : Engine α} {i : EngineInput α}

theorem next_change (hl : ¬ i.Loads) (hd : i ≠ .drain) (h : e.next? i = some e') :
    Change e.scene e'.scene := by
  obtain ⟨redraws, m, hm, rfl⟩ := next_leads h
  cases hm with
  | load hs => exact absurd (loadable_of_sceneOf hs) hl
  | drain => exact absurd rfl hd
  | drag _ => exact .move _ e.scene.selection _
  | select hs => exact .select hs
  | center hs _ => exact .select hs
  | click _ => exact change_of_ne_drain e.scene (x := .select _) (by rintro ⟨⟩)
  | edit hx => exact change_of_ne_drain e.scene fun hx' ↦ i.edit?_ne_drain (hx' ▸ hx)
  | _ => exact .nothing _

theorem next_log_extends (hl : ¬ i.Loads) (hd : i ≠ .drain) (h : e.next? i = some e') :
    e.scene.log.entries.toList <+: e'.scene.log.entries.toList := (next_change hl hd h).log_extends

theorem run_log_extends {inputs : List (EngineInput α)}
    (hi : ∀ i ∈ inputs, ¬ i.Loads ∧ i ≠ .drain) (h : e.run? inputs = some e') :
    e.scene.log.entries.toList <+: e'.scene.log.entries.toList := by
  refine run_steps (P := fun m ↦ e.scene.log.entries.toList <+: m.scene.log.entries.toList) h
    (List.prefix_refl _) fun i hmem hm hp ↦ ?_
  obtain ⟨hl, hd⟩ := hi i hmem
  exact hp.trans (next_log_extends hl hd hm)

theorem log_follows_load {graph : Payload α} {s : Scene α} (h : e.sceneOf graph = .ok s) :
    e.scene.log.Follows s.log := by
  have hedit (s : Scene α) (x : SceneEdit α) (hs : e.scene.log.Follows s.log) :
      e.scene.log.Follows (s.edit x).log := hs.trans (log_follows_edit s x)
  refine sceneOf_induct h e.scene.log.follows_cleared (fun hn hs ↦ ?_) (fun he hs ↦ ?_)
    fun s ids hs ↦ hedit s (.setEnabled ids false) hs
  · exact edit_addNode hn ▸ hedit _ _ hs
  · exact edit_addEdge he ▸ hedit _ _ hs

theorem log_whole_load {graph : Payload α} {s : Scene α} (h : e.sceneOf graph = .ok s)
    (hr : e.scene.log.readings = 0) : s.log.Whole := by
  have hchange {s s' : Scene α} (hc : Change s s') (hs : s.log.Whole) : s'.log.Whole := by
    obtain hl | ⟨event, hl⟩ := hc.log_cases
    · exact hl ▸ hs
    · exact hl ▸ hs.push event
  refine sceneOf_induct h ?_ (fun hn ↦ hchange (.addNode hn)) (fun he ↦ hchange (.addEdge he))
    fun s ids ↦ hchange (.setEnabled s _ false)
  rw [hr]
  exact Log.whole_empty

theorem run_log_follows {inputs : List (EngineInput α)} (h : e.run? inputs = some e') :
    e.scene.log.Follows e'.scene.log := by
  refine run_induct (P := fun m ↦ e.scene.log.Follows m.scene.log) h (.refl _) fun {m m'} hm hs ↦ ?_
  cases hm with
  | load hl => exact hs.trans (log_follows_load hl)
  | edit x => exact hs.trans (log_follows_edit m.scene x)
  | rezoom hz => cases hz <;> exact hs
  | _ => exact hs

end Engine

end Diagram
