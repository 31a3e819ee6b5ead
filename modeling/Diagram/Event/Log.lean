import Diagram.Event.Basic

namespace Diagram

/-- An event, and which reading of the clock was taken for it. -/
structure LoggedEvent where
  time : Nat
  event : Event

/-- What happened since the log was last taken, and how often the clock has been read. -/
structure Log where
  entries : Array LoggedEvent
  readings : Nat
  ordered : entries.toList.Pairwise fun a b => a.time < b.time
  past : ∀ a ∈ entries.toList, a.time < readings

namespace Log

def empty (readings : Nat := 0) : Log := ⟨#[], readings, .nil, nofun⟩

def push (l : Log) (e : Event) : Log where
  entries := l.entries.push ⟨l.readings, e⟩
  readings := l.readings + 1
  ordered := by
    rw [Array.toList_push, List.pairwise_append]
    refine ⟨l.ordered, List.pairwise_singleton _ _, fun a ha b hb => ?_⟩
    rw [List.mem_singleton.mp hb]
    exact l.past a ha
  past a ha := by
    rw [Array.toList_push, List.mem_append, List.mem_singleton] at ha
    rcases ha with ha | rfl
    · exact Nat.lt_succ_of_lt (l.past a ha)
    · exact Nat.lt_succ_self _

def cleared (l : Log) : Log := .empty l.readings

def events (l : Log) : List Event := l.entries.toList.map LoggedEvent.event

theorem events_push (l : Log) (e : Event) : (l.push e).events = l.events ++ [e] := by
  simp [events, push]

end Log

/-- What a clock shows when it is read for the first time, the second and so on, and how that is
written. -/
structure Clock where
  reading : Nat → Int
  text : Int → String

namespace Clock

def stamp (c : Clock) (a : LoggedEvent) : String := c.text (c.reading a.time)

def line (c : Clock) (a : LoggedEvent) : String := c.stamp a ++ " " ++ a.event.line

def timeOfDay (seconds : Int) : String :=
  let digits (n : Int) := (if n < 10 then "0" else "") ++ toString n
  digits (seconds / 3600 % 24) ++ ":" ++ digits (seconds / 60 % 60) ++ ":" ++ digits (seconds % 60)

example : timeOfDay 3725 = "01:02:05" := by decide

def eachSecond : Clock := ⟨fun n => n, timeOfDay⟩

end Clock

end Diagram
