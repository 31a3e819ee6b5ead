import Diagram.Config.Basic

namespace Diagram

/-- A vertical zoom slider. Its handle is at 0 for the largest scale and at the length of the track
for the smallest. -/
@[ext]
structure Slider (α : Type) where
  track : SliderTrack α
  position : α
  /-- Where the handle was when it was grabbed or last let go. -/
  baseline : α
  grabbed : Bool

namespace Slider

variable {α : Type} [Arith α]

def atBottom (t : SliderTrack α) : Slider α := ⟨t, t.length, t.length, false⟩

def normalized (s : Slider α) : α := s.position / s.track.length

def percent (s : Slider α) : α :=
  let p := 1.0 - s.normalized
  if p == 0.0 then s.track.minPercent else p

/-- The handle does not go above 1. A track shorter than that has no place for it. -/
def moveTo? (s : Slider α) (position : α) : Option (Slider α) := do
  let position ← Arith.clamp? position 1.0 s.track.length
  return { s with position }

def step? (s : Slider α) (direction : α) : Option (Slider α) :=
  s.moveTo? (s.position + s.track.clickStep * direction)

def grab (s : Slider α) : Slider α := { s with grabbed := true, baseline := s.position }

def dragBy? (s : Slider α) (delta : α) : Option (Slider α) := s.moveTo? (s.baseline + delta)

def release (s : Slider α) : Slider α := { s with grabbed := false, baseline := s.position }

/-- Follows a zoom that came about elsewhere. The scale grows with the square of the percentage. -/
def sync (s : Slider α) (zoomPercent : α) : Slider α :=
  let l := s.track.length
  { s with position := l - l * Arith.sqrt (Arith.clamp zoomPercent 0.0 1.0) }

end Slider

end Diagram
