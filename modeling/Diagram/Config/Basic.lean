import Diagram.Arith
import Diagram.Palette

namespace Diagram

@[ext]
structure ZoomPolicy (α : Type) where
  minZoom : α
  maxZoom : α
  minFitScale : α
  maxFitScale : α
  fitRatio : α
  topMargin : α
  wheelIn : α
  wheelOut : α

@[ext]
structure SliderTrack (α : Type) where
  length : α
  clickStep : α
  /-- Taken in place of zero, so that the scale never vanishes. -/
  minPercent : α

@[ext]
structure NodeMetrics (α : Type) where
  charWidth : α
  horizontalPadding : α
  nodeHeight : α
  /-- Added to the box that edges end at. -/
  border : α

@[ext]
structure Config (α : Type) where
  zoom : ZoomPolicy α
  slider : SliderTrack α
  metrics : NodeMetrics α
  palette : Palette
  /-- A node with one of these statuses is disabled when it is loaded. -/
  terminalStatuses : List String
  editMode : Bool

variable {α : Type} [Arith α]

def ZoomPolicy.standard : ZoomPolicy α where
  minZoom := 0.2
  maxZoom := 10.0
  minFitScale := 0.6
  maxFitScale := 2.0
  fitRatio := 0.8
  topMargin := 30.0
  wheelIn := 1.05
  wheelOut := 0.95

def SliderTrack.standard : SliderTrack α where
  length := 200.0
  clickStep := 10.0
  minPercent := 0.0001

def NodeMetrics.standard : NodeMetrics α where
  charWidth := 6.0
  horizontalPadding := 20.0
  nodeHeight := 30.0
  border := 3.0

namespace Config

def standard : Config α where
  zoom := .standard
  slider := .standard
  metrics := .standard
  palette := .standard
  terminalStatuses := ["succeeded", "completed", "disabled"]
  editMode := true

def isTerminal (c : Config α) (status : String) : Bool := c.terminalStatuses.any (· == status)

end Config

end Diagram
