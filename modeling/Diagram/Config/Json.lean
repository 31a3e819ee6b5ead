import Diagram.Color.Text
import Diagram.Config.Basic
import Diagram.Json.Layer

namespace Diagram

variable (layer : JsonLayer) (mixing : ColorMixing)

def Color.codec : Codec Color where
  read j := do
    match ofText mixing (← layer.string.read j) with
    | .ok c => .ok c
    | .error e => .error (.custom e.message)
  write c := layer.string.write c.text

def ColorTable.codec : Codec ColorTable := layer.table (Color.codec layer mixing)

namespace Palette

def shape : RecordShape Palette where
  title := "ColorPolicy"
  fields := [
    { name := "node_colors", codec := ColorTable.codec layer mixing,
      get := nodeColors, set := fun p v => { p with nodeColors := v } },
    { name := "edge_colors", codec := ColorTable.codec layer mixing,
      get := edgeColors, set := fun p v => { p with edgeColors := v } },
    { name := "default_node_color", codec := Color.codec layer mixing,
      get := defaultNode, set := fun p v => { p with defaultNode := v } },
    { name := "default_edge_color", codec := Color.codec layer mixing,
      get := defaultEdge, set := fun p v => { p with defaultEdge := v } },
    { name := "selected_stroke", codec := Color.codec layer mixing,
      get := selectedStroke, set := fun p v => { p with selectedStroke := v } },
    { name := "unselected_stroke", codec := Color.codec layer mixing,
      get := unselectedStroke, set := fun p v => { p with unselectedStroke := v } },
    { name := "label_color", codec := Color.codec layer mixing,
      get := label, set := fun p v => { p with label := v } },
    { name := "disabled_opacity", codec := layer.single,
      get := disabledOpacity, set := fun p v => { p with disabledOpacity := v } }]
  base := .standard
  apart := by simp [Field.Apart, Field.names]
  ext p q h := by simpa [Palette.ext_iff] using h

def codec : Codec Palette := layer.record (shape layer mixing)

end Palette

def ZoomPolicy.shape : RecordShape (ZoomPolicy Float) where
  title := "ZoomPolicy"
  fields := [
    { name := "min_zoom", codec := layer.double,
      get := minZoom, set := fun z v => { z with minZoom := v } },
    { name := "max_zoom", codec := layer.double,
      get := maxZoom, set := fun z v => { z with maxZoom := v } },
    { name := "min_scale_on_reset", codec := layer.double,
      get := minFitScale, set := fun z v => { z with minFitScale := v } },
    { name := "max_scale_on_reset", codec := layer.double,
      get := maxFitScale, set := fun z v => { z with maxFitScale := v } },
    { name := "fit_ratio", codec := layer.double,
      get := fitRatio, set := fun z v => { z with fitRatio := v } },
    { name := "top_margin", codec := layer.double,
      get := topMargin, set := fun z v => { z with topMargin := v } },
    { name := "wheel_in_factor", codec := layer.double,
      get := wheelIn, set := fun z v => { z with wheelIn := v } },
    { name := "wheel_out_factor", codec := layer.double,
      get := wheelOut, set := fun z v => { z with wheelOut := v } }]
  base := .standard
  apart := by simp [Field.Apart, Field.names]
  ext z w h := by simpa [ZoomPolicy.ext_iff] using h

def ZoomPolicy.codec : Codec (ZoomPolicy Float) := layer.record (shape layer)

def SliderTrack.shape : RecordShape (SliderTrack Float) where
  title := "SliderConfig"
  fields := [
    { name := "track_length", codec := layer.double,
      get := length, set := fun t v => { t with length := v } },
    { name := "click_step", codec := layer.double,
      get := clickStep, set := fun t v => { t with clickStep := v } },
    { name := "min_percent", codec := layer.double,
      get := minPercent, set := fun t v => { t with minPercent := v } }]
  base := .standard
  apart := by simp [Field.Apart, Field.names]
  ext t u h := by simpa [SliderTrack.ext_iff] using h

def SliderTrack.codec : Codec (SliderTrack Float) := layer.record (shape layer)

def NodeMetrics.shape : RecordShape (NodeMetrics Float) where
  title := "NodeMetrics"
  fields := [
    { name := "char_width", codec := layer.double,
      get := charWidth, set := fun m v => { m with charWidth := v } },
    { name := "horizontal_padding", codec := layer.double,
      get := horizontalPadding, set := fun m v => { m with horizontalPadding := v } },
    { name := "node_height", codec := layer.double,
      get := nodeHeight, set := fun m v => { m with nodeHeight := v } },
    { name := "border", codec := layer.double,
      get := border, set := fun m v => { m with border := v } }]
  base := .standard
  apart := by simp [Field.Apart, Field.names]
  ext m n h := by simpa [NodeMetrics.ext_iff] using h

def NodeMetrics.codec : Codec (NodeMetrics Float) := layer.record (shape layer)

namespace Config

def shape : RecordShape (Config Float) where
  title := "EngineConfig"
  fields := [
    { name := "zoom", codec := ZoomPolicy.codec layer,
      get := zoom, set := fun c v => { c with zoom := v } },
    { name := "slider", codec := SliderTrack.codec layer,
      get := slider, set := fun c v => { c with slider := v } },
    { name := "metrics", codec := NodeMetrics.codec layer,
      get := metrics, set := fun c v => { c with metrics := v } },
    { name := "style", codec := Palette.codec layer mixing,
      get := palette, set := fun c v => { c with palette := v } },
    { name := "terminal_statuses", codec := layer.list layer.string,
      get := terminalStatuses, set := fun c v => { c with terminalStatuses := v } },
    { name := "edit_mode", codec := layer.bool,
      get := editMode, set := fun c v => { c with editMode := v } }]
  base := .standard
  apart := by simp [Field.Apart, Field.names]
  ext c d h := by simpa [Config.ext_iff] using h

def codec : Codec (Config Float) := layer.record (shape layer mixing)

def ofText (s : String) : Decoded (Config Float) := layer.decode (codec layer mixing).read s

def text (c : Config Float) : String := layer.text ((codec layer mixing).write c)

end Config

end Diagram
