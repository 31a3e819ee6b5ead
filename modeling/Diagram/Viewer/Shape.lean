import Diagram.Frame
import Diagram.Viewer.Pixel

namespace Diagram

/-- What is painted. Colors are mixed. -/
inductive Shape
  | line (start finish : PixelPoint) (width : Float32) (color : Color)
  | polygon (corners : List PixelPoint) (fill : Color)
  | rect (rect : PixelRect) (rounding : Float32) (fill : Color) (strokeWidth : Float32)
    (stroke : Color)
  | text (text : String) (size : Float32) (color : Color)

namespace Color

def painted (mixing : ColorMixing) (c : Color) (opacity : Float32) : Color :=
  mixing.fade (mixing.mix c) opacity

def gray (level : UInt8) : Color := .opaqueRgb level level level

end Color

def strokeScale (scale : Float32) : Float32 := if 0.5 < scale then scale else 0.5

def shortestArrow : Float32 := Float32.ofBits 0x34000000

def arrowShapes (start finish : PixelPoint) (color : Color) (scale : Float32) : List Shape :=
  let line := Shape.line start finish (1.5 * strokeScale scale) color
  let delta := finish.sub start
  let length := delta.length
  if length < shortestArrow then [line]
  else
    let along : PixelPoint := ⟨delta.x / length, delta.y / length⟩
    let across : PixelPoint := ⟨-along.y, along.x⟩
    let size := 8.0 * strokeScale scale
    let back := finish.sub (along.scale size)
    let side := (across.scale size).scale 0.5
    [line, .polygon [finish, back.add side, back.sub side] color]

variable (mixing : ColorMixing) (canvas : PixelRect)

def EdgeLine.shapes (e : EdgeLine Float) (scale : Float32) : List Shape :=
  arrowShapes (canvas.toWindow e.start) (canvas.toWindow e.finish) (e.color.painted mixing 1.0) scale

def NodeShape.shapes (n : NodeShape Float) (scale : Float32) : List Shape :=
  let rect := PixelRect.ofCorner (canvas.toWindow n.rect.corner)
    ⟨toSingle n.rect.size.width, toSingle n.rect.size.height⟩
  let width := (if n.selected then 3.0 else 1.5) * strokeScale scale
  let paint (c : Color) := c.painted mixing n.opacity
  [.rect rect (4.0 * scale) (paint n.fill) width (paint n.stroke),
    .text n.label (10.0 * scale) (paint n.labelColor)]

/-- Edges lie below nodes. -/
def Frame.shapes (f : Frame Float) : List Shape :=
  let scale := toSingle f.transform.scale
  f.edges.flatMap (·.shapes mixing canvas scale) ++ f.nodes.flatMap (·.shapes mixing canvas scale)

def sliderTrack (length : Float) : PixelRect :=
  .ofCorner (canvas.least.add ⟨24.0, 48.0⟩) ⟨8.0, toSingle length⟩

def sliderHandle (track : PixelRect) (part : Float) : PixelRect :=
  .centered ⟨track.centerX, track.least.y + toSingle part * track.height⟩ ⟨22.0, 10.0⟩

def sliderShapes (length : Float) (f : Frame Float) : List Shape :=
  let track := sliderTrack canvas length
  [.rect track 3.0 (.gray 90) 0.0 .transparent,
    .rect (sliderHandle track f.slider) 2.0 (.gray 200) 1.0 (.gray 0)] ++
    if f.editMode then [.text "EDIT" 14.0 (.opaqueRgb 255 200 0)] else []

end Diagram
