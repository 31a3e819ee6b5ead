import Diagram.Color.Basic
import Diagram.Number.Binary
import Diagram.Table

namespace Diagram

abbrev ColorTable := Table Color

@[ext]
structure Palette where
  nodeColors : ColorTable
  edgeColors : ColorTable
  defaultNode : Color
  defaultEdge : Color
  selectedStroke : Color
  unselectedStroke : Color
  label : Color
  disabledOpacity : Float32

namespace Palette

def standard : Palette where
  nodeColors := []
  edgeColors := []
  defaultNode := .opaqueRgb 0x22 0x22 0x22
  defaultEdge := .opaqueRgb 0x00 0x00 0x00
  selectedStroke := .opaqueRgb 0xFF 0xFF 0x00
  unselectedStroke := .opaqueRgb 0xDD 0xDD 0xDD
  label := .opaqueRgb 0xDD 0xDD 0xDD
  disabledOpacity := 0.5

def nodeColor (p : Palette) (status : String) : Color :=
  (p.nodeColors.get? status).getD p.defaultNode

def edgeColor (p : Palette) (status : String) : Color :=
  (p.edgeColors.get? status).getD p.defaultEdge

def mapNode (p : Palette) (status : String) (c : Color) : Palette :=
  { p with nodeColors := p.nodeColors.put status c }

def mapEdge (p : Palette) (status : String) (c : Color) : Palette :=
  { p with edgeColors := p.edgeColors.put status c }

end Palette

end Diagram
