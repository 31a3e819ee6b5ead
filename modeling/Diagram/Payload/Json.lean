import Diagram.Json.Layer
import Diagram.Payload.Basic

namespace Diagram

variable (layer : JsonLayer)

def NodeEntry.shape : RecordShape (NodeEntry Float) where
  title := "NodePayload"
  fields := [
    { name := "id", aliases := ["name"], codec := layer.string, required := true,
      get := id, set := fun n v => { n with id := v } },
    { name := "label", codec := layer.option layer.string, hides := Option.isNone,
      get := label, set := fun n v => { n with label := v } },
    { name := "x", codec := layer.double, required := true,
      get := x, set := fun n v => { n with x := v } },
    { name := "y", codec := layer.double, required := true,
      get := y, set := fun n v => { n with y := v } },
    { name := "status", codec := layer.string,
      get := status, set := fun n v => { n with status := v } }]
  base := ⟨"", none, 0.0, 0.0, ""⟩
  apart := by simp [Field.Apart, Field.names]
  ext n m h := by simpa [NodeEntry.ext_iff] using h

def NodeEntry.codec : Codec (NodeEntry Float) := layer.record (shape layer)

def EdgeEntry.shape : RecordShape EdgeEntry where
  title := "EdgePayload"
  fields := [
    { name := "from", aliases := ["dependency"], codec := layer.string, required := true,
      get := source, set := fun e v => { e with source := v } },
    { name := "to", aliases := ["dependent"], codec := layer.string, required := true,
      get := target, set := fun e v => { e with target := v } },
    { name := "status", codec := layer.string,
      get := status, set := fun e v => { e with status := v } }]
  base := ⟨"", "", ""⟩
  apart := by simp [Field.Apart, Field.names]
  ext e f h := by simpa [EdgeEntry.ext_iff] using h

def EdgeEntry.codec : Codec EdgeEntry := layer.record (shape layer)

namespace Payload

def shape : RecordShape (Payload Float) where
  title := "GraphPayload"
  fields := [
    { name := "nodes", codec := layer.list (NodeEntry.codec layer),
      get := nodes, set := fun p v => { p with nodes := v } },
    { name := "edges", aliases := ["dependencies"], codec := layer.list (EdgeEntry.codec layer),
      get := edges, set := fun p v => { p with edges := v } }]
  base := ⟨[], []⟩
  apart := by simp [Field.Apart, Field.names]
  ext p q h := by simpa [Payload.ext_iff] using h

def codec : Codec (Payload Float) := layer.record (shape layer)

def ofText (s : String) : Decoded (Payload Float) := layer.decode (codec layer).read s

def text (p : Payload Float) : String := layer.text ((codec layer).write p)

end Payload

end Diagram
