import Diagram.Event.Log
import Diagram.Json.Layer

namespace Diagram

namespace Event

variable (layer : JsonLayer)

def nodeVariant : Variant Event where
  tag := "node_added"
  shape := .pair "NodeAdded" "id" "status" layer.string layer.string ("", "") true (by decide)
  make c := .nodeAdded c.1 c.2

def edgeVariant : Variant Event where
  tag := "edge_added"
  shape := .pair "EdgeAdded" "from" "to" layer.string layer.string ("", "") true (by decide)
  make c := .edgeAdded c.1 c.2

def selectionVariant : Variant Event where
  tag := "selection_changed"
  shape := .pair "SelectionChanged" "old_id" "new_id" (layer.option layer.string)
    (layer.option layer.string) (none, none) false (by decide)
  make c := .selectionChanged c.1 c.2

def enabledVariant : Variant Event where
  tag := "enabled_changed"
  shape := .pair "EnabledChanged" "ids" "enabled" (layer.list layer.string) layer.bool ([], false) true
    (by decide)
  make c := .enabledChanged c.1 c.2

def statusVariant : Variant Event where
  tag := "status_changed"
  shape := .pair "StatusChanged" "ids" "status" (layer.list layer.string) layer.string ([], "") true
    (by decide)
  make c := .statusChanged c.1 c.2

def shape : TaggedShape Event where
  title := "EventType"
  tagName := "type"
  variants := [nodeVariant layer, edgeVariant layer, selectionVariant layer, enabledVariant layer,
    statusVariant layer]
  split
    | .nodeAdded id status => ⟨nodeVariant layer, (id, status)⟩
    | .edgeAdded source target => ⟨edgeVariant layer, (source, target)⟩
    | .selectionChanged before after => ⟨selectionVariant layer, (before, after)⟩
    | .enabledChanged ids enabled => ⟨enabledVariant layer, (ids, enabled)⟩
    | .statusChanged ids status => ⟨statusVariant layer, (ids, status)⟩
  distinct := by
    simp [nodeVariant, edgeVariant, selectionVariant, enabledVariant, statusVariant]
  split_mem e := by cases e <;> simp
  make_split e := by cases e <;> rfl

def codec : Codec Event := layer.tagged (shape layer)

def ofText (s : String) : Decoded Event := layer.decode (codec layer).read s

def text (e : Event) : String := layer.text ((codec layer).write e)

end Event

def Clock.json (layer : JsonLayer) (c : Clock) (a : LoggedEvent) : Json :=
  .record [("timestamp", layer.string.write (c.stamp a)), ("event", (Event.codec layer).write a.event)]

end Diagram
