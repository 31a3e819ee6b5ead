import Diagram.Cli.Options
import Diagram.Config.Json
import Diagram.Engine.Basic
import Diagram.Event.Json
import Diagram.Payload.Json
import Diagram.Scene.Text

namespace Diagram

namespace Cli

inductive Result
  | shown (text : String) (events : Option (List LoggedEvent))
  | failed (message : String)
  | refused (r : Refusal)
  /-- The bounds of the scale are out of order. -/
  | unfit

/-- What stands at a path. A directory, for one, can be opened and cannot be read. -/
inductive File
  | missing
  | unreadable
  | readable (contents : ByteArray)

abbrev Files := String → File

def fromFile {β : Type} (files : Files) (what : String) (value : String → Decoded β)
    (path : String) : Except String β :=
  let unparsed := .error ("Failed to parse " ++ what ++ " from: " ++ path)
  match files path with
  | .missing => .error ("Failed to open " ++ what ++ " file: " ++ path)
  | .unreadable => unparsed
  | .readable bytes =>
    match (String.fromUTF8? bytes).map value with
    | some (.ok x) => .ok x
    | _ => unparsed

variable (layer : JsonLayer) (mixing : ColorMixing)

def build (o : Options) (files : Files) : Except String (Engine Float) := do
  let config ← o.config.elim (.ok .standard) (fromFile files "config" (Config.ofText layer mixing))
  let graph ← o.payload.elim (.ok .sample) (fromFile files "payload" (Payload.ofText layer))
  match Engine.withGraph config graph with
  | .ok e => .ok e
  | .error _ => .error "Failed to build the diagram"

def report (e : Engine Float) : String :=
  "transform: " ++ e.viewport.transform.text ++ "\ndisabled:  " ++ e.scene.disabledText ++
    "\nnodes:     " ++ e.scene.valuesText ++ "\n"

def run (files : Files) (args : List String) : Result :=
  match Options.ofArguments args with
  | .error r => .refused r
  | .ok o =>
    match build layer mixing o files with
    | .error message => .failed message
    | .ok e =>
      match e.fit? o.width o.height with
      | none => .unfit
      | some e => .shown (report e) (if o.events then some e.scene.drain.1.toList else none)

namespace Result

def exitCode : Result → UInt32
  | shown .. => 0
  | failed _ => 1
  | refused .help => 0
  | refused .usage => 2
  | unfit => 101

def eventsText (layer : JsonLayer) (clock : Clock) (events : List LoggedEvent) : String :=
  layer.pretty (.list (events.map (clock.json layer)))

end Result

end Cli

end Diagram
