import Std.Time
import Diagram.Cli.Basic
import Diagram.Color.Mixing
import Diagram.Json.Standard

namespace Diagram

namespace Cli

def paths (args : List String) : List String :=
  match Options.ofArguments args with
  | .ok o => o.config.toList ++ o.payload.toList
  | .error _ => []

def readFile (handle : IO.FS.Handle) : IO File := do
  try
    return .readable (← handle.readBinToEnd)
  catch _ =>
    return .unreadable

def openFile (path : String) : IO File := do
  try
    readFile (← IO.FS.Handle.mk path .read)
  catch _ =>
    return .missing

def openFiles (paths : List String) : IO Files := do
  let files ← paths.mapM openFile
  return fun path => ((paths.zip files).lookup path).getD .missing

def usage : String :=
  "Usage: diagram [--payload FILE] [--config FILE] [--width WIDTH] [--height HEIGHT] [--events]"

def timeText (nanoseconds : Int) : String :=
  let time := Std.Time.Timestamp.ofNanosecondsSinceUnixEpoch ⟨nanoseconds⟩
  (Std.Time.DateTime.ofTimestampWithZone time .UTC).format "uuuu-MM-dd'T'HH:mm:ss.SSSSSSSSS'Z'"

/-- A run is so short that the clock stands still in it. -/
def readClock : IO Clock := do
  let now ← Std.Time.Timestamp.now
  return ⟨fun _ => now.toNanosecondsSinceUnixEpoch.val, timeText⟩

def display (clock : Clock) (r : Result) : IO Unit :=
  match r with
  | .shown text events => do
    IO.print text
    if let some events := events then IO.println (Result.eventsText .standard clock events)
  | .failed message => IO.eprintln ("Error: " ++ message)
  | .refused .help => IO.println usage
  | .refused .usage => IO.eprintln usage
  | .unfit => IO.eprintln "Error: the bounds of the fitted scale are out of order"

end Cli

end Diagram

def main (args : List String) : IO UInt32 := do
  let r := Diagram.Cli.run .standard .standard (← Diagram.Cli.openFiles (Diagram.Cli.paths args)) args
  Diagram.Cli.display (← Diagram.Cli.readClock) r
  return r.exitCode
