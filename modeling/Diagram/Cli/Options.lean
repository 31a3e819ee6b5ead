import Diagram.Number.Reader

namespace Diagram

namespace Cli

structure Options where
  payload : Option String
  config : Option String
  width : Float
  height : Float
  events : Bool

/-- Why a command line asks for nothing: it is wrong, or only wants to know how to ask. -/
inductive Refusal
  | usage
  | help
  deriving DecidableEq

structure Draft where
  payload : Option String := none
  config : Option String := none
  width : Option Float := none
  height : Option Float := none
  events : Bool := false

namespace Draft

def options (d : Draft) : Options :=
  ⟨d.payload, d.config, d.width.getD 800.0, d.height.getD 600.0, d.events⟩

def giveOnce {β : Type} (slot value : Option β) : Except Refusal (Option β) :=
  match slot, value with
  | none, some v => .ok (some v)
  | _, _ => .error .usage

def path? (s : String) : Option String := if s.isEmpty then none else some s

def give (d : Draft) (name value : String) : Except Refusal Draft :=
  match name with
  | "payload" => return { d with payload := ← giveOnce d.payload (path? value) }
  | "config" => return { d with config := ← giveOnce d.config (path? value) }
  | "width" => return { d with width := ← giveOnce d.width (readFloat? value) }
  | "height" => return { d with height := ← giveOnce d.height (readFloat? value) }
  | _ => .error .usage

def flag (d : Draft) (name : String) : Except Refusal Draft :=
  match name with
  | "events" => if d.events then .error .usage else .ok { d with events := true }
  | "help" => .error .help
  | _ => .error .usage

end Draft

inductive Argument
  /-- An option whose value, if it has one, stands in the same argument. -/
  | option (name : String) (value : Option String)
  | separator
  | word (text : String)

def shortName : Char → String
  | 'p' => "payload"
  | 'c' => "config"
  | 'h' => "help"
  | _ => ""

def dropEquals : List Char → List Char
  | '=' :: cs => cs
  | cs => cs

def Argument.ofText (s : String) : Argument :=
  match s.toList with
  | ['-', '-'] => .separator
  | '-' :: '-' :: cs =>
    let name := String.ofList (cs.takeWhile (· ≠ '='))
    match cs.dropWhile (· ≠ '=') with
    | [] => .option name none
    | _ :: value => .option name (some (String.ofList value))
  | ['-', c] => .option (shortName c) none
  | '-' :: c :: value => .option (shortName c) (some (String.ofList (dropEquals value)))
  | _ => .word s

def takesValue (name : String) : Bool :=
  name == "payload" || name == "config" || name == "width" || name == "height"

/-- Reads the arguments in order. A value that stands alone does not look like an option. -/
def readArguments (d : Draft) : List String → Except Refusal Draft
  | [] => .ok d
  | arg :: rest =>
    match Argument.ofText arg with
    | .separator => if rest.isEmpty then .ok d else .error .usage
    | .word _ => .error .usage
    | .option name (some value) => do readArguments (← d.give name value) rest
    | .option name none =>
      if takesValue name then
        match rest with
        | value :: rest =>
          match Argument.ofText value with
          | .word text => do readArguments (← d.give name text) rest
          | _ => .error .usage
        | [] => .error .usage
      else do readArguments (← d.flag name) rest

def Options.ofArguments (args : List String) : Except Refusal Options :=
  Draft.options <$> readArguments {} args

end Cli

end Diagram
