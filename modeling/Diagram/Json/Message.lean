import Diagram.Json.Layer
import Diagram.Json.Number
import Diagram.Number.Text
import Diagram.Text.Quoted

namespace Diagram

def backquoted (s : String) : String := "\x60" ++ s ++ "\x60"

namespace Found

/-- A number beyond the whole numbers of 64 bits is told as the double that it is read as. -/
def numberText (n : Numeral) : String :=
  match n.toInt? with
  | some i => "integer " ++ backquoted (toString i)
  | none =>
    "floating point " ++
      backquoted ((Binary.ofFloat (n.double?.getD 0.0)).shortestText .double .json)

def text : Found → String
  | .null => "null"
  | .bool b => "boolean " ++ backquoted (if b then "true" else "false")
  | .number n => numberText n
  | .string s => "string " ++ Quoted.encode s
  | .array => "sequence"
  | .object => "map"

end Found

def Expected.text : Expected → String
  | .string => "a string"
  | .double => "f64"
  | .single => "f32"
  | .bool => "a boolean"
  | .array => "a sequence"
  | .object => "a map"
  | .record title => "struct " ++ title
  | .tag => "variant identifier"
  | .tagged title => "internally tagged enum " ++ title

def elementCount (n : Nat) : String := toString n ++ (if n = 1 then " element" else " elements")

def DecodeError.message : DecodeError → String
  | .fault .truncated => "unexpected end"
  | .fault .malformed => "malformed text"
  | .mismatch found expected => "invalid type: " ++ found.text ++ ", expected " ++ expected.text
  | .missingField name => "missing field " ++ backquoted name
  | .duplicateField name => "duplicate field " ++ backquoted name
  | .tooShort length title fields =>
    "invalid length " ++ toString length ++ ", expected " ++ title ++ " with " ++ elementCount fields
  | .tooLong length fields =>
    "invalid length " ++ toString length ++ ", expected " ++ elementCount fields ++ " in sequence"
  | .unknownTag tag known =>
    "unknown variant " ++ backquoted tag ++ ", expected one of " ++
      ", ".intercalate (known.map backquoted)
  | .custom message => message

end Diagram
