import Diagram.Color.Basic
import Diagram.Number.Numeral
import Diagram.Text.Blank

namespace Diagram

structure NotColor where
  text : String
  deriving DecidableEq

namespace NotColor

def message (e : NotColor) : String :=
  "Invalid color '" ++ e.text ++ "': expected #RGB, #RGBA, #RRGGBB or #RRGGBBAA"

end NotColor

namespace Color

def isHexDigit (c : Char) : Bool := (hexDigit? c).isSome

def dropMark : List Char → List Char
  | '#' :: cs => cs
  | cs => cs

/-- A mixed color as it was before. Its alpha is exact, while the channels may have lost some steps. -/
def ofMixed (mixing : ColorMixing) (c : Color) : Color :=
  if c.isOpaque then opaqueRgb c.red c.green c.blue else { mixing.unmix c with alpha := c.alpha }

def ofText (mixing : ColorMixing) (s : String) : Except NotColor Color :=
  let hex := dropMark (trimBlanks s.toList)
  -- The library might also take a sign.
  if hex.all isHexDigit then
    match mixing.ofHex? (String.ofList hex) with
    | some c => .ok (ofMixed mixing c)
    | none => .error ⟨s⟩
  else .error ⟨s⟩

def hexDigits (n : UInt8) : List Char :=
  [(n.toNat / 16).digitChar.toUpper, (n.toNat % 16).digitChar.toUpper]

def text (c : Color) : String :=
  String.ofList ('#' :: (hexDigits c.red ++ hexDigits c.green ++ hexDigits c.blue ++
    if c.alpha = 255 then [] else hexDigits c.alpha))

end Color

end Diagram
