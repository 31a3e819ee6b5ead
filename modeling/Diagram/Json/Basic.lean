import Diagram.Number.Numeral

namespace Diagram

inductive Fault
  | truncated
  | malformed
  deriving DecidableEq

/-- What is wrong at a place in a text, for one who needs the value there and for one who passes over
it. Half of a surrogate pair, for instance, is a fault of a string only where the string is used. -/
structure Obstacle where
  reading : Fault
  skipping : Option Fault
  deriving DecidableEq

namespace Obstacle

def ofFault (f : Fault) : Obstacle := ⟨f, some f⟩

def unusable : Obstacle := ⟨.malformed, none⟩

end Obstacle

/-- What a text holds, as far as it makes sense. An array or an object whose text breaks off between
two of its members is cut there; one that breaks off inside a member has a broken last member. -/
inductive Json
  | null
  | bool (b : Bool)
  | number (n : Numeral)
  | string (s : String)
  | array (items : List Json) (cut : Option Obstacle)
  | object (members : List (String × Json)) (cut : Option Obstacle)
  | broken (o : Obstacle)

namespace Json

def list (items : List Json) : Json := .array items none

def record (members : List (String × Json)) : Json := .object members none

mutual

/-- The first thing that stops one who passes over a value. -/
def skipFault : Json → Option Fault
  | .array items cut => skipItems items cut
  | .object members cut => skipMembers members cut
  | .broken o => o.skipping
  | _ => none

def skipItems : List Json → Option Obstacle → Option Fault
  | [], cut => cut.bind Obstacle.skipping
  | j :: rest, cut => (skipFault j).or (skipItems rest cut)

def skipMembers : List (String × Json) → Option Obstacle → Option Fault
  | [], cut => cut.bind Obstacle.skipping
  | (_, j) :: rest, cut => (skipFault j).or (skipMembers rest cut)

end

mutual

/-- The first thing that stops one who takes a value in whole, where arrays and objects may lie at
most `depth` deep in one another. -/
def takeFault (depth : Nat) : Json → Option Fault
  | .array items cut =>
    if depth = 0 then some .malformed else takeItems (depth - 1) items cut
  | .object members cut =>
    if depth = 0 then some .malformed else takeMembers (depth - 1) members cut
  | .broken o => some o.reading
  | _ => none

def takeItems (depth : Nat) : List Json → Option Obstacle → Option Fault
  | [], cut => cut.map Obstacle.reading
  | j :: rest, cut => (takeFault depth j).or (takeItems depth rest cut)

def takeMembers (depth : Nat) : List (String × Json) → Option Obstacle → Option Fault
  | [], cut => cut.map Obstacle.reading
  | (_, j) :: rest, cut => (takeFault depth j).or (takeMembers depth rest cut)

end

end Json

end Diagram
