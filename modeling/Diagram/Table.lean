namespace Diagram

/-- Values by key. A key stands in the table at most once. -/
abbrev Table (β : Type) := List (String × β)

namespace Table

variable {β : Type}

def get? (t : Table β) (key : String) : Option β := t.lookup key

def put (t : Table β) (key : String) (x : β) : Table β :=
  if t.any (·.1 == key) then t.map fun e => if e.1 == key then (key, x) else e
  else t ++ [(key, x)]

end Table

end Diagram
