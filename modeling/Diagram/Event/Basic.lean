namespace Diagram

inductive Event
  | nodeAdded (id status : String)
  | edgeAdded (source target : String)
  | selectionChanged (before after : Option String)
  | enabledChanged (ids : List String) (enabled : Bool)
  | statusChanged (ids : List String) (status : String)
  deriving DecidableEq

def Event.line : Event → String
  | .nodeAdded id status => "added " ++ id ++ " (" ++ status ++ ")"
  | .edgeAdded source target => "edge " ++ source ++ " -> " ++ target
  | .selectionChanged _ (some id) => "selected " ++ id
  | .selectionChanged _ none => "selection cleared"
  | .enabledChanged ids enabled =>
    (if enabled then "enabled " else "disabled ") ++ ", ".intercalate ids
  | .statusChanged ids status => ", ".intercalate ids ++ " -> " ++ status

end Diagram
