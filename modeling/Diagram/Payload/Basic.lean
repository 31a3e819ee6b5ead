import Diagram.Arith

namespace Diagram

@[ext]
structure NodeEntry (α : Type) where
  id : String
  label : Option String
  x : α
  y : α
  status : String

/-- `source` has to finish before `target` runs. -/
@[ext]
structure EdgeEntry where
  source : String
  target : String
  status : String
  deriving DecidableEq

@[ext]
structure Payload (α : Type) where
  nodes : List (NodeEntry α)
  edges : List EdgeEntry

def NodeEntry.shownLabel {α : Type} (n : NodeEntry α) : String := n.label.getD n.id

def Payload.sample {α : Type} [Arith α] : Payload α where
  nodes := [
    ⟨"fetch-orders", none, 80.0, 40.0, "succeeded"⟩,
    ⟨"fetch-customers", none, 300.0, 40.0, "succeeded"⟩,
    ⟨"join", none, 190.0, 140.0, "failed"⟩,
    ⟨"aggregate", none, 190.0, 240.0, "ready"⟩,
    ⟨"publish-report", none, 80.0, 340.0, "ready"⟩,
    ⟨"notify", none, 300.0, 340.0, "ready"⟩]
  edges := [
    ⟨"fetch-orders", "join", "succeeded"⟩,
    ⟨"fetch-customers", "join", "succeeded"⟩,
    ⟨"join", "aggregate", "failed"⟩,
    ⟨"aggregate", "publish-report", "ready"⟩,
    ⟨"aggregate", "notify", "ready"⟩]

end Diagram
