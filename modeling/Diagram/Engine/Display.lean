import Diagram.Engine.Input

namespace Diagram

/-- A place to draw, with the last frame drawn there unless someone took it away. -/
structure Slot (α : Type) where
  attached : Bool
  frame : Option (Frame α)

def Slot.detached {α : Type} : Slot α := ⟨false, none⟩

/-- An engine and the slots it may draw in. It draws in one at a time. -/
structure Display (α : Type) where
  engine : Engine α
  current : Option Nat
  slots : Std.HashMap Nat (Slot α)

inductive DisplayInput (α : Type)
  | engine (input : EngineInput α)
  | attach (slot : Nat)
  | detach
  | take (slot : Nat)

namespace Display

variable {α : Type} [Arith α]

def unattached (e : Engine α) : Display α := ⟨e, none, ∅⟩

def slot (d : Display α) (n : Nat) : Slot α := d.slots.getD n .detached

def setSlot (d : Display α) (n : Nat) (s : Slot α) : Display α :=
  { d with slots := d.slots.insert n s }

def present (d : Display α) : Display α :=
  match d.current with
  | some n => d.setSlot n ⟨true, some d.engine.render⟩
  | none => d

def detach (d : Display α) : Display α :=
  match d.current with
  | some n => { d.setSlot n .detached with current := none }
  | none => d

def attach (d : Display α) (n : Nat) : Display α := { d.detach with current := some n }.present

def take (d : Display α) (n : Nat) : Option (Frame α) × Display α :=
  ((d.slot n).frame, d.setSlot n { d.slot n with frame := none })

def step? (d : Display α) : DisplayInput α → Option (Reply × Display α)
  | .engine input => do
    let o ← d.engine.step? input
    let d := { d with engine := o.engine }
    return (o.reply, if o.redraws then d.present else d)
  | .attach n => some (.done, d.attach n)
  | .detach => some (.answer d.current.isSome, d.detach)
  | .take n => some (.done, (d.take n).2)

def next? (d : Display α) (i : DisplayInput α) : Option (Display α) := Prod.snd <$> d.step? i

def run? (d : Display α) (inputs : List (DisplayInput α)) : Option (Display α) :=
  inputs.foldlM next? d

end Display

end Diagram
