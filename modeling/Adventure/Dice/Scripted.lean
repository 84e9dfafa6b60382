import Adventure.Dice.Source
/-!
# Scripted dice

A list of values that are given out in order.  A value that is no integer or does not lie in the
requested range is used up and refused, and so is every request after the last value.

This is `SequenceRng`, with `consumed` for its count.
-/

namespace Adventure

structure Scripted where
  values : List Value
  consumed : Nat
deriving DecidableEq

namespace Scripted

def ofValues (values : List Value) : Scripted := ⟨values, 0⟩

/-- The number that a value gives out between two bounds.  A bound that is no number counts as the
number it stands for, and as no bound if it stands for none. -/
def admit? (v low high : Value) : Option Number :=
  match v with
  | .number x => if !x.isInteger || x < low.toNumber || high.toNumber < x then none else some x
  | _ => none

def range (low high : Value) : Draw Scripted Number := fun script =>
  match script.values with
  | [] => (.error (.scriptExhausted script.consumed), script)
  | v :: rest =>
    let script : Scripted := ⟨rest, script.consumed + 1⟩
    match admit? v low high with
    | none => (.error (.scriptOutside v low high), script)
    | some x => (.ok x, script)

instance : DiceSource Scripted := ⟨range⟩

end Scripted

end Adventure
