import Adventure.Fault
/-!
# Sources of dice

A source answers a request for an integer between two bounds, and moves on.  The bounds need not be
numbers: each source decides what it refuses.  A refused request may move the source too, or leave it
where it was.

Main definitions: `Draw`, an activity that draws from a source, and the class `DiceSource`.

The class is the interface `RandomSource`.
-/

namespace Adventure

/-- An activity that draws from a source of type `σ` and may end in a fault.  What was drawn before
the fault stays drawn. -/
abbrev Draw (σ : Type) := ExceptT Fault (StateM σ)

class DiceSource (σ : Type) where
  /-- The next value between two bounds, both included. -/
  range : Value → Value → Draw σ Number

end Adventure
