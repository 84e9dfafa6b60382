import Adventure.Dice.Source
import Adventure.Text.Units
/-!
# Seeded dice

A generator over 64-bit words.  The state walks through all words in steps of a fixed odd number; a
draw takes a step and mixes the new state.  The first state is a hash of the seed's text.

Main definitions: `Seeded.ofSeed`, `Seeded.nextWord`, `Seeded.nextFraction`, and the ranges drawn
from it.

| definition | method of `Rng` |
| --- | --- |
| `hashUnits`, `seedState` | `hashSeed` and the constructor |
| `nextWord` (`step`, `mix`) | `nextRaw` |
| `nextFraction` | `next` |
| `range` | `range` |
-/

namespace Adventure

structure Seeded where
  state : UInt64
  drawn : Nat
deriving DecidableEq

namespace Seeded

/-- The hash of a sequence of units: each step multiplies by 31 and adds, in 64 bits. -/
def hashUnits (units : List Nat) : UInt64 :=
  units.foldl (fun h unit => h * 31 + UInt64.ofNat unit) 0

/-- The first state; a hash of zero is replaced by one. -/
def seedState (seed : String) : UInt64 :=
  let h := hashUnits (Text.units seed.toList)
  if h = 0 then 1 else h

def ofSeed (seed : String) : Seeded := ⟨seedState seed, 0⟩

/-! ## Drawing words -/

def increment : UInt64 := 0x9E3779B97F4A7C15

/-- A one-to-one scrambling of the words. -/
def mix (word : UInt64) : UInt64 :=
  let z := (word ^^^ (word >>> 30)) * 0xBF58476D1CE4E5B9
  let z := (z ^^^ (z >>> 27)) * 0x94D049BB133111EB
  z ^^^ (z >>> 31)

def step (g : Seeded) : Seeded := ⟨g.state + increment, g.drawn + 1⟩

def nextWord (g : Seeded) : UInt64 × Seeded := (mix g.step.state, g.step)

/-! ## Fractions and ranges -/

/-- How many equal parts the unit interval has. -/
def parts : Nat := Nat.pow 2 53

/-- The upper 53 bits of the next word. -/
def nextPart (g : Seeded) : Nat × Seeded :=
  let (word, g) := g.nextWord
  ((word >>> 11).toNat, g)

/-- The fraction of the unit interval below a part. -/
def fraction (part : Nat) : Number := .finite (part / parts)

def nextFraction (g : Seeded) : Number × Seeded :=
  let (part, g) := g.nextPart
  (fraction part, g)

/-- The integer between two bounds that a fraction points to. -/
def pick (low high share : Number) : Number := (share * (high - low + 1)).floor + low

/-- Two bounds that are integers and stand the right way round. -/
def bounds? : Value → Value → Option (Number × Number)
  | .number low, .number high =>
    if !low.isInteger || !high.isInteger || high < low then none else some (low, high)
  | _, _ => none

/-- Bounds that are no integers, or stand the wrong way round, are refused without a draw. -/
def range (low high : Value) : Draw Seeded Number := fun g =>
  match bounds? low high with
  | none => (.error (.invalidRange low high), g)
  | some (low, high) =>
    let (share, g) := g.nextFraction
    (.ok (pick low high share), g)

instance : DiceSource Seeded := ⟨range⟩

end Seeded

end Adventure
