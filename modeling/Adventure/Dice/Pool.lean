import Adventure.Dice.Source
/-!
# Dice pools

Some dice of one kind, rolled one by one and summed up.

`Pool` is `DiceSpec`, and `Pool.roll` is `ResolutionService.rollDice`, whose loop counts up to the
count of the pool.
-/

namespace Adventure

/-- A number of dice with the same number of faces.  The source of the dice decides which numbers of
faces there are. -/
structure Pool where
  count : Number
  faces : Value
deriving DecidableEq

namespace Pool

/-- No pool is rolled further than this. -/
def mostRolls : Nat := Nat.pow 2 53

/-- How many dice are rolled: the count, rounded up. -/
def rolls : Number → Nat
  | .finite x => Nat.min x.ceil.toNat mostRolls
  | .infinity false => mostRolls
  | _ => 0

def rollOnto {σ : Type} [DiceSource σ] (faces : Value) : Nat → Number → Draw σ Number
  | 0, sum => pure sum
  | n + 1, sum => do
    let face ← DiceSource.range (.number 1) faces
    rollOnto faces n (sum + face)

def roll {σ : Type} [DiceSource σ] (pool : Pool) : Draw σ Number :=
  rollOnto pool.faces (rolls pool.count) 0

def doubled (pool : Pool) : Pool := { pool with count := pool.count * 2 }

end Pool

end Adventure
