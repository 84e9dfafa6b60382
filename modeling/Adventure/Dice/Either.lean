import Adventure.Dice.Scripted
import Adventure.Dice.Seeded
/-!
# Either kind of dice
-/

namespace Adventure

inductive Dice where
  | seeded (g : Seeded)
  | scripted (s : Scripted)
deriving DecidableEq

namespace Dice

def drawn : Dice → Nat
  | seeded g => g.drawn
  | scripted s => s.consumed

def range (low high : Value) : Draw Dice Number := fun dice =>
  match dice with
  | seeded g =>
    let (answer, g) := (Seeded.range low high).run g
    (answer, seeded g)
  | scripted s =>
    let (answer, s) := (Scripted.range low high).run s
    (answer, scripted s)

instance : DiceSource Dice := ⟨range⟩

end Dice

end Adventure
