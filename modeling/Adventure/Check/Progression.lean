import Adventure.Dice.Pool
/-!
# Progression

What a level is worth in a check: the modifier on the roll and the dice of a critical hit.

| definition | function |
| --- | --- |
| `checkLevel` | `assertLevel` |
| `modifierFor`, `modifier` | `modifierFor` |
| `damagePoolFor`, `damageFaces` | `damageDiceFor` |
| `fumblePool` | `FUMBLE_SELF_DAMAGE_DICE` |
-/

namespace Adventure.Progression

def isLevel (level : Number) : Bool := level.isIntegerFrom 1

/-- The level that a value gives: an integer of one or more.  What has no text is refused in the same
place (see `Fault.message`). -/
def checkLevel : Value → Except Fault Number
  | .number level => if isLevel level then .ok level else .error (.invalidLevel (.number level))
  | v => .error (.invalidLevel v)

/-- Every fourth level adds one to the modifier, which begins at two. -/
def modifier (level : Number) : Number := ((level - 1) * .finite (1 / 4)).floor + 2

/-- The highest level of each band, and the faces of its damage dice. -/
def damageBands : List (Number × Number) := [(2, 4), (4, 6), (6, 8), (8, 10)]

def topFaces : Number := 12

def damageFaces (level : Number) : Number :=
  ((damageBands.find? fun band => level ≤ band.1).map Prod.snd).getD topFaces

def modifierFor (level : Value) : Except Fault Number := (checkLevel level).map modifier

def damagePoolFor (level : Value) : Except Fault Pool :=
  (checkLevel level).map fun l => ⟨1, .number (damageFaces l)⟩

/-- A fumble hurts by the same dice at every level. -/
def fumblePool : Pool := ⟨1, .number 4⟩

end Adventure.Progression
