import Adventure.Event
import Adventure.Story.Changes
import Adventure.Story.Collection
/-!
# Characters

A character's level, hit points, experience and belongings, and how a turn changes them: experience
first, with the healing of every level gained, then the change of hit points, then the damage of a
fumble, and the items last.  So no healing of the same turn makes up for its damage.

Main definitions: `Character.apply`, and `Character.climb?`, the climb through the levels, which
need not end.

| definition | method of `CharacterStateService` |
| --- | --- |
| `apply` (`advance`, `changeHp`, `sufferDamage`, `changeItems`) | `apply`, its steps in their order |
| `takeDamage`, `heal`, `isDepleted`, `levelUp` | those of the same names |
| `gainExperience`, `climb?` | `gainExperience` and its loop, which may run for ever |
| `experienceToLeave`, `hpPerLevel` | `experienceForNextLevel`, `MAX_HP_PER_LEVEL_UP` |
-/

namespace Adventure

structure Character where
  id : String
  name : String
  level : Number
  hp : Number
  maxHp : Number
  /-- All experience ever gained. -/
  experience : Number
  /-- The experience gained on the way to the next level. -/
  currentExperience : Number
  inventory : List String
deriving DecidableEq

namespace Character

def experienceToLeave (level : Number) : Number := level * 100

def hpPerLevel : Number := 10

/-! ## Hit points -/

def takeDamage (c : Character) (amount : Number) : Character := { c with hp := c.hp - amount }

def heal (c : Character) (amount : Number) : Character :=
  { c with hp := Number.min c.maxHp (c.hp + amount) }

/-- A positive change heals, a negative one hurts. -/
def changeHp (c : Character) (change : Number) : Character :=
  if 0 < change then c.heal change
  else if change < 0 then c.takeDamage (-change)
  else c

def isDepleted (c : Character) : Bool := c.hp ≤ 0

/-! ## Levels -/

/-- The next level, with more hit points, all of them restored. -/
def levelUp (c : Character) : Character :=
  { c with level := c.level + 1, maxHp := c.maxHp + hpPerLevel, hp := c.maxHp + hpPerLevel }

def levelUpEvent (c : Character) : Event := .levelUp c.name c.level (c.maxHp + hpPerLevel)

def canLeave (c : Character) : Bool := experienceToLeave c.level ≤ c.currentExperience

/-- Leaves a level, with the experience that is left over. -/
def leaveLevel (c : Character) : Character :=
  levelUp { c with currentExperience := c.currentExperience - experienceToLeave c.level }

/-- Leaves levels while the experience allows it, at most `n` times; `none` if that did not end. -/
def climb? : Nat → Character → Option (Character × List Event)
  | 0, c => if c.canLeave then none else some (c, [])
  | n + 1, c =>
    if c.canLeave then
      (climb? n c.leaveLevel).map fun r => (r.1, c.levelUpEvent :: r.2)
    else some (c, [])

/-- A climb visits each pair of level and experience once, or never ends; this is the number of all
pairs of 64-bit numbers. -/
def longestClimb : Nat := Nat.pow 2 128

def addExperience (c : Character) (amount : Number) : Character :=
  { c with
    experience := c.experience + amount
    currentExperience := c.currentExperience + amount }

/-- Gains experience and climbs; `none` if the climb never ends. -/
def gainExperience (c : Character) (amount : Number) : Option (Character × List Event) :=
  climb? longestClimb (c.addExperience amount)

def advance (c : Character) (amount : Number) : Option (Character × List Event) :=
  if 0 < amount then c.gainExperience amount else some (c, [])

/-! ## A turn -/

/-- The inventory after the items of a turn; it is gone through only if something is lost. -/
def changeItems (c : Character) (changes : Changes) : Character :=
  let held := Collection.gain c.inventory changes.itemsGained
  { c with
    inventory :=
      if changes.itemsLost.isEmpty then held else Collection.lose held changes.itemsLost }

def sufferDamage (c : Character) (amount : Number) : Character :=
  if 0 < amount then c.takeDamage amount else c

/-- The damage that a turn forces: an integer that is not negative. -/
def checkSelfDamage : Value → Except Fault Number
  | .number damage =>
    if damage.isIntegerFrom 0 then .ok damage else .error (.invalidSelfDamage (.number damage))
  | v => .error (.invalidSelfDamage v)

def apply (c : Character) (changes : Changes) (selfDamage : Value) :
    Outcome (Character × List Event) :=
  match checkSelfDamage selfDamage with
  | .error f => .failed (.fault f)
  | .ok damage =>
    match c.advance changes.experienceGained with
    | none => .endless
    | some (risen, events) =>
      .done (((risen.changeHp changes.hpChange).sufferDamage damage).changeItems changes, events)

end Character

end Adventure
