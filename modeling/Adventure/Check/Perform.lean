import Adventure.Check.Difficulty
import Adventure.Check.Progression
import Adventure.Check.Resolution
/-!
# Performing a check

A roll of one twenty-sided die plus the modifier of the level, against the target of the tier.  The
die is drawn first; after it the damage dice, where the roll hurts.

`performCheck` is `ResolutionService.performCheck`, step by step; `drawDamage` is its branch on
`CRITICAL_ROLL` and `FUMBLE_ROLL`.
-/

namespace Adventure

namespace Draw

def lift {σ α : Type} : Except Fault α → Draw σ α
  | .ok a => pure a
  | .error f => throw f

end Draw

/-- The damage that belongs to a roll: twice the damage dice of the level on a critical success, the
fumble dice on a fumble, and otherwise none. -/
def drawDamage {σ : Type} [DiceSource σ] (level : Value) (roll : Number) : Draw σ (Option Number) :=
  if roll = Resolution.criticalRoll then do
    let pool ← Draw.lift (Progression.damagePoolFor level)
    some <$> pool.doubled.roll
  else if roll = Resolution.fumbleRoll then
    some <$> Progression.fumblePool.roll
  else pure none

/-- Performs a check.  The level and the tier are looked at before a die is drawn. -/
def performCheck {σ : Type} [DiceSource σ] (level tier category : Value) : Draw σ Resolution := do
  let modifier ← Draw.lift (Progression.modifierFor level)
  let target ← Draw.lift (targetFor tier)
  let roll ←
    DiceSource.range (.number Resolution.fumbleRoll) (.number Resolution.criticalRoll)
  let damage ← drawDamage level roll
  Draw.lift (Resolution.create
    ⟨.number roll, .number modifier, .number target, category, .ofNumber? damage⟩)

end Adventure
