import Adventure.Check.Difficulty
import Adventure.Narrator.Settings
/-!
# Rules of the house

The settings of the game itself: the difficulty of a scenario that names none, and the place of the
database.

`Rules.load` is `GameConfigService.load`, and `Rules.event` what its constructor writes.
-/

namespace Adventure

structure Rules where
  defaultDifficulty : Tier
  databaseUrl : String
deriving DecidableEq

namespace Rules

/-- The rules of an environment; an unknown difficulty is refused. -/
def load (env : Environment) : Except Fault Rules :=
  let name := Environment.textOr env "DEFAULT_DIFFICULTY" "NORMAL"
  match Tier.ofName? name with
  | none => .error (.unknownDefaultTier name)
  | some tier => .ok ⟨tier, Environment.textOr env "DATABASE_URL" ""⟩

def event (r : Rules) : Event := .defaultTier r.defaultDifficulty.name

end Rules

end Adventure
