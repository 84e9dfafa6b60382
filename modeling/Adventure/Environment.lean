/-!
# The environment

The variables with which the game is started.
-/

namespace Adventure

/-- The variables that are set, with their texts. -/
abbrev Environment := List (String × String)

namespace Environment

/-- The text of a variable, if it is set. -/
def text? (env : Environment) (name : String) : Option String :=
  (env.reverse.find? fun v => v.1 == name).map Prod.snd

def textOr (env : Environment) (name fallback : String) : String := (text? env name).getD fallback

end Environment

end Adventure
