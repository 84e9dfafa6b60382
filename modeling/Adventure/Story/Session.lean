import Adventure.Story.Chronicle
/-!
# Sessions and scenarios

A session is one character's way through a scenario.  It is active until it is completed, with an
ending.

The records are `GameSessionSnapshot` and `ScenarioSnapshot`.
-/

namespace Adventure

/-- The status of a session; the store may hold values that the game does not know. -/
inductive SessionStatus where
  | active
  | completed
  | other (v : Value)
deriving DecidableEq

namespace SessionStatus

def ofValue (v : Value) : SessionStatus :=
  if v = .string "ACTIVE" then active else if v = .string "COMPLETED" then completed else other v

def toValue : SessionStatus → Value
  | active => .string "ACTIVE"
  | completed => .string "COMPLETED"
  | other v => v

end SessionStatus

/-- How a session ended; the store may hold values that the game does not know. -/
inductive Ending where
  | victory
  | defeat
  | neutral
  | other (v : Value)
deriving DecidableEq

namespace Ending

def ofValue (v : Value) : Ending :=
  if v = .string "VICTORY" then victory
  else if v = .string "DEFEAT" then defeat
  else if v = .string "NEUTRAL" then neutral
  else other v

def toValue : Ending → Value
  | victory => .string "VICTORY"
  | defeat => .string "DEFEAT"
  | neutral => .string "NEUTRAL"
  | other v => v

/-- The ending that a row holds, if it is not `null`. -/
def ofRow? (v : Value) : Option Ending := if v = .null then none else some (ofValue v)

/-- The ending that a commit brings, if it counts as given. -/
def ofCommit? (v : Value) : Option Ending := if v.holds then some (ofValue v) else none

end Ending

structure Session where
  id : String
  characterId : String
  scenarioId : String
  status : SessionStatus
  currentLocation : String
  chronicle : Chronicle
deriving DecidableEq

/-- A scenario; its difficulty need not be the name of a tier that the game knows. -/
structure Scenario where
  id : String
  name : String
  worldSetting : String
  difficulty : Value
deriving DecidableEq

end Adventure
