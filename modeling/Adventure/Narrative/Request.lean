import Adventure.Story.Character
import Adventure.Story.Session
import Adventure.Text.Join
/-!
# Narrative requests

What a narrator is told about an action, and the messages in which it is told.

`NarrativeRequest` has the fields of its namesake; `Message` is `LlmMessage`, and `Speaker` is
`LlmRole`.
-/

namespace Adventure

/-- Who a message is from; a speaker that the game does not know goes by the name it was given. -/
inductive Speaker where
  | system
  | user
  | assistant
  | other (v : Value)
deriving DecidableEq

namespace Speaker

def ofValue (v : Value) : Speaker :=
  if v = .string "system" then system
  else if v = .string "user" then user
  else if v = .string "assistant" then assistant
  else other v

def toValue : Speaker → Value
  | system => .string "system"
  | user => .string "user"
  | assistant => .string "assistant"
  | other v => v

end Speaker

/-- A message to a narrator; its content goes through to the vendor without a check. -/
structure Message where
  speaker : Speaker
  content : Value
deriving DecidableEq

namespace Message

def joined (messages : List Message) : String :=
  Text.joinBlocks (messages.map fun m => m.content.itemText)

end Message

/-- An action whose check has been made, in its setting. -/
structure NarrativeRequest where
  scenario : Option Scenario
  session : Session
  character : Character
  action : String
  resolution : Resolution
deriving DecidableEq

end Adventure
