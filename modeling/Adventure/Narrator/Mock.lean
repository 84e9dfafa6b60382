import Adventure.Json.Printer
import Adventure.Narrative.Prompt
import Adventure.Narrator.Provider
import Adventure.Text.Blank
import Adventure.Text.Search
/-!
# The mock provider

A narrator that needs no vendor: it repeats the player's words in the agreed form and changes
nothing.

`provider` is `MockProvider`, and `reply` is what its `generate` makes of a request.
-/

namespace Adventure.Mock

def marker : String := s!"[{Prompt.actionHeading}]"

/-- What the user said last; contents that are no texts say nothing. -/
def lastUserContent (messages : List Message) : String :=
  match messages.reverse.find? fun m => m.speaker = .user with
  | some ⟨_, .string content⟩ => content
  | _ => ""

/-- The first line of the player's words; empty where there are none. -/
def actionLine (content : String) : String :=
  match Text.afterLast? marker.toList content.toList with
  | none => ""
  | some rest => String.ofList ((Text.lines (Text.trim rest)).headD [])

def narrative (action : String) : String :=
  if action = "" then "No narrative available." else s!"당신은 \"{action}\"을(를) 시도합니다."

def answer (action : String) : Value :=
  .object
    [("narrative", .string (narrative action)),
      ("options", .array []),
      ("state_changes", .object []),
      ("dice_applied", .bool false)]

def reply (q : Query) : Reply :=
  { text := .string (Json.text (answer (actionLine (lastUserContent q.messages))))
    model := .string "mock-v1"
    promptTokens := .number 0
    completionTokens := .number 0
    latencyMs := .number 0 }

def provider : Provider where
  name := Settings.keylessProvider
  isAvailable _ := true
  newKey _ := .ok .missing
  answer _ _ _ q := .ok (reply q)
  connection := .none
  asked := []

end Adventure.Mock
