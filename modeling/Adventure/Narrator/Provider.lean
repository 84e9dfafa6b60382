import Adventure.Narrative.Request
import Adventure.Narrator.Connection
import Adventure.Narrator.Settings
/-!
# Providers

A provider answers queries: messages, the limits of the answer, and perhaps the model to be asked.
Limits and models go through to the vendor, and the vendor's answer comes back, without a check.
Providers are told apart by name; each remembers its connection and what it has been asked.

`Provider` is the interface `LlmProvider`, `Query` is `LlmProviderRequest`, and `Reply` is
`LlmProviderResponse`.
-/

namespace Adventure

structure Query where
  messages : List Message
  maxTokens : Value
  temperature : Value
  jsonMode : Bool
  model : Value
deriving DecidableEq

/-- What a provider answers, as its vendor put it. -/
structure Reply where
  text : Value
  model : Value
  promptTokens : Value
  completionTokens : Value
  latencyMs : Value
deriving DecidableEq

def Query.modelOr (q : Query) (configured : Value) : Value := q.model.orElse configured

structure Provider where
  name : String
  isAvailable : Settings → Bool
  /-- The key of a new connection, if the vendor can be connected. -/
  newKey : Settings → Except Failure Value
  /-- The answer to a query over a connection, given how many queries there were before it. -/
  answer : Settings → Connection → Nat → Query → Except Failure Reply
  connection : Connection
  /-- The queries so far. -/
  asked : List Query

namespace Provider

def connect (p : Provider) (s : Settings) : Except Failure Provider :=
  (p.connection.connect (p.newKey s)).map fun c => { p with connection := c }

def ask (p : Provider) (s : Settings) (q : Query) : Except Failure Reply × Provider :=
  let asked := { p with asked := p.asked ++ [q] }
  match asked.connect s with
  | .error f => (.error f, asked)
  | .ok connected => (connected.answer s connected.connection p.asked.length q, connected)

def speechless : Except Failure Reply := .error (.value .missing)

/-- A provider that gives out its outcomes in order, and repeats the last one. -/
def scripted (name : String) (available : Bool) (outcomes : List (Except Failure Reply)) :
    Provider where
  name := name
  isAvailable _ := available
  newKey _ := .ok .missing
  answer _ _ n _ := (outcomes[n]?).getD (outcomes.getLastD speechless)
  connection := .none
  asked := []

end Provider

end Adventure
