import Adventure.Narrator.Provider
/-!
# The Claude provider

System messages are set apart from the conversation, which is between the user and the assistant
alone.  Where JSON is wanted, the assistant's turn is begun with an opening brace, which is put back
before the answer.

`provider` is `ClaudeProvider`: `call` and `Call.arguments` are what its `generate` sends, and `reply`
is what it makes of the answer.  The client of the vendor is the parameter `Wire`.
-/

namespace Adventure.Claude

def system (messages : List Message) : String :=
  Message.joined (messages.filter fun m => m.speaker = .system)

def conversation (messages : List Message) : List Message :=
  messages.filter fun m => m.speaker = .user ∨ m.speaker = .assistant

def opening (jsonMode : Bool) : String := if jsonMode then "\x7b" else ""

structure Call where
  model : Value
  maxTokens : Value
  temperature : Value
  system : String
  messages : List Message
  timeoutMs : Nat

def call (s : Settings) (q : Query) : Call :=
  { model := q.modelOr s.claude.model
    maxTokens := q.maxTokens
    temperature := q.temperature
    system := system q.messages
    messages :=
      conversation q.messages ++
        (if q.jsonMode then [⟨.assistant, .string (opening q.jsonMode)⟩] else [])
    timeoutMs := s.timeoutMs }

def message (m : Message) : Value :=
  .object [("role", m.speaker.toValue), ("content", m.content)]

def Call.arguments (c : Call) : List Value :=
  [.object
      ([("model", c.model),
          ("max_tokens", c.maxTokens),
          ("temperature", c.temperature)] ++
        (if c.system = "" then [] else [("system", .string c.system)]) ++
        [("messages", .array (c.messages.map message))]),
    .object [("timeout", .ofNat c.timeoutMs)]]

inductive Block where
  | text (v : Value)
  | other
deriving DecidableEq

def Block.ofValue (v : Value) : Block :=
  if v.field "type" = .string "text" then text (v.field "text") else other

def Block.content : Block → String
  | text v => v.itemText
  | other => ""

structure Answer where
  content : List Block
  model : Value
  inputTokens : Value
  outputTokens : Value

def Answer.ofValue (v : Value) : Answer :=
  { content := (v.field "content").spread.map Block.ofValue
    model := v.field "model"
    inputTokens := (v.field "usage").field "input_tokens"
    outputTokens := (v.field "usage").field "output_tokens" }

def reply (q : Query) (a : Answer) : Reply :=
  { text := .string (opening q.jsonMode ++ String.join (a.content.map Block.content))
    model := a.model
    promptTokens := a.inputTokens
    completionTokens := a.outputTokens
    latencyMs := .number 0 }

/-- A line to the vendor: what it answers to its n-th call over a connection. -/
abbrev Wire := Connection → Nat → Call → Except Failure Answer

/-- How a call fails before it is sent, over a connection whose key does not count as given. -/
def unauthenticated : Failure :=
  .error "Error"
    ("Could not resolve authentication method. Expected either apiKey or authToken to be set. " ++
      "Or for one of the \"X-Api-Key\" or \"Authorization\" headers to be explicitly omitted")
    .missing

/-- The key of a new connection; nothing is taken as `null`. -/
def newKey (s : Settings) : Except Failure Value := .ok (s.claude.key.orElse .null)

def name : String := "claude"

def isAvailable (s : Settings) : Bool := s.claude.key.holds

def provider (wire : Wire) : Provider where
  name := name
  isAvailable := isAvailable
  newKey := newKey
  answer s connection n q := (wire connection n (call s q)).map (reply q)
  connection := .none
  asked := []

end Adventure.Claude
