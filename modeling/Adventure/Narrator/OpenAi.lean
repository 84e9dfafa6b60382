import Adventure.Narrator.Provider
/-!
# The OpenAI provider

Messages go out as they are.  There is no connection without a key.

`provider` is `OpenAIProvider`: `call` and `Call.arguments` are what its `generate` sends, and `reply`
is what it makes of the answer.  The client of the vendor is the parameter `Wire`.
-/

namespace Adventure.OpenAi

structure Call where
  model : Value
  messages : List Message
  maxTokens : Value
  temperature : Value
  jsonObject : Bool
  timeoutMs : Nat

def call (s : Settings) (q : Query) : Call :=
  ⟨q.modelOr s.openAi.model, q.messages, q.maxTokens, q.temperature, q.jsonMode, s.timeoutMs⟩

def message (m : Message) : Value :=
  .object [("role", m.speaker.toValue), ("content", m.content)]

def Call.arguments (c : Call) : List Value :=
  [.object
      ([("model", c.model),
          ("messages", .array (c.messages.map message)),
          ("max_tokens", c.maxTokens),
          ("temperature", c.temperature)] ++
        (if c.jsonObject then [("response_format", .object [("type", .string "json_object")])]
          else [])),
    .object [("timeout", .ofNat c.timeoutMs)]]

/-- A chat completion: the content of the first choice that was offered, and what it cost. -/
structure Completion where
  content : Value
  model : Value
  promptTokens : Value
  completionTokens : Value

def Completion.ofValue (v : Value) : Completion :=
  { content := (((v.field "choices").item 0).field "message").field "content"
    model := v.field "model"
    promptTokens := (v.field "usage").field "prompt_tokens"
    completionTokens := (v.field "usage").field "completion_tokens" }

def reply (c : Completion) : Reply :=
  { text := c.content.orElse (.string "")
    model := c.model
    promptTokens := c.promptTokens.orElse (.number 0)
    completionTokens := c.completionTokens.orElse (.number 0)
    latencyMs := .number 0 }

/-- A line to the vendor: what it answers to its n-th call over a connection. -/
abbrev Wire := Connection → Nat → Call → Except Failure Completion

/-- How the vendor refuses to be connected without a key. -/
def keyless : Failure :=
  .error "Error"
    ("The OPENAI_API_KEY environment variable is missing or empty; either provide it, or " ++
      "instantiate the OpenAI client with an apiKey option, like new OpenAI(\x7b apiKey: " ++
      "'My API Key' \x7d).")
    .missing

/-- The key of a new connection: any value that is not missing. -/
def newKey (s : Settings) : Except Failure Value :=
  match s.openAi.key with
  | .missing => .error keyless
  | key => .ok key

def name : String := "openai"

def isAvailable (s : Settings) : Bool := s.openAi.key.holds

def provider (wire : Wire) : Provider where
  name := name
  isAvailable := isAvailable
  newKey := newKey
  answer s connection n q := (wire connection n (call s q)).map reply
  connection := .none
  asked := []

end Adventure.OpenAi
