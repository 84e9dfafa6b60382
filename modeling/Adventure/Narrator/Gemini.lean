import Adventure.Narrator.Provider
/-!
# The Gemini provider

System messages are set apart as an instruction, and the assistant is called the model.  Everybody
else is called the user.

`provider` is `GeminiProvider`: `call` and `Call.arguments` are what its `generate` sends, and `reply`
is what it makes of the answer.  The client of the vendor is the parameter `Wire`.
-/

namespace Adventure.Gemini

structure Content where
  byModel : Bool
  text : Value
deriving DecidableEq

def contents (messages : List Message) : List Content :=
  (messages.filter fun m => m.speaker ≠ .system).map fun m => ⟨m.speaker = .assistant, m.content⟩

def instruction (messages : List Message) : String :=
  Message.joined (messages.filter fun m => m.speaker = .system)

structure Call where
  model : Value
  contents : List Content
  maxTokens : Value
  temperature : Value
  json : Bool
  timeoutMs : Nat
  instruction : String

def call (s : Settings) (q : Query) : Call :=
  { model := q.modelOr s.gemini.model
    contents := contents q.messages
    maxTokens := q.maxTokens
    temperature := q.temperature
    json := q.jsonMode
    timeoutMs := s.timeoutMs
    instruction := instruction q.messages }

def Content.toValue (c : Content) : Value :=
  .object
    [("role", .string (if c.byModel then "model" else "user")),
      ("parts", .array [.object [("text", c.text)]])]

def Call.arguments (c : Call) : List Value :=
  [.object
      [("model", c.model),
        ("contents", .array (c.contents.map Content.toValue)),
        ("config",
          .object
            ([("maxOutputTokens", c.maxTokens), ("temperature", c.temperature)] ++
              (if c.json then [("responseMimeType", .string "application/json")] else []) ++
              [("httpOptions", .object [("timeout", .ofNat c.timeoutMs)])] ++
              (if c.instruction = "" then []
                else [("systemInstruction", .string c.instruction)])))]]

structure Answer where
  text : Value
  promptTokens : Value
  candidatesTokens : Value

def Answer.ofValue (v : Value) : Answer :=
  { text := v.field "text"
    promptTokens := (v.field "usageMetadata").field "promptTokenCount"
    candidatesTokens := (v.field "usageMetadata").field "candidatesTokenCount" }

/-- The reply that an answer is; its model is the one that was asked. -/
def reply (c : Call) (a : Answer) : Reply :=
  { text := a.text.orElse (.string "")
    model := c.model
    promptTokens := a.promptTokens.orElse (.number 0)
    completionTokens := a.candidatesTokens.orElse (.number 0)
    latencyMs := .number 0 }

/-- A line to the vendor: what it answers to its n-th call over a connection. -/
abbrev Wire := Connection → Nat → Call → Except Failure Answer

/-- The key of a new connection; `null` is taken as missing. -/
def newKey (s : Settings) : Except Failure Value := .ok (s.gemini.key.orElse .missing)

def name : String := "gemini"

def isAvailable (s : Settings) : Bool := s.gemini.key.holds

def provider (wire : Wire) : Provider where
  name := name
  isAvailable := isAvailable
  newKey := newKey
  answer s connection n q := (wire connection n (call s q)).map (reply (call s q))
  connection := .none
  asked := []

end Adventure.Gemini
