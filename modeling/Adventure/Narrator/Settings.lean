import Adventure.Environment
import Adventure.Event
import Adventure.Number.Numeral
/-!
# Settings of the narrator

Which provider narrates and which one stands in, the models and keys of the providers, and the
limits of a request.  The limits are checked whenever the settings are made or changed; the names
and models are taken as they are given.

Main definitions: `Settings`, `Settings.load` from an environment, `Settings.update?` by a patch,
and `Settings.publicFields`, the view without keys, which fails on a key that is nothing.

| definition | part of `LlmConfigService` |
| --- | --- |
| `load` (`fieldsOf`) | `load` |
| `ofFields?`, `checkLimits` | `validate` by `NumericSettingsSchema` |
| `update?` | `update` |
| `publicFields` | `getPublic` |
| `availableProviders` | `availableProviders` |
-/

namespace Adventure

/-- The key and the model with which a provider is asked. -/
structure Account where
  key : Value
  model : Value

structure Settings where
  provider : Value
  fallbackProvider : Value
  openAi : Account
  claude : Account
  gemini : Account
  maxRetries : Nat
  timeoutMs : Nat
  maxTokens : Nat
  temperature : Number
  /-- Fields that patches have brought in and that nothing reads. -/
  extra : Fields

namespace Settings

/-! ## Settings as a record -/

/-- The fields that are read, in their order. -/
def fieldNames : List String :=
  ["provider", "openaiApiKey", "openaiModel", "claudeApiKey", "claudeModel", "geminiApiKey",
    "geminiModel", "maxRetries", "timeoutMs", "maxTokens", "temperature", "fallbackProvider"]

def toFields (s : Settings) : Fields :=
  [("provider", s.provider),
    ("openaiApiKey", s.openAi.key),
    ("openaiModel", s.openAi.model),
    ("claudeApiKey", s.claude.key),
    ("claudeModel", s.claude.model),
    ("geminiApiKey", s.gemini.key),
    ("geminiModel", s.gemini.model),
    ("maxRetries", .ofNat s.maxRetries),
    ("timeoutMs", .ofNat s.timeoutMs),
    ("maxTokens", .ofNat s.maxTokens),
    ("temperature", .number s.temperature),
    ("fallbackProvider", s.fallbackProvider)] ++ s.extra

def natural (x : Number) : Nat := x.toNat?.getD 0

def count (demand : Shape.Demand) (v : Value) : Shape.Checked Nat :=
  (Shape.number [.integer, demand] v).map natural

/-- The limits of a request, or all that is wrong with them. -/
def checkLimits (fields : Fields) : Shape.Checked (Nat × Nat × Nat × Number) :=
  Shape.both (Shape.fieldOf fields "maxRetries" (count (.atLeast 0))) <|
  Shape.both (Shape.fieldOf fields "timeoutMs" (count (.moreThan 0))) <|
  Shape.both (Shape.fieldOf fields "maxTokens" (count (.moreThan 0)))
    (Shape.fieldOf fields "temperature" (Shape.number [.atLeast 0, .atMost 2]))

/-- The settings that a record gives; only its limits can be wrong. -/
def ofFields? (fields : Fields) : Except Fault Settings :=
  match checkLimits fields with
  | .error issues => .error (.malformedSettings issues)
  | .ok (maxRetries, timeoutMs, maxTokens, temperature) =>
    .ok
      { provider := Fields.get fields "provider"
        fallbackProvider := Fields.get fields "fallbackProvider"
        openAi := ⟨Fields.get fields "openaiApiKey", Fields.get fields "openaiModel"⟩
        claude := ⟨Fields.get fields "claudeApiKey", Fields.get fields "claudeModel"⟩
        gemini := ⟨Fields.get fields "geminiApiKey", Fields.get fields "geminiModel"⟩
        maxRetries := maxRetries
        timeoutMs := timeoutMs
        maxTokens := maxTokens
        temperature := temperature
        extra := Fields.without fieldNames fields }

/-! ## Loading -/

def fieldsOf (env : Environment) : Fields :=
  let text (name fallback : String) : Value := .string (Environment.textOr env name fallback)
  let number (name fallback : String) : Value :=
    .number (Numeral.ofText (Environment.textOr env name fallback))
  [("provider", text "LLM_PROVIDER" "mock"),
    ("openaiApiKey", text "OPENAI_API_KEY" ""),
    ("openaiModel", text "OPENAI_MODEL" "gpt-4o"),
    ("claudeApiKey", text "CLAUDE_API_KEY" ""),
    ("claudeModel", text "CLAUDE_MODEL" "claude-sonnet-4-5-20250929"),
    ("geminiApiKey", text "GEMINI_API_KEY" ""),
    ("geminiModel", text "GEMINI_MODEL" "gemini-2.0-flash"),
    ("maxRetries", number "LLM_MAX_RETRIES" "2"),
    ("timeoutMs", number "LLM_TIMEOUT_MS" "8000"),
    ("maxTokens", number "LLM_MAX_TOKENS" "1024"),
    ("temperature", number "LLM_TEMPERATURE" "0.8"),
    ("fallbackProvider", text "LLM_FALLBACK_PROVIDER" "mock")]

def load (env : Environment) : Except Fault Settings := ofFields? (fieldsOf env)

/-! ## Changing -/

/-- The settings with the fields of a patch put over them; a patch with a wrong limit is refused
whole. -/
def update? (s : Settings) (patch : Value) : Except Fault Settings :=
  ofFields? (Fields.merge s.toFields patch.ownFields)

/-! ## Views -/

/-- How it ends to ask nothing for its length. -/
def noLength (v : Value) : Failure :=
  .error "TypeError" s!"Cannot read properties of {v.text} (reading 'length')" .missing

/-- Whether a key has a length of more than zero: a text or a list with something in it, or an
object that says so.  Nothing cannot be asked. -/
def isSet : Value → Except Failure Bool
  | .missing => .error (noLength .missing)
  | .null => .error (noLength .null)
  | .string s => .ok (s ≠ "")
  | .array items => .ok !items.isEmpty
  | .object fields => .ok (0 < (Fields.get fields "length").toNumber)
  | _ => .ok false

def keylessProvider : String := "mock"

def availableProviders (s : Settings) : List String :=
  [keylessProvider] ++ (if s.openAi.key.holds then ["openai"] else []) ++
    (if s.claude.key.holds then ["claude"] else []) ++
    (if s.gemini.key.holds then ["gemini"] else [])

def keyNames : List String := ["openaiApiKey", "claudeApiKey", "geminiApiKey"]

/-- The view for the public: of the keys only whether they are set. -/
def publicFields (s : Settings) : Except Failure Fields := do
  let openAi ← isSet s.openAi.key
  let claude ← isSet s.claude.key
  let gemini ← isSet s.gemini.key
  return Fields.merge (Fields.without keyNames s.toFields)
    [("openaiApiKeySet", .bool openAi),
      ("claudeApiKeySet", .bool claude),
      ("geminiApiKeySet", .bool gemini),
      ("availableProviders", .texts s.availableProviders)]

end Settings

end Adventure
