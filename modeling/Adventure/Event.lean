import Adventure.Story.Verdict
import Adventure.Json.Order
import Adventure.Json.Printer
import Adventure.Text.Join
/-!
# Events

What is noted down while the game runs.  Every event is written as one line, with a level and the
name of the part of the game that noted it.

Main definitions: `Event` and `Event.line`.

A line's `context` is the name of the service whose logger writes it.
-/

namespace Adventure

/-- How an error of a provider is treated: tried again, or not. -/
inductive Persistence where
  | retryable
  | permanent
deriving DecidableEq

def Persistence.name : Persistence → String
  | retryable => "RETRYABLE"
  | permanent => "PERMANENT"

inductive Event where
  | checked (level tier category : Value) (resolution : Resolution)
  | progressBlocked (verdict : Verdict) (location : Option String) (itemsGained : List String)
  | damageForced (verdict : Verdict) (amount : Value)
  | levelUp (name : String) (level maxHp : Number)
  | died (character : String) (hp : Number) (session : String)
  | unreadable (beginning : String)
  | settingsUpdated (patch : Value)
  | defaultTier (name : String)
  | providerRegistered (name : String) (available : Bool)
  | narratorReady (provider fallback : Value) (keyed : List String)
  | attemptFailed (provider : String) (attempt : Nat) (persistence : Persistence) (error : String)
  | fallbackAnswered (provider : String)
  | fallbackFailed (provider : String) (error : String)
  | narrated (provider : String) (model promptTokens completionTokens latency : Value)

inductive Severity where
  | debug
  | log
  | warn
  | error
deriving DecidableEq

def Severity.name : Severity → String
  | debug => "debug"
  | log => "log"
  | warn => "warn"
  | error => "error"

structure Line where
  severity : Severity
  context : String
  message : String
deriving DecidableEq

namespace Event

def damageRemark : Option Number → String
  | none => ""
  | some d => s!" (damage {d.text})"

/-- A patch as it is noted down: its JSON text, if there is a patch. -/
def patchText : Value → String
  | .missing => Value.missing.text
  | v => Json.text v.arranged

def severity : Event → Severity
  | checked _ _ _ _ => .debug
  | unreadable _ => .warn
  | attemptFailed _ _ _ _ => .warn
  | fallbackFailed _ _ => .error
  | _ => .log

def context : Event → String
  | checked _ _ _ _ => "ResolutionService"
  | progressBlocked _ _ _ => "NarrativeIntegrationService"
  | damageForced _ _ => "NarrativeIntegrationService"
  | levelUp _ _ _ => "CharacterStateService"
  | died _ _ _ => "ActionTurnService"
  | unreadable _ => "NarrativeResponseParser"
  | settingsUpdated _ => "LlmConfigService"
  | defaultTier _ => "GameConfigService"
  | providerRegistered _ _ => "LlmProviderRegistryService"
  | narratorReady _ _ _ => "LlmModule"
  | attemptFailed _ _ _ _ => "LlmCallerService"
  | fallbackAnswered _ => "LlmCallerService"
  | fallbackFailed _ _ => "LlmCallerService"
  | narrated _ _ _ _ _ => "NarrativeGeneratorService"

def message : Event → String
  | checked level tier category r =>
    s!"Lv{level.text} {tier.text} {category.text}: {r.summary}{damageRemark r.damage}"
  | progressBlocked verdict location items =>
    let place := location.getD "-"
    s!"{verdict.name}: blocked location={place} itemsGained=[{Text.enumerate items}]"
  | damageForced verdict amount => s!"{verdict.name}: forced self-damage {amount.text}"
  | levelUp name level maxHp =>
    s!"[LEVEL UP] {name}: Lv{level.text} → Lv{(level + 1).text} (maxHp {maxHp.text})"
  | died character hp session => s!"Character {character} died (hp {hp.text}) in session {session}"
  | unreadable beginning => s!"JSON parse failed: {beginning}"
  | settingsUpdated patch => s!"LLM config updated: {patchText patch}"
  | defaultTier name => s!"Default difficulty: {name}"
  | providerRegistered name available =>
    s!"Registered LLM provider: {name} (available: {(Value.bool available).text})"
  | narratorReady provider fallback keyed =>
    s!"Narrative provider={provider.text}, fallback={fallback.text}, keys set for [{Text.enumerate keyed}]"
  | attemptFailed provider attempt persistence error =>
    s!"Primary \"{provider}\" attempt {attempt} failed ({persistence.name}): {error}"
  | fallbackAnswered provider => s!"Fallback \"{provider}\" succeeded"
  | fallbackFailed provider error => s!"Fallback \"{provider}\" also failed: {error}"
  | narrated provider model promptTokens completionTokens latency =>
    s!"Narrative via {provider}/{model.text}: " ++
      s!"{promptTokens.text}+{completionTokens.text} tokens, {latency.text}ms"

def line (e : Event) : Line := ⟨e.severity, e.context, e.message⟩

end Event

end Adventure
