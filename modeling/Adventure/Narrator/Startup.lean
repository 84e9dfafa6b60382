import Adventure.Narrator.Claude
import Adventure.Narrator.Gemini
import Adventure.Narrator.Mock
import Adventure.Narrator.OpenAi
import Adventure.Narrator.Registry
/-!
# Starting the narrator

All known providers are registered, the one without a key first.

`Registry.start` is what `LlmModule` does when it is initialised.
-/

namespace Adventure

structure Wires where
  openAi : OpenAi.Wire
  claude : Claude.Wire
  gemini : Gemini.Wire

/-- How a call fails that does not reach its vendor. -/
def noConnection : Failure := .error "Error" "Connection error." .missing

/-- No vendor can be reached.  Calls that fail before they are sent still fail in their own way. -/
def Wires.cut : Wires where
  openAi _ _ _ := .error noConnection
  claude connection _ _ :=
    .error (if connection.isKeyed then noConnection else Claude.unauthenticated)
  gemini _ _ _ := .error noConnection

/-- The known providers, in the order in which they are registered. -/
def knownProviders (w : Wires) : List Provider :=
  [Mock.provider, OpenAi.provider w.openAi, Claude.provider w.claude, Gemini.provider w.gemini]

def Settings.readyEvent (s : Settings) : Event :=
  .narratorReady s.provider s.fallbackProvider s.availableProviders

def Registry.start (s : Settings) (w : Wires) : Registry × List Event :=
  let (r, events) := Registry.registerAll s (knownProviders w) Registry.empty
  (r, events ++ [s.readyEvent])

end Adventure
