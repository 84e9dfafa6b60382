import Adventure.Narrator.Provider
import Adventure.Story.Collection
/-!
# The registry of providers

A name belongs to the provider that was registered last under it.

This is `LlmProviderRegistryService`, with `primary` for `getPrimary`, `fallback` for `getFallback`, and
`seated` for their `require`.
-/

namespace Adventure

/-- All providers ever registered, the latest first. -/
structure Registry where
  providers : List Provider

namespace Registry

def empty : Registry := ⟨[]⟩

def register (r : Registry) (s : Settings) (p : Provider) : Registry × List Event :=
  (⟨p :: r.providers⟩, [.providerRegistered p.name (p.isAvailable s)])

def registerAll (s : Settings) : List Provider → Registry → Registry × List Event
  | [], r => (r, [])
  | p :: rest, r =>
    let (r, events) := r.register s p
    let (r, later) := registerAll s rest r
    (r, events ++ later)

/-- The names that are taken, in the order in which they were first taken. -/
def names (r : Registry) : List String :=
  Collection.gain [] (r.providers.reverse.map Provider.name)

def find? (r : Registry) (name : String) : Option Provider :=
  r.providers.find? fun p => p.name == name

/-- The provider for a seat; only texts name providers. -/
def seated (r : Registry) (seat : Seat) (name : Value) : Except Fault Provider :=
  let found := match name with
    | .string s => r.find? s
    | _ => none
  match found with
  | some p => .ok p
  | none => .error (.unregistered seat name r.names)

def primary (r : Registry) (s : Settings) : Except Fault Provider := r.seated .primary s.provider

def fallback (r : Registry) (s : Settings) : Except Fault Provider :=
  r.seated .fallback s.fallbackProvider

def replaceFirst (p : Provider) : List Provider → List Provider
  | [] => []
  | q :: rest => if q.name = p.name then p :: rest else q :: replaceFirst p rest

/-- Keeps what has become of a registered provider. -/
def keep (r : Registry) (p : Provider) : Registry := ⟨replaceFirst p r.providers⟩

end Registry

end Adventure
