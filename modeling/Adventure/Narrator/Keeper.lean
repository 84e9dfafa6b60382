import Adventure.Narrator.Settings
/-!
# The keeper of the settings

The settings that are in force are held in one place, and patches are sent there.  An update checks
the settings that a patch would lead to, puts them in force, and notes the patch down, in this
order.

Main definitions: `Keeper`, and `Keeper.update` as an activity that may be refused.

`Keeper` is the service `LlmConfigService` with its state, and `update` the method of that name.
-/

namespace Adventure

/-- The settings in force, and what has been noted down about them. -/
structure Keeper where
  settings : Settings
  events : List Event

/-- An activity on the settings in force that may end in a fault.  What was done before the fault
stays done. -/
abbrev Keeping := ExceptT Fault (StateM Keeper)

namespace Keeper

def start (env : Environment) : Except Fault Keeper := (Settings.load env).map (⟨·, []⟩)

def assign (s : Settings) : Keeping Unit := modify fun k => { k with settings := s }

def note (e : Event) : Keeping Unit := modify fun k => { k with events := k.events ++ [e] }

/-- Puts a patch over the settings, from the next query on. -/
def update (patch : Value) : Keeping Settings := do
  let updated ← MonadExcept.ofExcept ((← get).settings.update? patch)
  assign updated
  note (.settingsUpdated patch)
  return updated

/-- What has become of the keeper after an update, be it refused or not. -/
def after (k : Keeper) (patch : Value) : Keeper := ((update patch).run k).2

end Keeper

end Adventure
