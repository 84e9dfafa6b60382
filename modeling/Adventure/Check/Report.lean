import Adventure.Check.Resolution
import Adventure.Json.Inherited
/-!
# Reports of checks

How a check came out is told by the resolution that the game has made, or by a record that somebody
hands in and of which nothing has been checked.

Main definitions: the class `CheckReport`, with instances for `Resolution` and for `ClaimedCheck`.

`ClaimedCheck` is a check as `reconcile`, `classifyVerdict` and `renderResolution` take it when it has
not been made by `createResolutionResult`: its flags count by `Value.holds`, and the label of its
category is looked up under any name.
-/

namespace Adventure

class CheckReport (ρ : Type) where
  isSuccess : ρ → Bool
  isCritical : ρ → Bool
  isFumble : ρ → Bool
  /-- The damage that was rolled; `null` where there is none. -/
  damage : ρ → Value
  categoryLabel : ρ → String
  summary : ρ → String

instance : CheckReport Resolution where
  isSuccess := Resolution.isSuccess
  isCritical := Resolution.isCritical
  isFumble := Resolution.isFumble
  damage r := .ofNumber? r.damage
  categoryLabel r := r.category.label
  summary := Resolution.summary

/-- A record that claims to be the result of a check. -/
structure ClaimedCheck where
  record : Value
deriving DecidableEq

namespace ClaimedCheck

def get (c : ClaimedCheck) (key : String) : Value := c.record.field key

/-- The label under a name in the table of labels, where inherited names have theirs; under any
other name, it is missing. -/
def labelNamed (name : String) : String :=
  (((Category.ofName? name).map Category.label).or (Value.inheritedText? name)).getD
    Value.missing.text

def labelOf (category : Value) : String := labelNamed category.text

instance : CheckReport ClaimedCheck where
  isSuccess c := (c.get "isSuccess").holds
  isCritical c := (c.get "isCritical").holds
  isFumble c := (c.get "isFumble").holds
  damage c := c.get "damage"
  categoryLabel c := labelOf (c.get "category")
  summary c := (c.get "summary").text

end ClaimedCheck

end Adventure
