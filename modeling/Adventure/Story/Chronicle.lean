import Adventure.Story.Changes
import Adventure.Story.Collection
/-!
# The chronicle of a session

What a session has gathered: the items held, and the places, people and things seen so far.  Only
items can be lost again.

`Chronicle` is `GameState`, and `apply` is `GameStateService.apply`.
-/

namespace Adventure

structure Chronicle where
  items : List String
  visitedLocations : List String
  metNpcs : List String
  discoveries : List String
deriving DecidableEq

namespace Chronicle

def empty : Chronicle := ⟨[], [], [], []⟩

/-- The places that a change of place adds; the nameless place is none. -/
def reached : Option String → List String
  | none => []
  | some place => if place = "" then [] else [place]

def apply (c : Chronicle) (changes : Changes) : Chronicle :=
  { items := Collection.lose (Collection.gain c.items changes.itemsGained) changes.itemsLost
    visitedLocations := Collection.gain c.visitedLocations (reached changes.location)
    metNpcs := Collection.gain c.metNpcs changes.npcsMet
    discoveries := Collection.gain c.discoveries changes.discoveries }

end Chronicle

end Adventure
