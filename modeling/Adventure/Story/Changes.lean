import Adventure.Shape
/-!
# State changes

The bundle of changes that a narrator proposes for a turn: hit points, experience, items won and
lost, a new place, people met and things found.

Main definitions: `Changes`, the check `Changes.ofValue?` of a proposal, and its inverse
`Changes.toValue`.

`Changes` is `StateChanges`, `nothing` is `EMPTY_STATE_CHANGES`, `ofValue?` is the check by
`StateChangesShape`, and `override` is `copyStateChanges`.
-/

namespace Adventure

structure Changes where
  hpChange : Number
  experienceGained : Number
  itemsGained : List String
  itemsLost : List String
  location : Option String
  npcsMet : List String
  discoveries : List String
deriving DecidableEq

namespace Changes

def nothing : Changes := ⟨0, 0, [], [], none, [], []⟩

/-- The same changes without progress: no new place, and nothing won. -/
def blocked (c : Changes) : Changes := { c with location := none, itemsGained := [] }

/-! ## Dynamic form -/

def toFields (c : Changes) : Fields :=
  [("hpChange", .number c.hpChange),
    ("experienceGained", .number c.experienceGained),
    ("itemsGained", .texts c.itemsGained),
    ("itemsLost", .texts c.itemsLost),
    ("location", .ofText? c.location),
    ("npcsMet", .texts c.npcsMet),
    ("discoveries", .texts c.discoveries)]

def toValue (c : Changes) : Value := .object c.toFields

/-- The changes that the fields of an object propose, or all that is wrong with them. -/
def ofFields? (fields : Fields) : Shape.Checked Changes := do
  let (hp, experience, gained, lost, location, met, found) ←
    Shape.both (Shape.fieldOf fields "hpChange" (Shape.number [.integer])) <|
    Shape.both (Shape.fieldOf fields "experienceGained" (Shape.number [.integer, .atLeast 0])) <|
    Shape.both (Shape.fieldOf fields "itemsGained" Shape.textList) <|
    Shape.both (Shape.fieldOf fields "itemsLost" Shape.textList) <|
    Shape.both (Shape.fieldOf fields "location" Shape.textOrNull) <|
    Shape.both (Shape.fieldOf fields "npcsMet" Shape.textList)
      (Shape.fieldOf fields "discoveries" Shape.textList)
  return ⟨hp, experience, gained, lost, location, met, found⟩

def ofValue? (v : Value) : Shape.Checked Changes := do
  let fields ← Shape.object v
  ofFields? fields

/-! ## Bundles that have not been checked -/

def names : List String :=
  ["hpChange", "experienceGained", "itemsGained", "itemsLost", "location", "npcsMet",
    "discoveries"]

def listNames : List String := ["itemsGained", "itemsLost", "npcsMet", "discoveries"]

/-- A part as it is copied: a list is made anew, item by item, and a text in its place gives its
characters. -/
def copyPart (name : String) (v : Value) : Value :=
  if name ∈ listNames then .array v.spread else v

/-- A bundle with some of its parts replaced; what is no part of a bundle is left out. -/
def override (base patch : Fields) : Fields :=
  names.map fun name => (name, copyPart name (Fields.get (Fields.merge base patch) name))

end Changes

end Adventure
