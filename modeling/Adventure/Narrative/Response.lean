import Adventure.Story.Changes
/-!
# Narrative responses

What a narrator answers to an action: the narration, the options for the next action, and the
changes it proposes.  A response that could be read as the agreed JSON object is *structured*.

Main definitions: `Response`; `Response.encode`, the agreed JSON object; and `Narration`, an answer
none of whose parts has been checked.

`Response` is `NarrativeResponse` as `NarrativeResponseParser` makes it, and `Narration` is one that
any `NarrativeGenerator` may give.
-/

namespace Adventure

/-- A narrator's answer, read from text. -/
structure Response where
  narrative : String
  options : List String
  changes : Changes
  /-- Whether the narrator says that it used the check. -/
  mechanicsApplied : Bool
  structured : Bool
deriving DecidableEq

/-- A narrator's answer as it comes into a turn. -/
structure Narration where
  narrative : Value
  options : Value
  changes : Value
  mechanicsApplied : Value

namespace Response

def toNarration (r : Response) : Narration :=
  ⟨.string r.narrative, .texts r.options, r.changes.toValue, .bool r.mechanicsApplied⟩

def encodeChanges (c : Changes) : Value :=
  .object
    [("hp_change", .number c.hpChange),
      ("experience_gained", .number c.experienceGained),
      ("items_gained", .texts c.itemsGained),
      ("items_lost", .texts c.itemsLost),
      ("location", .ofText? c.location),
      ("npcs_met", .texts c.npcsMet),
      ("discoveries", .texts c.discoveries)]

def encode (r : Response) : Value :=
  .object
    [("narrative", .string r.narrative),
      ("options", .texts r.options),
      ("state_changes", encodeChanges r.changes),
      ("dice_applied", .bool r.mechanicsApplied)]

end Response

end Adventure
