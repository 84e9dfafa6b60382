import Adventure.Event
import Adventure.Json.Reader
import Adventure.Narrative.Response
import Adventure.Text.Search
/-!
# Reading a narrator's text

A narrator should answer with one JSON object, but may wrap it in other text.  Three parts of the
text are tried as JSON, in this order: the whole text, the first fenced block, and the text from the
first opening to the last closing brace.  The first part that is an object with a narration is the
answer; parts of it that are malformed fall back one by one.  A text without such a part is taken as
the narration itself, and changes nothing.

Main definition: `Response.ofText`, which reads every text.

| definition | part of `NarrativeResponseParser` |
| --- | --- |
| `ofText` | `parse` |
| `fenced`, `braced` | `extractFromCodeBlock`, `extractJsonBraces` |
| `decode?`, `lenientTexts` and its like | `RawNarrativeSchema`, `RawStateChangesSchema` |
| `decodeChanges` | `toStateChanges` |
| `optionLines` | `extractOptionLines` |
| `mostOptions` | `MAX_OPTIONS` |
-/

namespace Adventure.Response

def mostOptions : Nat := 5

def excerptUnits : Nat := 200

/-! ## Parts that fall back -/

/-- The texts of a list, trimmed; blank texts and other items are dropped, and what is no list has
none. -/
def lenientTexts : Value → List String
  | .array items =>
    items.filterMap fun
      | .string s => if Text.trimmed s = "" then none else some (Text.trimmed s)
      | _ => none
  | _ => []

def lenientText : Value → Option String
  | .string s => if Text.trimmed s = "" then none else some (Text.trimmed s)
  | _ => none

/-- An integer; anything else is zero. -/
def lenientInteger : Value → Number
  | .number x => if x.isInteger then x else 0
  | _ => 0

/-- An integer that is not negative; anything else is zero. -/
def lenientCount : Value → Number
  | .number x => if x.isIntegerFrom 0 then x else 0
  | _ => 0

def decodeChanges : Value → Changes
  | .object fields =>
    { hpChange := lenientInteger (Fields.get fields "hp_change")
      experienceGained := lenientCount (Fields.get fields "experience_gained")
      itemsGained := lenientTexts (Fields.get fields "items_gained")
      itemsLost := lenientTexts (Fields.get fields "items_lost")
      location := lenientText (Fields.get fields "location")
      npcsMet := lenientTexts (Fields.get fields "npcs_met")
      discoveries := lenientTexts (Fields.get fields "discoveries") }
  | _ => .nothing

/-- The response that a value in the agreed form stands for; only the narration is required. -/
def decode? : Value → Option Response
  | .object fields =>
    (lenientText (Fields.get fields "narrative")).map fun narrative =>
      { narrative := narrative
        options := (lenientTexts (Fields.get fields "options")).take mostOptions
        changes := decodeChanges (Fields.get fields "state_changes")
        mechanicsApplied := (Fields.get fields "dice_applied").isTrue
        structured := true }
  | _ => none

/-! ## Parts of a text -/

def fence : List Char := ['\x60', '\x60', '\x60']

def withoutFormat (cs : List Char) : List Char := (Text.after? "json".toList cs).getD cs

def fenced (cs : List Char) : List Char :=
  match Text.splitFirst? fence cs with
  | none => []
  | some (_, rest) =>
    match Text.splitFirst? fence (withoutFormat rest) with
    | none => []
    | some (inside, _) => Text.trim inside

/-- The text from the first opening brace to the last closing one. -/
def braced (cs : List Char) : List Char :=
  ((cs.dropWhile (· != '\x7b')).reverse.dropWhile (· != '\x7d')).reverse

def candidates (cs : List Char) : List (List Char) := [Text.trim cs, fenced cs, braced cs]

def ofCandidate? (cs : List Char) : Option Response := (Json.read? cs).bind decode?

/-! ## Texts without a response -/

/-- Whether a line offers an option: it begins with a number up to five and a point, or with a
bullet. -/
def isOptionLine : List Char → Bool
  | '-' :: _ => true
  | '•' :: _ => true
  | d :: '.' :: _ => '1' ≤ d && d ≤ '5'
  | _ => false

def optionLines (cs : List Char) : List String :=
  ((((Text.lines cs).map Text.trim).filter isOptionLine).take mostOptions).map String.ofList

/-- A text as the narration of an action that changes nothing. -/
def plain (cs : List Char) : Response :=
  ⟨String.ofList (Text.trim cs), optionLines cs, .nothing, false, false⟩

def ofText (s : String) : Response × List Event :=
  let cs := s.toList
  match (candidates cs).findSome? ofCandidate? with
  | some r => (r, [])
  | none => (plain cs, [.unreadable (String.ofList (Text.takeUnits excerptUnits cs))])

end Adventure.Response
