import Adventure.Check.Category
import Adventure.Shape
import Adventure.Text.Blank
import Adventure.Text.Units
/-!
# The input of a turn

Which session acts, what it does, in the player's words, and perhaps the category of the action.

Main definition: `TurnInput.ofValue?`, the only gate for what players send.

`ofValue?` is the check by `ProcessActionInputSchema`.
-/

namespace Adventure

structure TurnInput where
  sessionId : String
  action : String
  category : Option Category
deriving DecidableEq

namespace TurnInput

/-! ## Session ids -/

def isHexDigit (c : Char) : Bool :=
  ('0' ≤ c && c ≤ '9') || ('a' ≤ c && c ≤ 'f') || ('A' ≤ c && c ≤ 'F')

def idGroups : List Nat := [8, 4, 4, 4, 12]

/-- Whether a text is made of groups of hexadecimal digits of these lengths, between dashes. -/
def isGrouped : List Nat → List Char → Bool
  | [], cs => cs.isEmpty
  | [n], cs => cs.length = n && cs.all isHexDigit
  | n :: m :: rest, cs =>
    (cs.take n).length = n && (cs.take n).all isHexDigit &&
      match cs.drop n with
      | '-' :: tail => isGrouped (m :: rest) tail
      | _ => false

def checkId (v : Value) : Shape.Checked String := do
  let s ← Shape.text v
  if isGrouped idGroups s.toList then return s else Shape.refuse .notUuid

/-! ## Actions -/

def shortestAction : Nat := 1
def longestAction : Nat := 400

/-- The player's words, trimmed; not empty, and not too long. -/
def checkAction (v : Value) : Shape.Checked String := do
  let s ← Shape.text v
  let words := Text.trimmed s
  let length := Text.unitLength words.toList
  if length < shortestAction then Shape.refuse (.tooShort shortestAction)
  else if longestAction < length then Shape.refuse (.tooLong longestAction)
  else return words

def categoryListing : String :=
  String.intercalate " | " (Category.all.map fun c => s!"'{c.name}'")

def checkCategory : Value → Shape.Checked (Option Category)
  | .missing => .ok none
  | .string s =>
    match Category.ofName? s with
    | some c => .ok (some c)
    | none => Shape.refuse (.unlisted categoryListing s)
  | v => Shape.refuse (.wrongKind categoryListing v.kind)

/-! ## The whole input -/

/-- The input that a value gives, or all that is wrong with it. -/
def ofValue? (v : Value) : Shape.Checked TurnInput := do
  let fields ← Shape.object v
  let (session, words, kind) ←
    Shape.both (Shape.fieldOf fields "sessionId" checkId) <|
    Shape.both (Shape.fieldOf fields "action" checkAction) (Shape.fieldOf fields "category" checkCategory)
  return ⟨session, words, kind⟩

def toValue (i : TurnInput) : Value :=
  .object
    [("sessionId", .string i.sessionId),
      ("action", .string i.action),
      ("category", (i.category.map fun c => Value.string c.name).getD .missing)]

end TurnInput

end Adventure
