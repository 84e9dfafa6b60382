import Adventure.Check.Category
import Adventure.Fault
/-!
# Resolutions

The result of a check: the roll, what it was measured against, and how it came out.  All derived
parts are computed here and nowhere else.

Main definition: `Resolution.create`, which accepts consistent drafts only.

| definition | function |
| --- | --- |
| `Draft` | `ResolutionInput` |
| `create` | `createResolutionResult`, its checks in their order |
| `labelOf`, `summarize` | `formatSummary` |
| `payload` | `toResolutionPayload` |
| `criticalRoll`, `fumbleRoll` | `CRITICAL_ROLL`, `FUMBLE_ROLL` |
-/

namespace Adventure

structure Resolution where
  roll : Number
  modifier : Number
  total : Number
  target : Number
  isSuccess : Bool
  isCritical : Bool
  isFumble : Bool
  category : Category
  /-- Dealt on a critical success, suffered on a fumble. -/
  damage : Option Number
  summary : String
deriving DecidableEq

namespace Resolution

/-- What a resolution is made from; nothing of it has been checked yet. -/
structure Draft where
  roll : Value
  modifier : Value
  target : Value
  category : Value
  damage : Value

def criticalRoll : Number := 20
def fumbleRoll : Number := 1

/-! ## How a roll comes out -/

inductive Label where
  | critical
  | fumble
  | success
  | failure
deriving DecidableEq

def Label.text : Label → String
  | critical => "대성공!"
  | fumble => "대실패!"
  | success => "성공!"
  | failure => "실패..."

/-- The highest roll always succeeds and the lowest never; between them the total decides. -/
def labelOf (roll total target : Number) : Label :=
  if roll = criticalRoll then .critical
  else if roll = fumbleRoll then .fumble
  else if target ≤ total then .success
  else .failure

def Label.succeeds : Label → Bool
  | critical => true
  | fumble => false
  | success => true
  | failure => false

/-- Only the outermost rolls have damage. -/
def Label.hurts : Label → Bool
  | critical => true
  | fumble => true
  | success => false
  | failure => false

def summarize (roll modifier target : Number) : String :=
  let total := roll + modifier
  s!"🎲 1d20+{modifier.text} = {total.text} vs DC {target.text} → {(labelOf roll total target).text}"

/-! ## Creation -/

/-- The damage of a draft: required where the roll hurts, and otherwise it must be `null`. -/
def checkDamage (label : Label) (roll : Number) (damage : Value) : Except Fault (Option Number) :=
  match label.hurts, damage with
  | true, .number d =>
    if d.isIntegerFrom 0 then .ok (some d) else .error (.damageRequired roll damage)
  | true, _ => .error (.damageRequired roll damage)
  | false, .null => .ok none
  | false, _ => .error (.unexpectedDamage roll damage)

def checkRoll : Value → Except Fault Number
  | .number roll =>
    if roll.isIntegerIn fumbleRoll criticalRoll then .ok roll
    else .error (.rollOutOfRange (.number roll))
  | v => .error (.rollOutOfRange v)

def checkModifier : Value → Except Fault Number
  | .number modifier =>
    if modifier.isIntegerFrom 0 then .ok modifier else .error (.invalidModifier (.number modifier))
  | v => .error (.invalidModifier v)

def checkTarget : Value → Except Fault Number
  | .number target =>
    if target.isIntegerFrom 1 then .ok target else .error (.invalidTarget (.number target))
  | v => .error (.invalidTarget v)

/-- One of the four categories.  What has no text is refused in the same place (see
`Fault.message`). -/
def checkCategory (v : Value) : Except Fault Category :=
  match Category.ofValue? v with
  | some category => .ok category
  | none => .error (.unknownCategory v)

def ofParts (roll modifier target : Number) (category : Category) (damage : Option Number) :
    Resolution :=
  let total := roll + modifier
  let label := labelOf roll total target
  { roll := roll
    modifier := modifier
    total := total
    target := target
    isSuccess := label.succeeds
    isCritical := label = .critical
    isFumble := label = .fumble
    category := category
    damage := damage
    summary := summarize roll modifier target }

/-- The resolution of a draft; the first part that is wrong is the fault. -/
def create (d : Draft) : Except Fault Resolution := do
  let roll ← checkRoll d.roll
  let modifier ← checkModifier d.modifier
  let target ← checkTarget d.target
  let category ← checkCategory d.category
  let damage ← checkDamage (labelOf roll (roll + modifier) target) roll d.damage
  return ofParts roll modifier target category damage

/-! ## Dynamic form -/

/-- The parts of a resolution, with the target under a name of choice. -/
def toFields (targetName : String) (r : Resolution) : Fields :=
  [("roll", .number r.roll),
    ("modifier", .number r.modifier),
    ("total", .number r.total),
    (targetName, .number r.target),
    ("isSuccess", .bool r.isSuccess),
    ("isCritical", .bool r.isCritical),
    ("isFumble", .bool r.isFumble),
    ("category", .string r.category.name),
    ("damage", .ofNumber? r.damage),
    ("summary", .string r.summary)]

def payload (r : Resolution) : Value := .object (r.toFields "dc")

end Resolution

end Adventure
