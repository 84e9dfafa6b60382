import Adventure.Json.Value
/-!
# Shapes of dynamic values

A check of a dynamic value gives either a value of a type or every issue that was found, in the
order of the fields.  An issue names the place and the problem.

Main definitions: `Shape.Checked`, the checks of numbers, texts and lists, and `Issue.text`.

`ProcessActionInputSchema`, `NumericSettingsSchema` and `StateChangesShape` are written with these
checks; the wording of the issues is that of `zod`.
-/

namespace Adventure.Shape

/-! ## Issues -/

inductive Problem where
  | required
  | wrongKind (wanted received : String)
  | unlisted (wanted received : String)
  | below (bound : Nat)
  | notAbove (bound : Nat)
  | above (bound : Nat)
  | tooShort (bound : Nat)
  | tooLong (bound : Nat)
  | notUuid
deriving DecidableEq

def Problem.message : Problem → String
  | required => "Required"
  | wrongKind wanted received => s!"Expected {wanted}, received {received}"
  | unlisted wanted received => s!"Invalid enum value. Expected {wanted}, received '{received}'"
  | below bound => s!"Number must be greater than or equal to {bound}"
  | notAbove bound => s!"Number must be greater than {bound}"
  | above bound => s!"Number must be less than or equal to {bound}"
  | tooShort bound => s!"String must contain at least {bound} character(s)"
  | tooLong bound => s!"String must contain at most {bound} character(s)"
  | notUuid => "Invalid uuid"

/-- A problem and the place where it was found, from the outside in. -/
structure Issue where
  path : List String
  problem : Problem
deriving DecidableEq

def Issue.text (i : Issue) : String := String.intercalate "." i.path ++ ": " ++ i.problem.message

/-- A checked value, or everything that is wrong with it. -/
abbrev Checked (α : Type) := Except (List Issue) α

def refuse {α : Type} (p : Problem) : Checked α := .error [⟨[], p⟩]

def mismatch (wanted : String) : Value → Problem
  | .missing => .required
  | v => .wrongKind wanted v.kind

def under {α : Type} (key : String) : Checked α → Checked α
  | .ok a => .ok a
  | .error issues => .error (issues.map fun i => { i with path := key :: i.path })

/-- Two checks at once: the issues of both are found. -/
def both {α β : Type} : Checked α → Checked β → Checked (α × β)
  | .ok a, .ok b => .ok (a, b)
  | .ok _, .error q => .error q
  | .error p, .ok _ => .error p
  | .error p, .error q => .error (p ++ q)

/-! ## Checks -/

inductive Demand where
  | integer
  | atLeast (bound : Nat)
  | moreThan (bound : Nat)
  | atMost (bound : Nat)

def Demand.problem? (x : Number) : Demand → Option Problem
  | integer => if x.isInteger then none else some (.wrongKind "integer" "float")
  | atLeast bound => if x < .ofNat bound then some (.below bound) else none
  | moreThan bound => if x ≤ .ofNat bound then some (.notAbove bound) else none
  | atMost bound => if .ofNat bound < x then some (.above bound) else none

/-- A number that meets all demands; every demand that it does not meet is an issue. -/
def number (demands : List Demand) : Value → Checked Number
  | .number .nan => refuse (mismatch "number" (.number .nan))
  | .number x =>
    match demands.filterMap (Demand.problem? x) with
    | [] => .ok x
    | problems => .error (problems.map (⟨[], ·⟩))
  | v => refuse (mismatch "number" v)

def text : Value → Checked String
  | .string s => .ok s
  | v => refuse (mismatch "string" v)

def textOrNull : Value → Checked (Option String)
  | .null => .ok none
  | v => (text v).map some

/-- The items of a list, numbered from `i`. -/
def itemsFrom {α : Type} (check : Value → Checked α) : Nat → List Value → Checked (List α)
  | _, [] => .ok []
  | i, v :: rest =>
    (both (under (toString i) (check v)) (itemsFrom check (i + 1) rest)).map fun p => p.1 :: p.2

def list {α : Type} (check : Value → Checked α) : Value → Checked (List α)
  | .array items => itemsFrom check 0 items
  | v => refuse (mismatch "array" v)

def textList : Value → Checked (List String) := list text

def fieldOf {α : Type} (fields : Fields) (key : String) (check : Value → Checked α) : Checked α :=
  under key (check (Fields.get fields key))

def object : Value → Checked Fields
  | .object fields => .ok fields
  | v => refuse (mismatch "object" v)

end Adventure.Shape
