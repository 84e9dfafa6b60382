import Adventure.Json.Value
/-!
# The order of fields

The order in which the fields of an object are written down: names that are indices come first, by
size, and all other names follow as they came.

Main definition: `Value.arranged`, which arranges all objects in a value.
-/

namespace Adventure

namespace Fields

def indexBound : Nat := Nat.pow 2 32 - 1

/-- The index that a name is, in decimal digits and without leading zeros. -/
def index? (name : String) : Option Nat :=
  let digits := name.toList
  if digits.isEmpty || !digits.all Char.isDigit then none
  else
    let n := Numeral.value digits
    if digits = Nat.toDigits 10 n ∧ n < indexBound then some n else none

/-- Puts a field with an index among fields in ascending order of their indices. -/
def insertByIndex (n : Nat) (f : String × Value) :
    List (Nat × (String × Value)) → List (Nat × (String × Value))
  | [] => [(n, f)]
  | (m, g) :: rest => if n < m then (n, f) :: (m, g) :: rest else (m, g) :: insertByIndex n f rest

def indexed (fields : Fields) : Fields :=
  (fields.foldl
    (fun sorted f =>
      match index? f.1 with
      | some n => insertByIndex n f sorted
      | none => sorted) []).map Prod.snd

def arrange (fields : Fields) : Fields :=
  indexed fields ++ fields.filter fun f => (index? f.1).isNone

end Fields

namespace Value

mutual

/-- The value with the fields of every object in it arranged. -/
def arranged : Value → Value
  | array items => array (arrangedItems items)
  | object fields => object (Fields.arrange (arrangedFields fields))
  | v => v

def arrangedItems : List Value → List Value
  | [] => []
  | v :: rest => arranged v :: arrangedItems rest

def arrangedFields : List (String × Value) → List (String × Value)
  | [] => []
  | (name, v) :: rest => (name, arranged v) :: arrangedFields rest

end

end Value

end Adventure
