import Adventure.Number.Numeral
/-!
# Dynamic values

What narrators, settings patches and players send before it has been checked.  A value may be
missing altogether, which is not the same as `null`.

Main definitions: `Value`, the fields of an object, `Value.text`, the text of a value inside a
message, for the values that have one (`Value.hasText`), and `Value.toNumber`, the number that it
counts as.  Equality of values is decidable.
-/

namespace Adventure

/-- A value of no checked shape. -/
inductive Value where
  | missing
  | null
  | bool (b : Bool)
  | number (x : Number)
  | string (s : String)
  | array (items : List Value)
  | object (fields : List (String × Value))

instance : Inhabited Value := ⟨.missing⟩

/-! ## Equality -/

namespace Value

mutual

def same : Value → Value → Bool
  | missing, missing => true
  | null, null => true
  | bool a, bool b => a = b
  | number x, number y => x = y
  | string s, string t => s = t
  | array xs, array ys => sameItems xs ys
  | object fs, object gs => sameFields fs gs
  | _, _ => false

def sameItems : List Value → List Value → Bool
  | [], [] => true
  | v :: vs, w :: ws => same v w && sameItems vs ws
  | _, _ => false

def sameFields : List (String × Value) → List (String × Value) → Bool
  | [], [] => true
  | (key, v) :: fs, (other, w) :: gs => key = other && same v w && sameFields fs gs
  | _, _ => false

end

mutual

theorem same_iff : (v w : Value) → (same v w = true ↔ v = w)
  | missing, w => by cases w <;> simp [same]
  | null, w => by cases w <;> simp [same]
  | bool _, w => by cases w <;> simp [same]
  | number _, w => by cases w <;> simp [same]
  | string _, w => by cases w <;> simp [same]
  | array vs, w => by cases w <;> simp [same, sameItems_iff vs]
  | object fs, w => by cases w <;> simp [same, sameFields_iff fs]

theorem sameItems_iff : (vs ws : List Value) → (sameItems vs ws = true ↔ vs = ws)
  | [], ws => by cases ws <;> simp [sameItems]
  | v :: vs, ws => by cases ws <;> simp [sameItems, same_iff v, sameItems_iff vs]

theorem sameFields_iff : (fs gs : List (String × Value)) → (sameFields fs gs = true ↔ fs = gs)
  | [], gs => by cases gs <;> simp [sameFields]
  | (key, v) :: fs, gs => by
    cases gs <;> simp [sameFields, same_iff v, sameFields_iff fs, Prod.ext_iff, and_assoc]

end

instance : DecidableEq Value := fun v w => decidable_of_iff _ (same_iff v w)

end Value

/-! ## Objects -/

/-- Named values, in order. -/
abbrev Fields := List (String × Value)

namespace Fields

/-- The value under a name; the last one, if a name comes twice. -/
def get (fields : Fields) (key : String) : Value :=
  ((fields.reverse.find? fun f => f.1 == key).map Prod.snd).getD .missing

/-- Puts a value under a name: in the place of the old one, or at the end. -/
def set (key : String) (v : Value) : Fields → Fields
  | [] => [(key, v)]
  | f :: rest => if f.1 = key then (key, v) :: rest else f :: set key v rest

/-- The fields of `base`, with those of `patch` put over them. -/
def merge (base patch : Fields) : Fields := patch.foldl (fun fs f => set f.1 f.2 fs) base

def without (keys : List String) (fields : Fields) : Fields :=
  fields.filter fun f => !keys.contains f.1

end Fields

/-! ## Reading values -/

namespace Value

def ofNat (n : Nat) : Value := .number (.ofNat n)

def ofText? : Option String → Value
  | none => .null
  | some s => .string s

def ofNumber? : Option Number → Value
  | none => .null
  | some x => .number x

def texts (items : List String) : Value := .array (items.map .string)

/-- The value under a name; only objects have any. -/
def field : Value → String → Value
  | object fields, key => Fields.get fields key
  | _, _ => missing

/-- The item in a place, counted from zero: of a list, or of an object that numbers its fields. -/
def item (v : Value) (place : Nat) : Value :=
  match v with
  | array items => (items[place]?).getD missing
  | object fields => Fields.get fields (toString place)
  | _ => missing

/-- The items of a list, or the characters of a text; nothing else has any. -/
def spread : Value → List Value
  | array items => items
  | string s => s.toList.map fun c => string (String.singleton c)
  | _ => []

/-- The fields of an object; of a list or a text, the items or characters, numbered from zero. -/
def ownFields : Value → Fields
  | object fields => fields
  | v => v.spread.zipIdx.map fun p => (toString p.2, p.1)

def isNothing : Value → Bool
  | missing => true
  | null => true
  | _ => false

def orElse (v other : Value) : Value := if v.isNothing then other else v

/-- Whether the value counts as given: nothing, `false`, zero, `nan` and the empty text do not. -/
def holds : Value → Bool
  | missing => false
  | null => false
  | bool b => b
  | number x => x ≠ 0 && x ≠ .nan
  | string s => s ≠ ""
  | array _ => true
  | object _ => true

def isTrue : Value → Bool
  | bool b => b
  | _ => false

def kind : Value → String
  | missing => "undefined"
  | null => "null"
  | bool _ => "boolean"
  | number .nan => "nan"
  | number _ => "number"
  | string _ => "string"
  | array _ => "array"
  | object _ => "object"

mutual

/-- The text of a value inside a message.  A list shows the texts of its items between commas. -/
def text : Value → String
  | missing => "undefined"
  | null => "null"
  | bool true => "true"
  | bool false => "false"
  | number x => x.text
  | string s => s
  | array items => String.intercalate "," (itemTexts items)
  | object _ => "[object Object]"

def itemTexts : List Value → List String
  | [] => []
  | missing :: rest => "" :: itemTexts rest
  | null :: rest => "" :: itemTexts rest
  | v :: rest => text v :: itemTexts rest

end

mutual

/-- Whether a value can be put into a message.  An object with a `toString` of its own cannot, even
if nothing is under that name, and neither can a list with such an item. -/
def hasText : Value → Bool
  | array items => itemsHaveText items
  | object fields => fields.all fun f => f.1 != "toString"
  | _ => true

def itemsHaveText : List Value → Bool
  | [] => true
  | v :: rest => hasText v && itemsHaveText rest

end

def itemText (v : Value) : String := if v.isNothing then "" else v.text

/-- The number that a value counts as where one is needed: `null` and `false` are zero, `true` is
one, a text is read as a numeral, and what is missing is no number. -/
def toNumber : Value → Number
  | missing => .nan
  | null => 0
  | bool b => if b then 1 else 0
  | number x => x
  | v => Numeral.ofText v.text

end Value

end Adventure
