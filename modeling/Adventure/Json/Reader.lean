import Adventure.Json.Value
import Adventure.Number.Numeral
import Adventure.Text.Units
/-!
# Reading JSON

A strict reader of JSON texts.  Every function takes the characters that are left and returns what
it read together with the characters after it.  The depth of values, and the number of items, is
bounded by the length of the text.

Main definition: `Json.read?`, which accepts a text that is one value between blanks.

A surrogate without its partner is read as `Text.replacement`.
-/

namespace Adventure.Json

def isSpace (c : Char) : Bool := c == ' ' || c == '\n' || c == '\r' || c == '\t'

def skipSpace (cs : List Char) : List Char := cs.dropWhile isSpace

/-! ## Texts -/

def unescape? : Char → Option Nat
  | '"' => some 0x22
  | '\\' => some 0x5C
  | '/' => some 0x2F
  | 'b' => some 0x08
  | 'f' => some 0x0C
  | 'n' => some 0x0A
  | 'r' => some 0x0D
  | 't' => some 0x09
  | _ => none

def hexUnit? (a b c d : Char) : Option Nat := Numeral.inBase? 16 0 [a, b, c, d]

/-- Reads the units of a text up to its closing quote. -/
def readUnits : List Char → Option (List Nat × List Char)
  | [] => none
  | '"' :: rest => some ([], rest)
  | '\\' :: 'u' :: a :: b :: c :: d :: rest => do
    let unit ← hexUnit? a b c d
    let (units, rest) ← readUnits rest
    some (unit :: units, rest)
  | '\\' :: letter :: rest => do
    let unit ← unescape? letter
    let (units, rest) ← readUnits rest
    some (unit :: units, rest)
  | c :: rest =>
    if c = '\\' ∨ c.toNat < 0x20 then none
    else do
      let (units, rest) ← readUnits rest
      some (Text.charUnits c ++ units, rest)

def readText (cs : List Char) : Option (String × List Char) :=
  (readUnits cs).map fun (units, rest) => (String.ofList (Text.ofUnits units), rest)

/-! ## Values -/

def readPlain : List Char → Option (Value × List Char)
  | 'n' :: 'u' :: 'l' :: 'l' :: rest => some (.null, rest)
  | 't' :: 'r' :: 'u' :: 'e' :: rest => some (.bool true, rest)
  | 'f' :: 'a' :: 'l' :: 's' :: 'e' :: rest => some (.bool false, rest)
  | cs => (Numeral.readJson cs).map fun (x, rest) => (.number x, rest)

mutual

def readValue : Nat → List Char → Option (Value × List Char)
  | 0, _ => none
  | n + 1, cs =>
    match skipSpace cs with
    | '"' :: rest => (readText rest).map fun (s, rest) => (.string s, rest)
    | '[' :: rest =>
      match skipSpace rest with
      | ']' :: rest => some (.array [], rest)
      | _ => (readItems n rest).map fun (items, rest) => (.array items, rest)
    | '\x7b' :: rest =>
      match skipSpace rest with
      | '\x7d' :: rest => some (.object [], rest)
      | _ => (readFields n rest).map fun (fields, rest) => (.object fields, rest)
    | cs => readPlain cs

/-- Reads the items of a list, of which there is at least one, and its end. -/
def readItems : Nat → List Char → Option (List Value × List Char)
  | 0, _ => none
  | n + 1, cs => do
    let (v, rest) ← readValue n cs
    match skipSpace rest with
    | ']' :: rest => some ([v], rest)
    | ',' :: rest =>
      let (items, rest) ← readItems n rest
      some (v :: items, rest)
    | _ => none

/-- Reads the fields of an object, of which there is at least one, and its end. -/
def readFields : Nat → List Char → Option (List (String × Value) × List Char)
  | 0, _ => none
  | n + 1, cs =>
    match skipSpace cs with
    | '"' :: rest => do
      let (key, rest) ← readText rest
      match skipSpace rest with
      | ':' :: rest =>
        let (v, rest) ← readValue n rest
        match skipSpace rest with
        | '\x7d' :: rest => some ([(key, v)], rest)
        | ',' :: rest =>
          let (fields, rest) ← readFields n rest
          some ((key, v) :: fields, rest)
        | _ => none
      | _ => none
    | _ => none

end

def read? (cs : List Char) : Option Value :=
  match readValue (cs.length + 1) cs with
  | some (v, rest) => if (skipSpace rest).isEmpty then some v else none
  | none => none

end Adventure.Json
