import Adventure.Json.Value
/-!
# Writing JSON

The compact JSON text of a value: no blanks, the fields in their order, and escapes only where the
format demands them.  A missing field is left out; a missing item of a list and a number without a
finite value are `null`.
-/

namespace Adventure.Json

/-- The letter behind the backslash, for the characters that have a short escape. -/
def escapeLetter? : Char → Option Char
  | '"' => some '"'
  | '\\' => some '\\'
  | '\x08' => some 'b'
  | '\x0c' => some 'f'
  | '\n' => some 'n'
  | '\r' => some 'r'
  | '\t' => some 't'
  | _ => none

def hexDigit (n : Nat) : Char := if n < 10 then Char.ofNat (48 + n) else Char.ofNat (87 + n)

def escape (c : Char) : List Char :=
  match escapeLetter? c with
  | some letter => ['\\', letter]
  | none =>
    if c.toNat < 0x20 then
      ['\\', 'u', '0', '0', hexDigit (c.toNat / 16), hexDigit (c.toNat % 16)]
    else [c]

def quoted (cs : List Char) : List Char := '"' :: (cs.flatMap escape ++ ['"'])

/-- A number; `null` where JSON has no text for it. -/
def number : Number → List Char
  | .finite x => (Number.finite x).chars
  | _ => "null".toList

mutual

/-- The JSON text of a value. -/
def print : Value → List Char
  | .missing => "null".toList
  | .null => "null".toList
  | .bool true => "true".toList
  | .bool false => "false".toList
  | .number x => number x
  | .string s => quoted s.toList
  | .array items => '[' :: (List.intercalate [','] (printItems items) ++ [']'])
  | .object fields => '\x7b' :: (List.intercalate [','] (printFields fields) ++ ['\x7d'])

def printItems : List Value → List (List Char)
  | [] => []
  | v :: rest => print v :: printItems rest

/-- The texts of the fields that are not missing. -/
def printFields : List (String × Value) → List (List Char)
  | [] => []
  | (_, .missing) :: rest => printFields rest
  | (key, v) :: rest => (quoted key.toList ++ ':' :: print v) :: printFields rest

end

/-- The JSON text of a value. -/
def text (v : Value) : String := String.ofList (print v)

end Adventure.Json
