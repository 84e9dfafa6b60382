import Adventure.Number.Decimal
import Adventure.Text.Blank
/-!
# Numerals

Two grammars for numbers in text share their parts here: the numbers of JSON, and the numerals of
free text such as settings, which may also stand between blanks, begin or end with the point, carry a
plus sign, be written in base 2, 8 or 16, or name an infinity.

Main definitions: `Numeral.readJson` and `Numeral.ofText`.
-/

namespace Adventure.Numeral

/-- The leading decimal digits and what follows them. -/
def digits (cs : List Char) : List Char × List Char := cs.span Char.isDigit

def value (ds : List Char) : Nat := Nat.ofDigitChars 10 ds 0

/-- The number with these digits before and after the point, and this exponent. -/
def assemble (whole fraction : List Char) (exponent : Int) : Number :=
  Decimal.toNumber ⟨value (whole ++ fraction), exponent - fraction.length⟩

def withSign (negative : Bool) (x : Number) : Number := if negative then -x else x

/-- An optional exponent: `none` where a mark is not followed by digits. -/
def exponent? : List Char → Option (Int × List Char)
  | [] => some (0, [])
  | c :: cs =>
    if c = 'e' ∨ c = 'E' then
      let (negative, rest) := match cs with
        | '-' :: r => (true, r)
        | '+' :: r => (false, r)
        | r => (false, r)
      match digits rest with
      | ([], _) => none
      | (ds, r) => some (if negative then -(value ds : Int) else value ds, r)
    else some (0, c :: cs)

/-! ## Numbers of JSON -/

/-- The whole part: a zero stands alone, and nothing stands for nothing. -/
def whole? : List Char → Option (List Char × List Char)
  | '0' :: cs => some (['0'], cs)
  | cs =>
    match digits cs with
    | ([], _) => none
    | parts => some parts

/-- An optional fraction: `none` where a point is not followed by digits. -/
def fraction? : List Char → Option (List Char × List Char)
  | '.' :: cs =>
    match digits cs with
    | ([], _) => none
    | parts => some parts
  | cs => some ([], cs)

/-- Reads a number from the front of a text. -/
def readJson (cs : List Char) : Option (Number × List Char) := do
  let (negative, cs) := match cs with
    | '-' :: r => (true, r)
    | r => (false, r)
  let (whole, cs) ← whole? cs
  let (fraction, cs) ← fraction? cs
  let (exponent, cs) ← exponent? cs
  some (withSign negative (assemble whole fraction exponent), cs)

/-! ## Numerals of free text -/

def digitValue? (c : Char) : Option Nat :=
  if '0' ≤ c ∧ c ≤ '9' then some (c.toNat - '0'.toNat)
  else if 'a' ≤ c ∧ c ≤ 'f' then some (c.toNat - 'a'.toNat + 10)
  else if 'A' ≤ c ∧ c ≤ 'F' then some (c.toNat - 'A'.toNat + 10)
  else none

/-- The value of a digit sequence in a base, read onto `acc`. -/
def inBase? (base : Nat) : Nat → List Char → Option Nat
  | acc, [] => some acc
  | acc, c :: cs =>
    match digitValue? c with
    | some d => if d < base then inBase? base (acc * base + d) cs else none
    | none => none

def based (base : Nat) (cs : List Char) : Number :=
  if cs.isEmpty then .nan else ((inBase? base 0 cs).map fun n => Number.ofRat n).getD .nan

/-- An unsigned decimal numeral that takes up the whole text. -/
def decimal (cs : List Char) : Number :=
  let (whole, rest) := digits cs
  let (fraction, rest) := match rest with
    | '.' :: r => digits r
    | r => ([], r)
  if whole.isEmpty && fraction.isEmpty then .nan
  else
    match exponent? rest with
    | some (exponent, []) => assemble whole fraction exponent
    | _ => .nan

def magnitude (cs : List Char) : Number :=
  if cs = "Infinity".toList then .infinity false else decimal cs

/-- The number that a text stands for: nothing but blanks is zero, and what is no numeral is `nan`. -/
def ofText (s : String) : Number :=
  match Text.trim s.toList with
  | [] => 0
  | '0' :: 'x' :: cs => based 16 cs
  | '0' :: 'X' :: cs => based 16 cs
  | '0' :: 'o' :: cs => based 8 cs
  | '0' :: 'O' :: cs => based 8 cs
  | '0' :: 'b' :: cs => based 2 cs
  | '0' :: 'B' :: cs => based 2 cs
  | '-' :: cs => -magnitude cs
  | '+' :: cs => magnitude cs
  | cs => magnitude cs

end Adventure.Numeral
