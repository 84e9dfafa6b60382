/-!
# Sixteen-bit units of a text

Lengths, cuts and seeds are taken in UTF-16 code units: a character beyond `0xFFFF` counts as two.

Main definitions: `units` and `ofUnits`, which write and read the units of a text, `unitLength`,
and the cut `takeUnits`.

Texts are lists of characters, and no character is a surrogate: a text with an unpaired surrogate is
not represented, nor is a cut of a text inside of a pair.  Where units are read, an unpaired surrogate
becomes `replacement`.
-/

namespace Adventure.Text

def charUnits (c : Char) : List Nat :=
  if c.toNat < 0x10000 then [c.toNat]
  else [0xD800 + (c.toNat - 0x10000) / 0x400, 0xDC00 + (c.toNat - 0x10000) % 0x400]

def units (cs : List Char) : List Nat := cs.flatMap charUnits

def unitLength (cs : List Char) : Nat := (units cs).length

/-- The longest beginning that fits into `n` units. -/
def takeUnits : Nat → List Char → List Char
  | _, [] => []
  | n, c :: cs =>
    let size := (charUnits c).length
    if size ≤ n then c :: takeUnits (n - size) cs else []

/-! ## Reading units -/

def isHighSurrogate (n : Nat) : Bool := 0xD800 ≤ n && n < 0xDC00
def isLowSurrogate (n : Nat) : Bool := 0xDC00 ≤ n && n < 0xE000

def replacement : Char := '\uFFFD'

/-- A unit that is a character of its own; a surrogate without its partner is replaced. -/
def lone (n : Nat) : Char :=
  if isHighSurrogate n || isLowSurrogate n then replacement else Char.ofNat n

/-- The text of a sequence of units.  It has the units it was made of if every surrogate among them
has its partner. -/
def ofUnits : List Nat → List Char
  | [] => []
  | [n] => [lone n]
  | n :: m :: rest =>
    if isHighSurrogate n && isLowSurrogate m then
      Char.ofNat (0x10000 + (n - 0xD800) * 0x400 + (m - 0xDC00)) :: ofUnits rest
    else lone n :: ofUnits (m :: rest)

end Adventure.Text
