/-!
# Searching in texts

Occurrences of a pattern in a text, and the text around the first and the last of them.
-/

namespace Adventure.Text

/-- What follows `pattern`, if the text begins with it. -/
def after? : List Char → List Char → Option (List Char)
  | [], cs => some cs
  | _ :: _, [] => none
  | p :: ps, c :: cs => if p = c then after? ps cs else none

def occurs (pattern : List Char) : List Char → Bool
  | [] => pattern.isEmpty
  | c :: cs => (after? pattern (c :: cs)).isSome || occurs pattern cs

def splitFirst? (pattern : List Char) : List Char → Option (List Char × List Char)
  | [] => if pattern.isEmpty then some ([], []) else none
  | c :: cs =>
    match after? pattern (c :: cs) with
    | some rest => some ([], rest)
    | none => (splitFirst? pattern cs).map fun parts => (c :: parts.1, parts.2)

def afterLast? (pattern : List Char) : List Char → Option (List Char)
  | [] => if pattern.isEmpty then some [] else none
  | c :: cs =>
    match afterLast? pattern cs with
    | some rest => some rest
    | none => after? pattern (c :: cs)

def lines : List Char → List (List Char)
  | [] => [[]]
  | c :: cs =>
    if c = '\n' then [] :: lines cs
    else
      match lines cs with
      | [] => [[c]]
      | line :: rest => (c :: line) :: rest

/-! ## Letter case -/

/-- Lower case of one character, as far as ASCII letters can show it: besides the capitals of ASCII,
only the Kelvin sign and the dotted capital I turn into text with an ASCII letter. -/
def lowerChar (c : Char) : List Char :=
  if c = '\u212A' then ['k']
  else if c = '\u0130' then ['i', '\u0307']
  else [c.toLower]

/-- The text in lower case, for a search for patterns whose only cased letters are ASCII. -/
def lower (cs : List Char) : List Char := cs.flatMap lowerChar

/-- Whether `pattern`, in lower case, occurs in the text in any case. -/
def mentions (text pattern : String) : Bool := occurs pattern.toList (lower text.toList)

end Adventure.Text
