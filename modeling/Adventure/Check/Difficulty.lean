import Adventure.Fault
/-!
# Difficulty

The four difficulty tiers and the target that a check has to reach in each of them.

`Tier.target` is `DIFFICULTY_TARGETS`, `targetFor` the function of that name, and `Tier.ofValue?` is
`isDifficultyTier`.
-/

namespace Adventure

inductive Tier where
  | easy
  | normal
  | hard
  | nightmare
deriving DecidableEq

namespace Tier

def name : Tier → String
  | easy => "EASY"
  | normal => "NORMAL"
  | hard => "HARD"
  | nightmare => "NIGHTMARE"

def all : List Tier := [easy, normal, hard, nightmare]

def ofName? (s : String) : Option Tier := all.find? fun t => t.name == s

def target : Tier → Number
  | easy => 8
  | normal => 12
  | hard => 15
  | nightmare => 18

/-- The tier that a value names; only texts name tiers. -/
def ofValue? : Value → Option Tier
  | .string s => ofName? s
  | _ => none

end Tier

/-- The target of the tier whose name is the text of a value.  What has no text is refused in the
same place (see `Fault.message`). -/
def targetFor (tier : Value) : Except Fault Number :=
  match Tier.ofName? tier.text with
  | some t => .ok t.target
  | none => .error (.unknownTier tier)

end Adventure
