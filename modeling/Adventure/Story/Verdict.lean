import Adventure.Check.Report
/-!
# Verdicts

What a check means for the narration of an action, and what follows from it.

`Verdict.of` is `classifyVerdict`, and `Verdict.rule` is the table `INTEGRATION_RULES`.
-/

namespace Adventure

inductive Verdict where
  | nonMechanical
  | success
  | failure
  | fumble
deriving DecidableEq

structure VerdictRule where
  /-- No new place is reached and nothing is won. -/
  blocksProgress : Bool
  /-- The player is shown the check. -/
  showsCheck : Bool
  /-- The damage of the check is suffered. -/
  forcesDamage : Bool
deriving DecidableEq

namespace Verdict

def name : Verdict → String
  | nonMechanical => "NON_MECHANICAL"
  | success => "MECHANICAL_SUCCESS"
  | failure => "MECHANICAL_FAILURE"
  | fumble => "MECHANICAL_FUMBLE"

def rule : Verdict → VerdictRule
  | nonMechanical => ⟨false, false, false⟩
  | success => ⟨false, true, false⟩
  | failure => ⟨true, true, false⟩
  | fumble => ⟨true, true, true⟩

/-- The verdict on a check that the narration used or left aside. -/
def of {ρ : Type} [CheckReport ρ] (report : ρ) (used : Bool) : Verdict :=
  if !used then nonMechanical
  else if CheckReport.isSuccess report then success
  else if CheckReport.isFumble report then fumble
  else failure

end Verdict

end Adventure
