import Adventure.Story.Changes
import Adventure.Event
/-!
# Reconciling a narration with its check

The narrator proposes, the check disposes: a failed check keeps losses and damage but blocks new
places and rewards, and a fumble adds the damage that was rolled.

`reconcile` is the method of `NarrativeIntegrationService`, with `Changes.ofValue?` for its
`assertStateChanges`; `Reconciled` is `ReconcileResult`.
-/

namespace Adventure

/-- What is left of a proposal, and what follows from the check. -/
structure Reconciled (ρ : Type) where
  verdict : Verdict
  changes : Changes
  shown : Option ρ
  /-- Damage that is suffered apart from the changes, as the check reports it. -/
  selfDamage : Value
deriving DecidableEq

namespace Reconciled

variable {ρ : Type} [CheckReport ρ]

/-- The damage that a rule forces; a check without damage cannot force any. -/
def forcedDamage (rule : VerdictRule) (report : ρ) : Except Fault Value :=
  if rule.forcesDamage then
    match CheckReport.damage report with
    | .null => .error .fumbleWithoutDamage
    | d => .ok d
  else .ok (.number 0)

def events (verdict : Verdict) (proposed : Changes) (selfDamage : Value) : List Event :=
  let stopped := proposed.location ≠ none ∨ proposed.itemsGained ≠ []
  (if verdict.rule.blocksProgress ∧ stopped then
    [.progressBlocked verdict proposed.location proposed.itemsGained] else []) ++
  (if 0 < selfDamage.toNumber then [.damageForced verdict selfDamage] else [])

def ofChanges (report : ρ) (used : Bool) (proposed : Changes) :
    Except Fault (Reconciled ρ × List Event) := do
  let verdict := Verdict.of report used
  let rule := verdict.rule
  let selfDamage ← forcedDamage rule report
  let changes := if rule.blocksProgress then proposed.blocked else proposed
  let shown := if rule.showsCheck then some report else none
  return (⟨verdict, changes, shown, selfDamage⟩, events verdict proposed selfDamage)

end Reconciled

/-- Reconciles a proposal of any shape.  Only a flag that is exactly `true` says that the narration
used the check. -/
def reconcile {ρ : Type} [CheckReport ρ] (report : ρ) (flag proposed : Value) :
    Except Fault (Reconciled ρ × List Event) :=
  match Changes.ofValue? proposed with
  | .error issues => .error (.malformedChanges issues)
  | .ok changes => Reconciled.ofChanges report flag.isTrue changes

end Adventure
