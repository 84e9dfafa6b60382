import Adventure.Proofs.Shape
import Adventure.Story.Reconcile
/-!
# What a reconciled proposal is made of

A proposal that is accepted has every part of its bundle in the right shape (`ofValue?_eq_ok`), and
what comes out of it is fixed by the verdict's rule (`reconcile_eq_ok`): the bundle itself or the
bundle without progress, the check where the rule shows it, and the damage that the rule forces.
-/

namespace Adventure

namespace Changes

/-- A bundle is accepted just when each of its parts is. -/
theorem ofValue?_eq_ok {v : Value} {c : Changes} :
    ofValue? v = .ok c ↔ ∃ fields, v = .object fields ∧
      Shape.number [.integer] (Fields.get fields "hpChange") = .ok c.hpChange ∧
      Shape.number [.integer, .atLeast 0] (Fields.get fields "experienceGained") =
        .ok c.experienceGained ∧
      Shape.textList (Fields.get fields "itemsGained") = .ok c.itemsGained ∧
      Shape.textList (Fields.get fields "itemsLost") = .ok c.itemsLost ∧
      Shape.textOrNull (Fields.get fields "location") = .ok c.location ∧
      Shape.textList (Fields.get fields "npcsMet") = .ok c.npcsMet ∧
      Shape.textList (Fields.get fields "discoveries") = .ok c.discoveries := by
  unfold ofValue? ofFields?
  simp only [Shape.bind_eq_ok, Shape.object_eq_ok, Shape.both_eq_ok, Shape.fieldOf_eq_ok,
    Shape.pure_eq_ok]
  constructor
  · rintro ⟨fields, rfl, ⟨hp, xp, gained, lost, place, met, found⟩, h, rfl⟩
    exact ⟨fields, rfl, h⟩
  · rintro ⟨fields, rfl, h⟩
    exact ⟨fields, rfl, ⟨_, _, _, _, _, _, _⟩, h, rfl⟩

/-- The change of hit points in an accepted bundle is an integer. -/
theorem hpChange_isInteger {v : Value} {c : Changes} (h : ofValue? v = .ok c) :
    c.hpChange.isInteger = true := by
  obtain ⟨_, _, hp, _⟩ := ofValue?_eq_ok.1 h
  exact Shape.isInteger_of_number hp (by simp)

@[simp] theorem blocked_hpChange (c : Changes) : c.blocked.hpChange = c.hpChange := rfl

@[simp] theorem blocked_itemsLost (c : Changes) : c.blocked.itemsLost = c.itemsLost := rfl

@[simp] theorem blocked_itemsGained (c : Changes) : c.blocked.itemsGained = [] := rfl

@[simp] theorem blocked_location (c : Changes) : c.blocked.location = none := rfl

end Changes

/-! ## Verdicts -/

variable {ρ : Type} [CheckReport ρ]

/-- Only a check that was used and failed blocks progress. -/
theorem Verdict.blocksProgress_of (report : ρ) (used : Bool) :
    (Verdict.of report used).rule.blocksProgress = (used && !CheckReport.isSuccess report) := by
  cases used
  · rfl
  · cases hs : CheckReport.isSuccess report
    · cases hf : CheckReport.isFumble report <;> simp [Verdict.of, hs, hf, Verdict.rule]
    · simp [Verdict.of, hs, Verdict.rule]

/-! ## Reconciling -/

/-- **What reconciling gives**: a well-formed proposal, cut down where the verdict blocks progress,
with the check and the damage that the verdict's rule brings along. -/
theorem reconcile_eq_ok {report : ρ} {flag proposed : Value} {out : Reconciled ρ}
    {remarks : List Event} :
    reconcile report flag proposed = .ok (out, remarks) ↔ ∃ p, Changes.ofValue? proposed = .ok p ∧
      out.verdict = Verdict.of report flag.isTrue ∧
      out.changes = (if out.verdict.rule.blocksProgress then p.blocked else p) ∧
      out.shown = (if out.verdict.rule.showsCheck then some report else none) ∧
      Reconciled.forcedDamage out.verdict.rule report = .ok out.selfDamage ∧
      remarks = Reconciled.events out.verdict p out.selfDamage := by
  unfold reconcile
  cases hp : Changes.ofValue? proposed with
  | error issues => simp
  | ok p =>
    simp only [Reconciled.ofChanges, Shape.bind_eq_ok, Shape.pure_eq_ok, Except.ok.injEq,
      Prod.mk.injEq, exists_eq_left']
    constructor
    · rintro ⟨damage, hd, rfl, rfl⟩
      exact ⟨rfl, rfl, rfl, hd, rfl⟩
    · obtain ⟨verdict, changes, shown, damage⟩ := out
      rintro ⟨rfl, hc, hs, hd, hr⟩
      refine ⟨damage, hd, ?_, hr.symm⟩
      rw [← hc, ← hs]

/-- **A check that was not used has no say**: what is reconciled is the same for every report. -/
theorem reconcile_of_unused {flag : Value} (h : flag.isTrue = false) (report : ρ)
    (proposed : Value) :
    reconcile report flag proposed =
      ((Changes.ofValue? proposed).mapError Fault.malformedChanges).map fun p =>
        (⟨.nonMechanical, p, none, .number 0⟩, []) := by
  unfold reconcile
  rw [h]
  cases Changes.ofValue? proposed <;> rfl

/-- A reconciled bundle changes hit points by an integer. -/
theorem Reconciled.hpChange_isInteger {report : ρ} {flag proposed : Value} {out : Reconciled ρ}
    {remarks : List Event} (h : reconcile report flag proposed = .ok (out, remarks)) :
    out.changes.hpChange.isInteger = true := by
  obtain ⟨p, hp, _, hc, _⟩ := reconcile_eq_ok.1 h
  have hi := Changes.hpChange_isInteger hp
  rw [hc]
  split
  · exact hi
  · exact hi

/-- A reconciled bundle gains a natural number of experience. -/
theorem Reconciled.exists_experienceGained {report : ρ} {flag proposed : Value}
    {out : Reconciled ρ} {remarks : List Event}
    (h : reconcile report flag proposed = .ok (out, remarks)) :
    ∃ n : Nat, out.changes.experienceGained = .finite n := by
  obtain ⟨p, hp, _, hc, _⟩ := reconcile_eq_ok.1 h
  obtain ⟨_, _, -, hgained, _⟩ := Changes.ofValue?_eq_ok.1 hp
  obtain ⟨n, hn, -⟩ := Shape.natural_eq_ok.1 hgained
  refine ⟨n, ?_⟩
  rw [hc]
  split
  · exact hn
  · exact hn

/-- A check that was used and failed leaves the proposal without progress. -/
theorem Reconciled.changes_of_failed {report : ρ} {flag proposed : Value} {out : Reconciled ρ}
    {remarks : List Event} (h : reconcile report flag proposed = .ok (out, remarks))
    (hflag : flag.isTrue = true) (hfail : CheckReport.isSuccess report = false) :
    ∃ p, Changes.ofValue? proposed = .ok p ∧ out.changes = p.blocked := by
  obtain ⟨p, hp, hv, hc, _⟩ := reconcile_eq_ok.1 h
  refine ⟨p, hp, ?_⟩
  rw [hc, hv, Verdict.blocksProgress_of, hflag, hfail]
  rfl

end Adventure
