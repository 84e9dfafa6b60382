import Adventure.Proofs.Check.Rule
/-!
# Checks that are refused

The level and the tier of a check are looked at before a die is rolled. The category is not: it is
looked at when the resolution is made, and all dice of the check have been rolled by then. So a
check that is refused leaves the dice as they were, unless its category is the one thing that is
wrong with it (`refused_check`).
-/

namespace Adventure

variable {σ : Type} [DiceSource σ] {d d' : σ}

/-! ## What is refused -/

theorem Progression.modifierFor_eq_error {level : Value} {f : Fault}
    (h : modifierFor level = .error f) : f = .invalidLevel level := by
  cases level with
  | number l =>
    simp only [modifierFor, checkLevel] at h
    split at h
    · cases h
    · cases h
      rfl
  | _ =>
    cases h
    rfl

theorem targetFor_eq_error {tier : Value} {f : Fault} (h : targetFor tier = .error f) :
    f = .unknownTier tier := by
  unfold targetFor at h
  split at h
  · cases h
  · cases h
    rfl

/-- A category is looked at after roll, modifier and target, and before the damage. -/
theorem Resolution.create_of_unknownCategory {roll modifier target : Number} {category : Value}
    (damage : Value) (hroll : roll.isIntegerIn fumbleRoll criticalRoll)
    (hmodifier : modifier.isIntegerFrom 0) (htarget : target.isIntegerFrom 1)
    (hcategory : Category.ofValue? category = none) :
    create ⟨.number roll, .number modifier, .number target, category, damage⟩ =
      .error (.unknownCategory category) := by
  simp [create, checkRoll, checkModifier, checkTarget, checkCategory, hroll, hmodifier, htarget,
    hcategory, bind, Except.bind]

/-! ## What has been rolled by then -/

variable {level tier category : Value} {f : Fault}

theorem run_performCheck_of_level (h : Progression.modifierFor level = .error f) (d : σ) :
    (performCheck level tier category).run d = (.error f, d) := by
  rw [performCheck, Draw.run_bind, Draw.run_lift, h]

theorem run_performCheck_of_tier {modifier : Number}
    (hlevel : Progression.modifierFor level = .ok modifier) (h : targetFor tier = .error f)
    (d : σ) :
    (performCheck level tier category).run d = (.error f, d) := by
  rw [performCheck, (Draw.gives_lift hlevel d).run_bind, Draw.run_bind, Draw.run_lift, h]

/-- **A refused check** is a violation of the contract. If the level or the tier is wrong, no die
has been rolled. If both are right, the category is wrong, and all dice of the check have been
rolled: the source goes on behind them. Where the wrong part has no text (`Value.hasText`), its
message cannot be written, and `Failure.textless` takes the place of the fault; the dice rolled by
then are the same. -/
theorem refused_check (h : Fair d) (hheld : ∀ l, level = .number l → l.Held)
    (hrun : (performCheck level tier category).run d = (.error f, d')) :
    f.kind = .contractViolation ∧ ∃ drawn : List Int,
      (∀ record, (performCheck level tier category).run (⟨d, record⟩ : Recorded σ) =
        (.error f, ⟨d', record ++ drawn.map fun face : Int => .finite face⟩)) ∧
      ((f = .invalidLevel level ∨ f = .unknownTier tier) ∧ drawn = [] ∧ d' = d ∨
        f = .unknownCategory category ∧ Category.ofValue? category = none ∧
          ∃ (l : Int) (t : Tier) (roll : Int) (extra : List Int),
            level = .number (.finite l) ∧ 1 ≤ l ∧ targetFor tier = .ok t.target ∧
            drawn = roll :: extra ∧
            Rolls d (20 :: extraDice (Progression.facesOf l) roll) drawn d') := by
  rcases Progression.modifierFor_cases level with ⟨g, hg⟩ | ⟨l, rfl, hl⟩
  · rw [run_performCheck_of_level hg] at hrun
    cases hrun
    obtain rfl := Progression.modifierFor_eq_error hg
    refine ⟨rfl, [], fun record => ?_, .inl ⟨.inl rfl, rfl, rfl⟩⟩
    rw [run_performCheck_of_level hg, List.map_nil, List.append_nil]
  have hlevel := Progression.modifierFor_eq_ok hl
  rcases targetFor_cases tier with ⟨g, hg⟩ | ⟨t, ht⟩
  · rw [run_performCheck_of_tier hlevel hg] at hrun
    cases hrun
    obtain rfl := targetFor_eq_error hg
    refine ⟨rfl, [], fun record => ?_, .inl ⟨.inr rfl, rfl, rfl⟩⟩
    rw [run_performCheck_of_tier hlevel hg, List.map_nil, List.append_nil]
  -- From here on the dice are rolled, and the draft is made of them.
  have hmodifier := Progression.modifier_isIntegerFrom hl (hheld l rfl)
  obtain ⟨level, rfl, hlow⟩ := (Number.isIntegerFrom_iff (n := 1)).1 hl
  obtain ⟨roll, extra, d₂, hrolls⟩ := h.exists_check_rolls hlow
  obtain ⟨hface, hdamage⟩ := hrolls.of_check
  rw [hrolls.run_performCheck hlow ht category] at hrun
  cases hcategory : Category.ofValue? category with
  | some c =>
    obtain rfl := Category.eq_of_ofValue? hcategory
    rw [Resolution.create_of_damageRule hface hmodifier t c hdamage] at hrun
    cases hrun
  | none =>
    have hcreate := Resolution.create_of_unknownCategory (.ofNumber? (damageShown extra))
      (Number.isIntegerIn_iff.2 ⟨roll, rfl, hface⟩) hmodifier t.target_isIntegerFrom hcategory
    rw [hcreate] at hrun
    cases hrun
    refine ⟨rfl, roll :: extra, fun record => ?_, .inr ⟨rfl, rfl, level, t, roll, extra, rfl, hlow,
      ht, rfl, hrolls⟩⟩
    rw [(hrolls.recorded record).run_performCheck hlow ht category, hcreate]

/-- A critical hit of one seed that is refused for its category: three dice have been rolled. -/
theorem refused_check_of_a_critical_hit :
    let d := Seeded.ofSeed "seed-2878"
    (performCheck (.number 3) (.string "EASY") (.string "MAGIC")).run d =
        (.error (.unknownCategory (.string "MAGIC")), d.step.step.step) ∧
      ∃ (roll : Int) (extra : List Int),
        Rolls d (20 :: extraDice (Progression.facesOf 3) roll) (roll :: extra)
          d.step.step.step := by
  intro d
  have hrun : (performCheck (.number 3) (.string "EASY") (.string "MAGIC")).run d =
      (.error (.unknownCategory (.string "MAGIC")), d.step.step.step) :=
    Prod.ext (by decide +kernel) (by decide +kernel)
  have hheld : ∀ l, Value.number 3 = .number l → l.Held := by
    intro l hl
    cases hl
    exact Number.ofRat_intCast (n := 3) (by decide)
  obtain ⟨-, drawn, -, ⟨hf, -⟩ | ⟨-, -, l, t, roll, extra, hl, -, -, rfl, hrolls⟩⟩ :=
    refused_check d.fair hheld hrun
  · rcases hf with hf | hf <;> cases hf
  · have hthree : Number.finite (3 : Int) = .finite l := Value.number.inj hl
    obtain rfl := Rat.intCast_inj.1 (Number.finite.inj hthree)
    exact ⟨hrun, roll, extra, hrolls⟩

/-- With a script of one value, a check of a category that does not exist uses it up: the category
is refused behind the roll, and not before it. -/
theorem unknown_category_is_refused_behind_the_roll :
    (Fault.unknownCategory (.string "MAGIC")).kind = .contractViolation ∧
      (performCheck (.number 1) (.string "NORMAL") (.string "MAGIC")).run
        (Scripted.ofValues [.number 10]) =
        (.error (.unknownCategory (.string "MAGIC")), ⟨[], 1⟩) :=
  ⟨rfl, Prod.ext (by decide +kernel) (by decide +kernel)⟩

end Adventure
