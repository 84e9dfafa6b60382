import Adventure.Proofs.Check.Rule
import Adventure.Proofs.Number.Monotone
/-!
# Luck and progress

A check is made better by a higher roll, a higher level and a lower target, and by nothing else made
worse: every operation on the way from a level to its modifier, and from there to the total, keeps
the order, rounded or not (`Progression.modifier_mono`), and the outermost rolls are outermost in the
order as well (`Resolution.Succeeds.mono`). So one who succeeds would have succeeded with more luck,
more experience, or an easier task (`luck_and_progress`).
-/

namespace Adventure

/-! ## What a level is worth -/

namespace Progression

/-- **No level has a lower modifier than the levels below it**, however its formula is rounded. -/
theorem modifier_mono {level level' : Number} (h : level ≤ level') :
    modifier level ≤ modifier level' := by
  have hsub : level - 1 ≤ level' - 1 := Number.add_le_add_right h (-(1 : Nat))
  have hquarter := Number.mul_le_mul_right hsub (by norm_num : (0 : Rat) < 1 / 4)
  exact Number.add_le_add_right (Number.floor_le_floor hquarter) (2 : Nat)

theorem facesOf_mono {level level' : Int} (h : level ≤ level') : facesOf level ≤ facesOf level' := by
  unfold facesOf
  omega

end Progression

/-! ## One check -/

namespace Resolution

/-- The check of a level and a tier, if the die shows `roll`. -/
def ofRoll (level tier category : Value) (roll : Number) (damage : Value) :
    Except Fault Resolution := do
  let modifier ← Progression.modifierFor level
  let target ← targetFor tier
  create ⟨.number roll, .number modifier, .number target, category, damage⟩

/-- The damage that a roll admits: an integer that is not negative if it is one of the outermost
rolls, and otherwise none. -/
def Admits (roll : Int) (damage : Value) : Prop :=
  if roll = 20 ∨ roll = 1 then ∃ n : Int, 0 ≤ n ∧ damage = .number (.finite n) else damage = .null

/-- When a roll succeeds. -/
def Succeeds (roll : Int) (modifier target : Number) : Prop :=
  roll = 20 ∨ roll ≠ 1 ∧ target ≤ .finite roll + modifier

variable {roll roll' : Int} {modifier modifier' target target' : Number} {damage : Value}

theorem Admits.hurts (h : Admits roll damage) (total target : Number) :
    ∃ d, damage = .ofNumber? d ∧ Hurts (labelOf (.finite roll) total target) d := by
  unfold Admits at h
  rw [labelOf_intCast]
  split at h
  · obtain ⟨n, hn, rfl⟩ := h
    refine ⟨some (.finite n), rfl, ?_⟩
    by_cases htwenty : roll = 20
    · rw [if_pos htwenty]
      exact ⟨n, hn, rfl⟩
    · rw [if_neg htwenty, if_pos (by omega)]
      exact ⟨n, hn, rfl⟩
  · rename_i hinner
    subst h
    refine ⟨none, rfl, ?_⟩
    rw [if_neg (by omega), if_neg (by omega)]
    split <;> rfl

theorem isSuccess_ofParts (roll : Int) (modifier target : Number) (c : Category)
    (damage : Option Number) :
    (ofParts (.finite roll) modifier target c damage).isSuccess ↔ Succeeds roll modifier target := by
  simp only [ofParts, labelOf_intCast, Succeeds]
  split_ifs <;> simp_all [Label.succeeds]

/-- A check of a level and a tier is made with every roll, and with all damage that this admits. -/
theorem ofRoll_eq_ok {level : Int} (hlevel : 1 ≤ level) (hheld : (Number.finite level).Held)
    (t : Tier) (c : Category) (hlow : 1 ≤ roll) (hhigh : roll ≤ 20) (hdamage : Admits roll damage) :
    ∃ r, ofRoll (.number (.finite level)) (.string t.name) (.string c.name) (.finite roll) damage =
        .ok r ∧
      (r.isSuccess ↔ Succeeds roll (Progression.modifier (.finite level)) t.target) := by
  have hl := Progression.isLevel_intCast hlevel
  obtain ⟨d, rfl, hhurts⟩ := hdamage.hurts
    (.finite roll + Progression.modifier (.finite level)) t.target
  have hcreate := create_ofParts (c := c) (Number.isIntegerIn_iff.2 ⟨roll, rfl, hlow, hhigh⟩)
    (Progression.modifier_isIntegerFrom hl hheld) t.target_isIntegerFrom hhurts
  refine ⟨_, ?_, isSuccess_ofParts roll _ t.target c d⟩
  rw [ofRoll, Progression.modifierFor_eq_ok hl, targetFor_name]
  exact hcreate

/-- A check that was made is the check of its roll. -/
theorem ofRoll_of_gives_performCheck {σ : Type} [DiceSource σ] {d d' : σ}
    {level tier category : Value} {r : Resolution}
    (h : (performCheck level tier category).Gives d r d') :
    ofRoll level tier category r.roll (.ofNumber? r.damage) = .ok r := by
  obtain ⟨modifier, _, hgiven, h₁⟩ := Draw.gives_bind_iff.1 h
  obtain ⟨hmodifier, rfl⟩ := Draw.gives_lift_iff.1 hgiven
  obtain ⟨target, _, hgiven', h₂⟩ := Draw.gives_bind_iff.1 h₁
  obtain ⟨htarget, rfl⟩ := Draw.gives_lift_iff.1 hgiven'
  obtain ⟨roll, d₁, -, h₃⟩ := Draw.gives_bind_iff.1 h₂
  obtain ⟨damage, d₂, -, h₄⟩ := Draw.gives_bind_iff.1 h₃
  have hcreate := (Draw.gives_lift_iff.1 h₄).1
  obtain ⟨c, rfl⟩ := of_create hcreate
  rw [ofRoll, hmodifier, htarget]
  exact hcreate

/-! ## Better checks -/

/-- **What succeeds, succeeds with a higher roll, a higher modifier and a lower target.** -/
theorem Succeeds.mono (h : Succeeds roll modifier target) (hlow : 1 ≤ roll) (hroll : roll ≤ roll')
    (hhigh : roll' ≤ 20) (hmodifier : modifier ≤ modifier') (htarget : target' ≤ target) :
    Succeeds roll' modifier' target' := by
  rcases h with rfl | ⟨hone, hreached⟩
  · exact .inl (by omega)
  · have htotal := Number.finite_add_le_finite_add (Rat.intCast_le_intCast.2 hroll) hmodifier
    exact .inr ⟨by omega, Number.le_trans htarget (Number.le_trans hreached htotal)⟩

end Resolution

open Resolution Progression in
/-- **Luck and progress are monotone.** A check of a level and a tier is made with every roll of the
die and the damage that it admits. If it succeeds, then so does every check with a roll and a level
that are not lower and a target that is not higher, of whatever category. The damage dice of the
higher level have no fewer faces, and its modifier is not lower. -/
theorem luck_and_progress {level level' roll roll' : Int} {t t' : Tier} {damage damage' : Value}
    (hlevel : 1 ≤ level) (hlevels : level ≤ level') (hheld : (Number.finite level).Held)
    (hheld' : (Number.finite level').Held) (htargets : t'.target ≤ t.target) (hlow : 1 ≤ roll)
    (hrolls : roll ≤ roll') (hhigh : roll' ≤ 20) (hdamage : Admits roll damage)
    (hdamage' : Admits roll' damage') (c c' : Category) :
    (∃ r r',
      ofRoll (.number (.finite level)) (.string t.name) (.string c.name) (.finite roll) damage =
        .ok r ∧
      ofRoll (.number (.finite level')) (.string t'.name) (.string c'.name) (.finite roll') damage' =
        .ok r' ∧
      (r.isSuccess → r'.isSuccess)) ∧
    (∃ faces faces' : Int,
      damagePoolFor (.number (.finite level)) = .ok ⟨1, .number (.finite faces)⟩ ∧
      damagePoolFor (.number (.finite level')) = .ok ⟨1, .number (.finite faces')⟩ ∧
      faces ≤ faces') ∧
    ∃ modifier modifier' : Number,
      modifierFor (.number (.finite level)) = .ok modifier ∧
      modifierFor (.number (.finite level')) = .ok modifier' ∧
      modifier ≤ modifier' := by
  have hlevel' : 1 ≤ level' := hlevel.trans hlevels
  have hmodifiers := modifier_mono (Number.intCast_le_intCast.2 hlevels)
  refine ⟨?_, ?_, ?_⟩
  · obtain ⟨r, hr, hsuccess⟩ := ofRoll_eq_ok hlevel hheld t c hlow (hrolls.trans hhigh) hdamage
    obtain ⟨r', hr', hsuccess'⟩ := ofRoll_eq_ok hlevel' hheld' t' c' (hlow.trans hrolls) hhigh hdamage'
    refine ⟨r, r', hr, hr', fun h => ?_⟩
    exact hsuccess'.2 ((hsuccess.1 h).mono hlow hrolls hhigh hmodifiers htargets)
  · exact ⟨facesOf level, facesOf level', damagePoolFor_intCast hlevel,
      damagePoolFor_intCast hlevel', facesOf_mono hlevels⟩
  · exact ⟨_, _, modifierFor_eq_ok (isLevel_intCast hlevel),
      modifierFor_eq_ok (isLevel_intCast hlevel'), hmodifiers⟩

open Resolution in
/-- A ten is just enough for the fourth level against twelve, so an eleven is enough for a level that
is rounded on the way to its modifier, against eight. -/
theorem luck_and_progress_beyond_exact_levels :
    let level : Int := 2 ^ 200
    (Number.finite level) - 1 = .finite level ∧ ∃ r,
      ofRoll (.number (.finite level)) (.string Tier.easy.name) (.string Category.social.name)
        (.finite (11 : Int)) .null = .ok r ∧ r.isSuccess := by
  intro level
  have hheld : (Number.finite level).Held := by
    change Number.ofRat _ = _
    decide +kernel
  obtain ⟨⟨r, r', hr, hr', hsuccess⟩, -⟩ :=
    @luck_and_progress 4 level 10 11 .normal .easy .null .null (by decide) (by decide)
      (Number.ofRat_intCast (by decide)) hheld (by decide) (by decide) (by decide) (by decide) rfl rfl
      .combat .social
  refine ⟨by decide +kernel, r', hr', hsuccess ?_⟩
  have hshown : (ofRoll (.number (.finite (4 : Int))) (.string Tier.normal.name)
      (.string Category.combat.name) (.finite (10 : Int)) .null).map Resolution.isSuccess =
        .ok true := by decide +kernel
  rw [hr] at hshown
  exact Except.ok.inj hshown

end Adventure
