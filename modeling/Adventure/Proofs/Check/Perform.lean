import Adventure.Check.Perform
import Adventure.Proofs.Check.Progression
import Adventure.Proofs.Check.Resolution
import Adventure.Proofs.Dice.Fair
/-!
# Checks with fair dice

A check of a level, a tier and a category never fails with fair dice: everything that is looked at
before the dice are drawn is right, and so is what the dice add (`gives_performCheck`). Of anything
else a check may be asked too; whether it fails then, and how, is not up to the dice
(`performCheck_cases`).
-/

namespace Adventure

/-- A fault draws nothing, and neither does an answer that was there before. -/
theorem Draw.run_lift {σ α : Type} (x : Except Fault α) (d : σ) :
    (Draw.lift x).run d = (x, d) := by
  cases x <;> rfl

theorem Draw.gives_lift {σ α : Type} {x : Except Fault α} {a : α} (h : x = .ok a) (d : σ) :
    (Draw.lift x).Gives d a d := by
  rw [h]
  exact Draw.gives_pure a d

theorem Draw.gives_lift_iff {σ α : Type} {x : Except Fault α} {a : α} {d d' : σ} :
    (Draw.lift x).Gives d a d' ↔ x = .ok a ∧ d' = d := by
  unfold Draw.Gives
  rw [Draw.run_lift, Prod.mk.injEq, eq_comm (a := d)]

theorem Draw.fails_lift {σ α : Type} {x : Except Fault α} {f : Fault} (h : x = .error f) (d : σ) :
    (Draw.lift x).Fails d f := by
  rw [h]
  rfl

theorem Draw.map_lift {σ α β : Type} (f : α → β) (x : Except Fault α) :
    f <$> (Draw.lift x : Draw σ α) = Draw.lift (x.map f) := by
  cases x <;> rfl

variable {σ : Type} [DiceSource σ] {d : σ}

namespace Progression

theorem checkLevel_eq_ok {level : Number} (h : isLevel level) :
    checkLevel (.number level) = .ok level := by simp [checkLevel, h]

end Progression

theorem Tier.ofName?_name (t : Tier) : Tier.ofName? t.name = some t := by
  cases t <;> decide

theorem Tier.target_isIntegerFrom (t : Tier) : t.target.isIntegerFrom 1 := by
  cases t <;> decide

theorem targetFor_name (t : Tier) : targetFor (.string t.name) = .ok t.target := by
  simp [targetFor, Value.text, Tier.ofName?_name]

theorem Pool.rolls_double : Pool.rolls ((1 : Number) * 2) = 2 := by decide +kernel

theorem Pool.rolls_one : Pool.rolls 1 = 1 := by decide +kernel

/-- Damage dice are small and few enough for every sum. -/
theorem gives_drawDamage (h : Fair d) {level roll : Number} (hlevel : Progression.isLevel level)
    (total target : Number) :
    ∃ damage d', (drawDamage (.number level) roll).Gives d damage d' ∧
      Resolution.Hurts (Resolution.labelOf roll total target) damage ∧ Fair d' := by
  unfold drawDamage Resolution.labelOf Resolution.Hurts
  split
  · -- A critical hit: two dice of the level.
    obtain ⟨n, hn, hlow, hhigh⟩ := Progression.damageFaces_eq level
    have hpool : Progression.damagePoolFor (.number level) = .ok ⟨1, .number (.finite (n : Int))⟩ := by
      simp [Progression.damagePoolFor, Progression.checkLevel_eq_ok hlevel, hn, Except.map]
    have hcount : Pool.rolls (Pool.doubled ⟨1, .number (.finite (n : Int))⟩).count = 2 :=
      Pool.rolls_double
    obtain ⟨sum, d', hg, hmin, -, hd'⟩ := Pool.gives_roll h hcount rfl
      (requestable_faces (by omega : (1 : Int) ≤ n) (by omega)) (by omega)
    exact ⟨some (.finite sum), d', (Draw.gives_lift hpool d).bind (hg.map some),
      ⟨sum, by omega, rfl⟩, hd'⟩
  · split
    · -- A fumble: one die.
      have hcount : Pool.rolls Progression.fumblePool.count = 1 := Pool.rolls_one
      have hfaces : Progression.fumblePool.faces = .number (.finite (4 : Int)) := rfl
      obtain ⟨sum, d', hg, hmin, -, hd'⟩ := Pool.gives_roll h hcount hfaces
        (requestable_faces (by omega) (by omega)) (by omega)
      exact ⟨some (.finite sum), d', hg.map some, ⟨sum, by omega, rfl⟩, hd'⟩
    · refine ⟨none, d, Draw.gives_pure none d, ?_, h⟩
      split <;> rfl

/-- What is drawn for a check: a roll from one to twenty, and the damage that belongs to it. -/
theorem gives_draws (h : Fair d) {level : Number} (hlevel : Progression.isLevel level)
    (target : Number) :
    ∃ (roll : Number) (d₁ : σ) (damage : Option Number) (d₂ : σ),
      (DiceSource.range (.number Resolution.fumbleRoll) (.number Resolution.criticalRoll)).Gives d
        roll d₁ ∧
      roll.isIntegerIn Resolution.fumbleRoll Resolution.criticalRoll ∧
      (drawDamage (.number level) roll).Gives d₁ damage d₂ ∧
      Resolution.Hurts (Resolution.labelOf roll (roll + Progression.modifier level) target) damage ∧
      Fair d₂ := by
  obtain ⟨face, d₁, hroll, hlow, hhigh, hd₁⟩ := h.range
    (requestable_faces (by omega : (1 : Int) ≤ 20) (by omega))
  have hin : (Number.finite face).isIntegerIn Resolution.fumbleRoll Resolution.criticalRoll :=
    Number.isIntegerIn_iff.2 ⟨face, rfl, hlow, hhigh⟩
  obtain ⟨damage, d₂, hdamage, hhurts, hd₂⟩ := gives_drawDamage hd₁ hlevel
    (.finite face + Progression.modifier level) target
  exact ⟨.finite face, d₁, damage, d₂, hroll, hin, hdamage, hhurts, hd₂⟩

theorem Progression.modifierFor_eq_ok {level : Number} (h : isLevel level) :
    modifierFor (.number level) = .ok (modifier level) := by
  simp [modifierFor, checkLevel_eq_ok h, Except.map]

/-- **A check never fails with fair dice.** Its resolution is made of a roll from one to twenty, the
modifier of the level, the target of the tier, and the damage of the roll. -/
theorem gives_performCheck (h : Fair d) {level : Number} (hlevel : Progression.isLevel level)
    (hheld : level.Held) (t : Tier) (c : Category) :
    ∃ (roll : Number) (damage : Option Number) (d' : σ),
      (performCheck (.number level) (.string t.name) (.string c.name)).Gives d
        (Resolution.ofParts roll (Progression.modifier level) t.target c damage) d' ∧
      roll.isIntegerIn Resolution.fumbleRoll Resolution.criticalRoll ∧
      Resolution.Hurts (Resolution.labelOf roll (roll + Progression.modifier level) t.target) damage ∧
      Fair d' := by
  obtain ⟨roll, d₁, damage, d₂, hroll, hin, hdamage, hhurts, hd₂⟩ := gives_draws h hlevel t.target
  refine ⟨roll, damage, d₂, ?_, hin, hhurts, hd₂⟩
  have hcreate := Resolution.create_ofParts hin (Progression.modifier_isIntegerFrom hlevel hheld)
    t.target_isIntegerFrom (c := c) hhurts
  exact (Draw.gives_lift (Progression.modifierFor_eq_ok hlevel) d).bind <|
    (Draw.gives_lift (targetFor_name t) d).bind <| hroll.bind <| hdamage.bind <|
      Draw.gives_lift hcreate d₂

/-! ## Checks that fail -/

theorem Progression.modifierFor_cases (level : Value) :
    (∃ f, modifierFor level = .error f) ∨ ∃ l, level = .number l ∧ isLevel l := by
  cases level with
  | number l =>
    by_cases h : isLevel l
    · exact .inr ⟨l, rfl, h⟩
    · exact .inl ⟨.invalidLevel (.number l), by simp [modifierFor, checkLevel, h, Except.map]⟩
  | _ => exact .inl ⟨_, rfl⟩

theorem targetFor_cases (tier : Value) :
    (∃ f, targetFor tier = .error f) ∨ ∃ t : Tier, targetFor tier = .ok t.target := by
  unfold targetFor
  cases Tier.ofName? tier.text with
  | none => exact .inl ⟨_, rfl⟩
  | some t => exact .inr ⟨t, rfl⟩

/-- What a level adds to a roll may still be refused after the roll, since it is rounded. -/
theorem Resolution.create_of_modifier {roll modifier : Number} (target category damage : Value)
    (hroll : roll.isIntegerIn fumbleRoll criticalRoll) (hmodifier : ¬ modifier.isIntegerFrom 0) :
    create ⟨.number roll, .number modifier, target, category, damage⟩ =
      .error (.invalidModifier (.number modifier)) := by
  simp [create, checkRoll, checkModifier, hroll, hmodifier, bind, Except.bind]

/-- **Whether a check fails is not up to the dice**: with all fair sources it fails alike, or with
none. -/
theorem performCheck_cases (level tier : Value) (c : Category) :
    (∃ fault, ∀ {σ : Type} [DiceSource σ] (d : σ), Fair d →
      (performCheck level tier (.string c.name)).Fails d fault) ∨
    ∀ {σ : Type} [DiceSource σ] (d : σ), Fair d → ∃ resolution d',
      (performCheck level tier (.string c.name)).Gives d resolution d' := by
  rcases Progression.modifierFor_cases level with ⟨f, hf⟩ | ⟨l, rfl, hl⟩
  · exact .inl ⟨f, fun d _ => (Draw.fails_lift hf d).bind⟩
  rcases targetFor_cases tier with ⟨f, hf⟩ | ⟨t, ht⟩
  · exact .inl ⟨f, fun d _ =>
      (Draw.gives_lift (Progression.modifierFor_eq_ok hl) d).fails_bind (Draw.fails_lift hf d).bind⟩
  by_cases hmodifier : (Progression.modifier l).isIntegerFrom 0
  · refine .inr ?_
    intro σ _ d hd
    obtain ⟨roll, d₁, damage, d₂, hroll, hin, hdamage, hhurts, -⟩ := gives_draws hd hl t.target
    have hcreate := Resolution.create_ofParts hin hmodifier t.target_isIntegerFrom (c := c) hhurts
    exact ⟨_, d₂, (Draw.gives_lift (Progression.modifierFor_eq_ok hl) d).bind <|
      (Draw.gives_lift ht d).bind <| hroll.bind <| hdamage.bind <| Draw.gives_lift hcreate d₂⟩
  · refine .inl ⟨.invalidModifier (.number (Progression.modifier l)), ?_⟩
    intro σ _ d hd
    obtain ⟨roll, d₁, damage, d₂, hroll, hin, hdamage, -⟩ := gives_draws hd hl t.target
    have hcreate := Resolution.create_of_modifier (.number t.target) (.string c.name)
      (.ofNumber? damage) hin hmodifier
    exact (Draw.gives_lift (Progression.modifierFor_eq_ok hl) d).fails_bind <|
      (Draw.gives_lift ht d).fails_bind <| hroll.fails_bind <| hdamage.fails_bind <|
        Draw.fails_lift hcreate d₂

/-! ## What a check was made of -/

/-- **A check that was made** is made of what was drawn, whatever it was asked for. -/
theorem of_gives_performCheck {level tier category : Value} {r : Resolution} {d' : σ}
    (h : (performCheck level tier category).Gives d r d') :
    ∃ (modifier target : Number) (c : Category) (damage : Option Number) (d₁ d₂ : σ),
      (DiceSource.range (.number Resolution.fumbleRoll) (.number Resolution.criticalRoll)).Gives d
        r.roll d₁ ∧
      (drawDamage level r.roll).Gives d₁ damage d₂ ∧
      r = Resolution.ofParts r.roll modifier target c damage := by
  obtain ⟨modifier, _, hmodifier, h₁⟩ := Draw.gives_bind_iff.1 h
  obtain ⟨-, rfl⟩ := Draw.gives_lift_iff.1 hmodifier
  obtain ⟨target, _, htarget, h₂⟩ := Draw.gives_bind_iff.1 h₁
  obtain ⟨-, rfl⟩ := Draw.gives_lift_iff.1 htarget
  obtain ⟨roll, d₁, hroll, h₃⟩ := Draw.gives_bind_iff.1 h₂
  obtain ⟨damage, d₂, hdamage, h₄⟩ := Draw.gives_bind_iff.1 h₃
  obtain ⟨c, rfl⟩ := Resolution.of_create (Draw.gives_lift_iff.1 h₄).1
  exact ⟨modifier, target, c, damage, d₁, d₂, hroll, hdamage, rfl⟩

/-- Honest dice hurt by one to four on a fumble. -/
theorem of_gives_fumbleDamage (h : Honest d) {level : Value} {damage : Option Number} {d' : σ}
    (hg : (drawDamage level Resolution.fumbleRoll).Gives d damage d') :
    ∃ n : Int, 1 ≤ n ∧ n ≤ 4 ∧ damage = some (.finite n) := by
  have hother : Resolution.fumbleRoll ≠ Resolution.criticalRoll := by decide
  have hcount : Pool.rolls Progression.fumblePool.count = 1 := Pool.rolls_one
  rw [drawDamage, if_neg hother, if_pos rfl] at hg
  obtain ⟨sum, hsum, rfl⟩ := Draw.gives_map_iff.1 hg
  rw [Pool.roll, hcount] at hsum
  obtain ⟨face, d₁, hface, hpure⟩ := Draw.gives_bind_iff.1 hsum
  obtain ⟨rfl, -⟩ := Draw.gives_pure_iff.1 hpure
  obtain ⟨⟨n, rfl, hlow, hhigh⟩, -⟩ :=
    h.range (requestable_faces (by omega : (1 : Int) ≤ 4) (by omega)) hface
  refine ⟨n, hlow, hhigh, ?_⟩
  have hadd : (0 : Number) + .finite n = .finite n := by
    change Number.ofRat (0 + (n : Rat)) = _
    rw [zero_add]
    exact Number.ofRat_intCast (by omega)
  rw [hadd]

/-- A check whose die showed a one: a fumble, with one to four damage if the dice are honest. -/
theorem of_gives_fumble (h : Honest d) {level tier category : Value} {r : Resolution} {d' : σ}
    (hg : (performCheck level tier category).Gives d r d') (hroll : r.roll = Resolution.fumbleRoll) :
    r.isSuccess = false ∧ r.isFumble = true ∧
      ∃ n : Int, 1 ≤ n ∧ n ≤ 4 ∧ r.damage = some (.finite n) := by
  obtain ⟨modifier, target, c, damage, d₁, d₂, hrange, hdamage, hr⟩ := of_gives_performCheck hg
  obtain ⟨-, hd₁⟩ := h.range (requestable_faces (by omega : (1 : Int) ≤ 20) (by omega)) hrange
  rw [hroll] at hdamage hr
  obtain ⟨n, hlow, hhigh, rfl⟩ := of_gives_fumbleDamage hd₁ hdamage
  rw [hr]
  exact ⟨rfl, rfl, n, hlow, hhigh, rfl⟩

/-- A check whose die showed neither the lowest nor the highest face, and whose total misses the
target. -/
theorem of_gives_miss {level tier category : Value} {r : Resolution} {d' : σ}
    (hg : (performCheck level tier category).Gives d r d') (hlow : r.roll ≠ Resolution.fumbleRoll)
    (hhigh : r.roll ≠ Resolution.criticalRoll) (hmiss : ¬ r.target ≤ r.total) :
    r.isSuccess = false ∧ r.isFumble = false := by
  obtain ⟨modifier, target, c, damage, d₁, d₂, -, -, hr⟩ := of_gives_performCheck hg
  have hlabel : Resolution.labelOf r.roll r.total r.target = .failure := by
    rw [Resolution.labelOf, if_neg hhigh, if_neg hlow, if_neg hmiss]
  rw [hr] at hlabel ⊢
  exact ⟨congrArg Resolution.Label.succeeds hlabel,
    congrArg (fun label => decide (label = Resolution.Label.fumble)) hlabel⟩

end Adventure
