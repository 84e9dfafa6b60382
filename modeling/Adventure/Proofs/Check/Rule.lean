import Adventure.Proofs.Check.Replay
import Adventure.Proofs.Number.Spacing
import Mathlib.Data.Rat.Floor
/-!
# The rule of a check

A check of any level is decided by the twenty-sided die: `performCheck_follows_rule` says which dice
are rolled, in which order, and how everything in the resolution follows from what they show. The
dice of a check are rolled one after the other and depend on each other only through the first of
them (`Rolls`, `extraDice`), so a run of a check is determined by a row of dice
(`Rolls.run_performCheck`), and so is the record of it.
-/

namespace Adventure

/-! ## What a level is worth, in integers -/

namespace Progression

/-- The modifier of a level. -/
def modifierOf (level : Int) : Int := (level - 1) / 4 + 2

/-- The faces of the damage dice of a level: two more with every second level, up to twelve. -/
def facesOf (level : Int) : Int := Min.min 12 (4 + 2 * ((level - 1) / 2))

open Binary64 in
/-- **Below `2 ^ 53` the modifier is not rounded**: a quarter of a level is a number as well. -/
theorem modifier_intCast {level : Int} (hlow : 1 ≤ level) (hhigh : level < 2 ^ 53) :
    modifier (.finite level) = .finite (modifierOf level) := by
  have hsub : Number.finite level - 1 = .finite (level - 1 : Int) :=
    Number.sub_intCast (b := 1) (by omega)
  have hquarter : (1 / 4 : Rat) = (2 : Rat) ^ (-2 : Int) := by norm_num
  have hexact : Number.ofRat (((level - 1 : Int) : Rat) * (1 / 4)) =
      .finite (((level - 1 : Int) : Rat) * (1 / 4)) := by
    rcases (by omega : level - 1 = 0 ∨ 0 < level - 1) with hzero | hpos
    · rw [hzero, Int.cast_zero, zero_mul]
      exact Number.ofRat_intCast (n := 0) (by simp)
    · have hlimit : ((level - 1 : Int) : Rat) * (1 / 4) < limit := by
        have hlt : ((level - 1 : Int) : Rat) < ((2 ^ 53 : Int) : Rat) := by
          exact_mod_cast (by omega : level - 1 < 2 ^ 53)
        have hpower : ((2 ^ 53 : Int) : Rat) < limit := by
          have hcast : ((2 ^ 53 : Int) : Rat) = (2 : Rat) ^ (53 : Int) := by norm_num
          rw [hcast]
          exact zpow_lt_zpow_right₀ (by norm_num) (by norm_num)
        have hnonneg : (0 : Rat) < (level - 1 : Int) := by exact_mod_cast hpos
        linarith
      refine Number.ofRat_of_kept (by positivity) ?_ hlimit
      rw [hquarter]
      exact kept_mul_zpow hpos (by omega) (by omega)
  have hfloor : (((level - 1 : Int) : Rat) * (1 / 4)).floor = (level - 1) / 4 := by
    rw [mul_one_div]
    exact Rat.floor_intCast_div_natCast (level - 1) 4
  unfold modifier
  rw [hsub]
  change Number.floor (Number.ofRat _) + 2 = _
  rw [hexact]
  change Number.finite ((((level - 1 : Int) : Rat) * (1 / 4)).floor : Int) + 2 = _
  rw [hfloor]
  exact Number.add_intCast (b := 2) (by omega)

/-- The bands of the levels, as a formula. -/
theorem damageFaces_intCast {level : Int} (hlow : 1 ≤ level) :
    damageFaces (.finite level) = .finite (facesOf level) := by
  have hband (b : Nat) : Number.finite level ≤ .finite b ↔ level ≤ b :=
    Number.intCast_le_intCast (b := b)
  have htwo : Number.finite level ≤ 2 ↔ level ≤ 2 := hband 2
  have hfour : Number.finite level ≤ 4 ↔ level ≤ 4 := hband 4
  have hsix : Number.finite level ≤ 6 ↔ level ≤ 6 := hband 6
  have height : Number.finite level ≤ 8 ↔ level ≤ 8 := hband 8
  have hfaces (n : Int) (h : facesOf level = n) : Number.finite n = .finite (facesOf level) := by
    rw [h]
  unfold facesOf at hfaces
  simp only [damageFaces, damageBands, List.find?, htwo, hfour, hsix, height]
  by_cases h2 : level ≤ 2
  · rw [decide_eq_true h2]
    exact hfaces 4 (by omega)
  rw [decide_eq_false h2]
  by_cases h4 : level ≤ 4
  · rw [decide_eq_true h4]
    exact hfaces 6 (by omega)
  rw [decide_eq_false h4]
  by_cases h6 : level ≤ 6
  · rw [decide_eq_true h6]
    exact hfaces 8 (by omega)
  rw [decide_eq_false h6]
  by_cases h8 : level ≤ 8
  · rw [decide_eq_true h8]
    exact hfaces 10 (by omega)
  rw [decide_eq_false h8]
  exact hfaces 12 (by omega)

theorem facesOf_bounds {level : Int} (hlow : 1 ≤ level) :
    4 ≤ facesOf level ∧ facesOf level ≤ 12 := by
  unfold facesOf
  omega

theorem damagePoolFor_intCast {level : Int} (h : 1 ≤ level) :
    damagePoolFor (.number (.finite level)) = .ok ⟨1, .number (.finite (facesOf level))⟩ := by
  rw [damagePoolFor, checkLevel_eq_ok (isLevel_intCast h), Except.map, damageFaces_intCast h]

end Progression

/-! ## Dice in a row -/

/-- Dice with the given faces, each counted from one, are rolled one after the other, and show the
given values. -/
inductive Rolls {σ : Type} [DiceSource σ] : σ → List Int → List Int → σ → Prop where
  | nil (d : σ) : Rolls d [] [] d
  | cons {d d' d'' : σ} {faces face : Int} {more shown : List Int} :
      (DiceSource.range (.number 1) (.number (.finite faces))).Gives d (.finite face) d' →
      1 ≤ face → face ≤ faces → Rolls d' more shown d'' →
      Rolls d (faces :: more) (face :: shown) d''

variable {σ : Type} [DiceSource σ] {d d' : σ} {faces shown : List Int}

/-- Fair dice can be rolled in any row, and stay fair. -/
theorem Fair.exists_rolls (h : Fair d) (hfaces : ∀ f ∈ faces, Requestable 1 f) :
    ∃ shown d', Rolls d faces shown d' ∧ Fair d' := by
  induction faces generalizing d with
  | nil => exact ⟨[], d, .nil d, h⟩
  | cons f more ih =>
    obtain ⟨face, d₁, hg, hlow, hhigh, hd₁⟩ := h.range (hfaces f List.mem_cons_self)
    obtain ⟨shown, d₂, hrolls, hd₂⟩ := ih hd₁ fun g hg => hfaces g (List.mem_cons_of_mem f hg)
    exact ⟨face :: shown, d₂, .cons hg hlow hhigh hrolls, hd₂⟩

theorem Recorded.gives_range {low high : Value} {x : Number}
    (h : (DiceSource.range low high).Gives d x d') (record : List Number) :
    (DiceSource.range low high).Gives (⟨d, record⟩ : Recorded σ) x ⟨d', record ++ [x]⟩ := by
  have h : (DiceSource.range low high : Draw σ Number).run d = (.ok x, d') := h
  change Recorded.range low high ⟨d, record⟩ = _
  unfold Recorded.range
  dsimp only
  rw [h]

namespace Rolls

/-- The record of a row is what it shows. -/
theorem recorded (h : Rolls d faces shown d') (record : List Number) :
    Rolls (⟨d, record⟩ : Recorded σ) faces shown
      ⟨d', record ++ shown.map fun face : Int => .finite face⟩ := by
  induction h generalizing record with
  | nil d =>
    rw [List.map_nil, List.append_nil]
    exact .nil _
  | @cons _ _ _ _ face _ _ hg hlow hhigh _ ih =>
    have hrest := ih (record ++ [.finite face])
    rw [List.append_assoc, List.singleton_append] at hrest
    exact .cons (Recorded.gives_range hg record) hlow hhigh hrest

/-- As many values are shown as there are dice. -/
theorem length_eq (h : Rolls d faces shown d') : shown.length = faces.length := by
  induction h with
  | nil d => rfl
  | cons _ _ _ _ ih => rw [List.length_cons, List.length_cons, ih]

/-- A row of equal dice is a pool, and is summed up. Up to `2 ^ 53` no sum is rounded. -/
theorem rollOnto {f : Int} {n : Nat} (h : Rolls d (List.replicate n f) shown d') (sum : Int)
    (hf : 1 ≤ f) (hsum : 0 ≤ sum) (hsmall : sum + n * f ≤ 2 ^ 53) :
    (Pool.rollOnto (.number (.finite f)) n (.finite sum)).Gives d (.finite (sum + shown.sum : Int))
      d' := by
  induction n generalizing d shown sum with
  | zero =>
    cases h
    rw [List.sum_nil, add_zero]
    exact Draw.gives_pure _ _
  | succ n ih =>
    rw [List.replicate_succ] at h
    cases h with
    | @cons _ _ _ _ face _ shown hg hlow hhigh hrest =>
      have hmul : ((n + 1 : Nat) : Int) * f = n * f + f := by
        push_cast
        rw [Int.add_mul, Int.one_mul]
      rw [hmul] at hsmall
      have hn : 0 ≤ (n : Int) * f := Int.mul_nonneg (by omega) (by omega)
      have hnext := ih hrest (sum + face) (by omega) (by omega)
      rw [← Number.add_intCast (a := sum) (b := face) (by omega)] at hnext
      rw [List.sum_cons, ← add_assoc]
      exact hg.bind hnext

end Rolls

/-! ## The dice of a check -/

namespace Resolution

theorem eq_criticalRoll_iff {roll : Int} : Number.finite roll = criticalRoll ↔ roll = 20 := by
  have htwenty : criticalRoll = .finite (20 : Int) := rfl
  rw [htwenty, Number.finite.injEq, Rat.intCast_inj]

theorem eq_fumbleRoll_iff {roll : Int} : Number.finite roll = fumbleRoll ↔ roll = 1 := by
  have hone : fumbleRoll = .finite (1 : Int) := rfl
  rw [hone, Number.finite.injEq, Rat.intCast_inj]

theorem labelOf_intCast (roll : Int) (total target : Number) :
    labelOf (.finite roll) total target =
      if roll = 20 then .critical
      else if roll = 1 then .fumble
      else if target ≤ total then .success
      else .failure := by
  simp only [labelOf, eq_criticalRoll_iff, eq_fumbleRoll_iff]

end Resolution

/-- The dice that follow the first one: the damage dice of the level, two of them, if it shows
twenty, and a die with four faces if it shows one. -/
def extraDice (faces roll : Int) : List Int :=
  if roll = 20 then List.replicate 2 faces
  else if roll = 1 then List.replicate 1 4
  else []

/-- The damage that dice show together. -/
def damageShown : List Int → Option Number
  | [] => none
  | shown => some (.finite (shown.sum : Int))

/-- The damage of a check, with the dice that follow the first one. -/
structure DamageRule (faces roll : Int) (extra : List Int) (damage : Option Number) : Prop where
  onTwenty : roll = 20 → ∃ a b, extra = [a, b] ∧ (1 ≤ a ∧ a ≤ faces) ∧ (1 ≤ b ∧ b ≤ faces) ∧
    damage = some (.finite (a + b : Int))
  onOne : roll = 1 → ∃ a, extra = [a] ∧ (1 ≤ a ∧ a ≤ 4) ∧ damage = some (.finite (a : Int))
  otherwise : roll ≠ 20 → roll ≠ 1 → extra = [] ∧ damage = none

namespace Rolls

variable {level roll : Int} {extra : List Int}

theorem damageShown_replicate {n : Nat} {f : Int}
    (h : Rolls d (List.replicate (n + 1) f) shown d') :
    damageShown shown = some (.finite (shown.sum : Int)) := by
  cases h
  rfl

/-- The damage of a roll is what the dice that follow it show. -/
theorem drawDamage (hlevel : 1 ≤ level)
    (h : Rolls d (extraDice (Progression.facesOf level) roll) extra d') :
    (drawDamage (.number (.finite level)) (.finite roll)).Gives d (damageShown extra) d' := by
  obtain ⟨hfour, htwelve⟩ := Progression.facesOf_bounds hlevel
  unfold Adventure.drawDamage
  simp only [Resolution.eq_criticalRoll_iff, Resolution.eq_fumbleRoll_iff]
  unfold extraDice at h
  split at h
  · rename_i htwenty
    have hcount : Pool.rolls (Pool.doubled
        ⟨1, .number (.finite (Progression.facesOf level))⟩).count = 2 := Pool.rolls_double
    have hsum := h.rollOnto 0 (by omega) le_rfl (by push_cast; omega)
    rw [zero_add] at hsum
    rw [if_pos htwenty, h.damageShown_replicate]
    refine (Draw.gives_lift (Progression.damagePoolFor_intCast hlevel) d).bind (Draw.Gives.map some ?_)
    rw [Pool.roll, hcount]
    exact hsum
  · rename_i htwenty
    rw [if_neg htwenty]
    split at h
    · rename_i hone
      have hcount : Pool.rolls Progression.fumblePool.count = 1 := Pool.rolls_one
      have hsum := h.rollOnto 0 (by omega) le_rfl (by omega)
      rw [zero_add] at hsum
      rw [if_pos hone, h.damageShown_replicate]
      refine Draw.Gives.map some ?_
      rw [Pool.roll, hcount]
      exact hsum
    · rename_i hone
      rw [if_neg hone]
      cases h
      exact Draw.gives_pure none d

/-- **A check is determined by its dice**: of a level and a tier it makes a draft of them, whether
the category is accepted or not. -/
theorem run_performCheck (hlevel : 1 ≤ level) {tier : Value} {target : Number}
    (htarget : targetFor tier = .ok target) (category : Value)
    (h : Rolls d (20 :: extraDice (Progression.facesOf level) roll) (roll :: extra) d') :
    (performCheck (.number (.finite level)) tier category).run d =
      (Resolution.create ⟨.number (.finite roll),
        .number (Progression.modifier (.finite level)), .number target, category,
        .ofNumber? (damageShown extra)⟩, d') := by
  have hmodifier : Progression.modifierFor (.number (.finite level)) =
      .ok (Progression.modifier (.finite level)) :=
    Progression.modifierFor_eq_ok (Progression.isLevel_intCast hlevel)
  cases h with
  | @cons _ d₁ _ _ _ _ _ hroll hlow hhigh hextra =>
    have hroll : (DiceSource.range (.number Resolution.fumbleRoll)
        (.number Resolution.criticalRoll)).Gives d (.finite roll) d₁ := hroll
    unfold performCheck
    rw [(Draw.gives_lift hmodifier d).run_bind, (Draw.gives_lift htarget d).run_bind,
      hroll.run_bind, (hextra.drawDamage hlevel).run_bind, Draw.run_lift]

theorem length_check {faces : Int} (h : Rolls d (20 :: extraDice faces roll) (roll :: extra) d') :
    (roll :: extra).length = if roll = 20 then 3 else if roll = 1 then 2 else 1 := by
  rw [h.length_eq, List.length_cons, extraDice]
  split
  · rfl
  · split <;> rfl

theorem damageRule {faces : Int} (h : Rolls d (extraDice faces roll) extra d') :
    DamageRule faces roll extra (damageShown extra) := by
  refine ⟨?_, ?_, ?_⟩
  · rintro rfl
    cases h with
    | @cons _ _ _ _ a _ _ _ ha ha' h =>
      cases h with
      | @cons _ _ _ _ b _ _ _ hb hb' h =>
        cases h
        refine ⟨a, b, rfl, ⟨ha, ha'⟩, ⟨hb, hb'⟩, ?_⟩
        simp [damageShown]
  · rintro rfl
    cases h with
    | @cons _ _ _ _ a _ _ _ ha ha' h =>
      cases h
      refine ⟨a, rfl, ⟨ha, ha'⟩, ?_⟩
      simp [damageShown]
  · intro htwenty hone
    rw [extraDice, if_neg htwenty, if_neg hone] at h
    cases h
    exact ⟨rfl, rfl⟩

/-- What the dice of a check show. -/
theorem of_check {faces : Int} (h : Rolls d (20 :: extraDice faces roll) (roll :: extra) d') :
    (1 ≤ roll ∧ roll ≤ 20) ∧ DamageRule faces roll extra (damageShown extra) := by
  cases h with
  | cons _ hlow hhigh hextra => exact ⟨⟨hlow, hhigh⟩, hextra.damageRule⟩

end Rolls

/-! ## The rule -/

namespace Resolution

variable {level face : Int} {extra : List Int} {t : Tier} {c : Category} {damage : Option Number}

/-- The label that belongs to the three flags of a resolution. -/
def outcome (r : Resolution) : Label :=
  if r.isCritical then .critical
  else if r.isFumble then .fumble
  else if r.isSuccess then .success
  else .failure

theorem outcome_ofParts (roll modifier target : Number) (c : Category) (damage : Option Number) :
    (ofParts roll modifier target c damage).outcome = labelOf roll (roll + modifier) target := by
  cases hlabel : labelOf roll (roll + modifier) target <;>
    simp [ofParts, outcome, hlabel, Label.succeeds]

/-- **The rule of the twenty-sided die**: what a resolution is, if the first die of the check shows
`face`, and the dice after it `extra`. -/
structure Rule (level : Int) (t : Tier) (c : Category) (face : Int) (extra : List Int)
    (r : Resolution) : Prop where
  roll : r.roll = .finite face
  modifier : r.modifier = .finite (Progression.modifierOf level)
  total : r.total = .finite (face + Progression.modifierOf level : Int)
  target : r.target = t.target
  category : r.category = c
  critical : r.isCritical ↔ face = 20
  fumble : r.isFumble ↔ face = 1
  success : r.isSuccess ↔ face = 20 ∨ face ≠ 1 ∧ r.target ≤ r.total
  damage : DamageRule (Progression.facesOf level) face extra r.damage
  summary : r.summary =
    s!"🎲 1d20+{r.modifier.text} = {r.total.text} vs DC {r.target.text} → {r.outcome.text}"

/-- Only what hurts has damage, and no damage is negative. -/
theorem hurts_of_damageRule {faces : Int} (h : DamageRule faces face extra damage)
    (total target : Number) : Hurts (labelOf (.finite face) total target) damage := by
  rw [labelOf_intCast]
  by_cases htwenty : face = 20
  · obtain ⟨a, b, -, ha, hb, rfl⟩ := h.onTwenty htwenty
    rw [if_pos htwenty]
    exact ⟨a + b, by omega, rfl⟩
  by_cases hone : face = 1
  · obtain ⟨a, -, ha, rfl⟩ := h.onOne hone
    rw [if_neg htwenty, if_pos hone]
    exact ⟨a, by omega, rfl⟩
  · obtain ⟨-, rfl⟩ := h.otherwise htwenty hone
    rw [if_neg htwenty, if_neg hone]
    split <;> rfl

/-- What the dice of a check show is accepted with every tier and every category. -/
theorem create_of_damageRule {faces : Int} {modifier : Number} (hface : 1 ≤ face ∧ face ≤ 20)
    (hmodifier : modifier.isIntegerFrom 0) (t : Tier) (c : Category)
    (hdamage : DamageRule faces face extra damage) :
    create ⟨.number (.finite face), .number modifier, .number t.target, .string c.name,
        .ofNumber? damage⟩ = .ok (ofParts (.finite face) modifier t.target c damage) :=
  create_ofParts (Number.isIntegerIn_iff.2 ⟨face, rfl, hface⟩) hmodifier t.target_isIntegerFrom
    (hurts_of_damageRule hdamage _ _)

theorem rule_ofParts (hlow : 1 ≤ level) (hhigh : level < 2 ^ 53) (hface : 1 ≤ face ∧ face ≤ 20)
    (hdamage : DamageRule (Progression.facesOf level) face extra damage) :
    Rule level t c face extra
      (ofParts (.finite face) (Progression.modifier (.finite level)) t.target c damage) := by
  have htotal : Number.finite face + .finite (Progression.modifierOf level) =
      .finite (face + Progression.modifierOf level : Int) := by
    refine Number.add_intCast ?_
    unfold Progression.modifierOf
    omega
  rw [Progression.modifier_intCast hlow hhigh]
  refine ⟨rfl, rfl, htotal, rfl, rfl, ?_, ?_, ?_, hdamage, ?_⟩
  · simp only [ofParts, labelOf_intCast]
    split_ifs <;> simp_all
  · simp only [ofParts, labelOf_intCast]
    split_ifs <;> simp_all
  · simp only [ofParts, labelOf_intCast]
    split_ifs <;> simp_all [Label.succeeds]
  · rw [outcome_ofParts]
    rfl

end Resolution

variable {level : Int}

/-- What is asked for with a level of one or more: dice that can be rolled. -/
theorem requestable_extraDice (hlevel : 1 ≤ level) (roll : Int) :
    ∀ f ∈ extraDice (Progression.facesOf level) roll, Requestable 1 f := by
  obtain ⟨hfour, htwelve⟩ := Progression.facesOf_bounds hlevel
  intro f hf
  unfold extraDice at hf
  split at hf
  · obtain rfl := List.eq_of_mem_replicate hf
    exact requestable_faces (by omega) (by omega)
  · split at hf
    · obtain rfl := List.eq_of_mem_replicate hf
      exact requestable_faces (by omega) (by omega)
    · cases hf

/-- Fair dice can be rolled for every check. -/
theorem Fair.exists_check_rolls (h : Fair d) (hlevel : 1 ≤ level) :
    ∃ (roll : Int) (extra : List Int) (d' : σ),
      Rolls d (20 :: extraDice (Progression.facesOf level) roll) (roll :: extra) d' := by
  obtain ⟨roll, d₁, hroll, hlow, hhigh, hd₁⟩ :=
    h.range (requestable_faces (by omega : (1 : Int) ≤ 20) (by omega))
  obtain ⟨extra, d₂, hextra, -⟩ := hd₁.exists_rolls (requestable_extraDice hlevel roll)
  exact ⟨roll, extra, d₂, .cons hroll hlow hhigh hextra⟩

/-- **A check follows the rule of the twenty-sided die.** With fair dice a check of a level, a tier
and a category gives a resolution. The first die that it rolls has twenty faces, the dice after it
are those that belong to what the first one shows, none else are rolled, and the resolution is what
the rule makes of them. -/
theorem performCheck_follows_rule (h : Fair d) (hlow : 1 ≤ level) (hhigh : level < 2 ^ 53)
    (t : Tier) (c : Category) :
    ∃ (roll : Int) (extra : List Int) (r : Resolution) (d' : σ),
      Rolls d (20 :: extraDice (Progression.facesOf level) roll) (roll :: extra) d' ∧
      (performCheck (.number (.finite level)) (.string t.name) (.string c.name)).Gives d r d' ∧
      (performCheck (.number (.finite level)) (.string t.name) (.string c.name)).Gives
        (Recorded.start d) r ⟨d', (roll :: extra).map fun face : Int => .finite face⟩ ∧
      (roll :: extra).length = (if roll = 20 then 3 else if roll = 1 then 2 else 1) ∧
      r.Rule level t c roll extra := by
  obtain ⟨roll, extra, d', hrolls⟩ := h.exists_check_rolls hlow
  obtain ⟨hface, hdamage⟩ := hrolls.of_check
  have hmodifier : (Progression.modifier (.finite level)).isIntegerFrom 0 :=
    Progression.modifier_isIntegerFrom (Progression.isLevel_intCast hlow)
      (Number.ofRat_intCast (by omega))
  have hcreate := Resolution.create_of_damageRule hface hmodifier t c hdamage
  have hgives := hrolls.run_performCheck hlow (targetFor_name t) (.string c.name)
  have hgives' := (hrolls.recorded []).run_performCheck hlow (targetFor_name t) (.string c.name)
  rw [hcreate] at hgives hgives'
  exact ⟨roll, extra, _, d', hrolls, hgives, hgives', hrolls.length_check,
    Resolution.rule_ofParts hlow hhigh hface hdamage⟩

/-- A critical hit of one seed: twenty, and two dice that show four. -/
theorem rule_of_a_critical_hit :
    ∃ (r : Resolution) (g : Seeded),
      (performCheck (.number (.finite (3 : Int))) (.string Tier.easy.name)
        (.string Category.combat.name)).Gives (Seeded.ofSeed "seed-2878") r g ∧
      r.Rule 3 .easy .combat 20 [4, 4] := by
  obtain ⟨roll, extra, r, g, -, hgives, hrecorded, -, hrule⟩ :=
    performCheck_follows_rule (Seeded.ofSeed "seed-2878").fair (by decide : (1 : Int) ≤ 3)
      (by decide) .easy .combat
  have hrecord : ((performCheck (.number (.finite (3 : Int))) (.string Tier.easy.name)
      (.string Category.combat.name)).run (Recorded.start (Seeded.ofSeed "seed-2878"))).2.record =
        ([20, 4, 4] : List Int).map fun face : Int => .finite face := by decide +kernel
  have hshown := (congrArg (fun result => result.2.record) hrecorded).symm.trans hrecord
  have hinjective : Function.Injective fun face : Int => Number.finite face := by
    intro a b hab
    exact Rat.intCast_inj.1 (Number.finite.inj hab)
  obtain ⟨rfl, rfl⟩ := List.cons.inj (hinjective.list_map hshown)
  exact ⟨r, g, hgives, hrule⟩

end Adventure
