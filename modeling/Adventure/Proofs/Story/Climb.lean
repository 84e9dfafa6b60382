import Adventure.Proofs.Number.Decimal
import Adventure.Proofs.Number.Spacing
import Adventure.Proofs.Story.Proposal
/-!
# Whether a climb ends

A character that gains experience leaves levels while the experience allows it, and each level takes
some of it. In exact numbers this ends. In rounded ones a step may lose both of its effects: the
level is so high that the next one is rounded back to it, and the experience so much that what a
level takes is rounded away. A character that has come to this is stuck, and leaves its level for
ever; every other step leads up in levels or down in experience, and there are only so many numbers.
So a climb ends just if it does not come to a stuck character, and then within `longestClimb` steps
(`climb_ends_iff`).

A level beyond `2 ^ 53` takes more than `2 ^ 59` of experience, which is not lost in anything up to
`2 ^ 113`; and a level up to `2 ^ 53` takes less than `2 ^ 60`, which is lost in anything beyond
(`gainExperience_ends`).
-/

namespace Adventure.Character

open Number Binary64

variable {c d : Character} {P : Character → Prop}

/-! ## Runs of a climb -/

/-- Leaving levels, one after the other, while the experience allows it. -/
inductive Climbs : Character → Character → Prop where
  | refl (c : Character) : Climbs c c
  | leave {c d : Character} (h : c.canLeave) (hd : Climbs c.leaveLevel d) : Climbs c d

/-- Leaving the level leads back to it, with the same experience. -/
structure Stuck (c : Character) : Prop where
  canLeave : c.canLeave
  level : c.leaveLevel.level = c.level
  experience : c.leaveLevel.currentExperience = c.currentExperience

namespace Climbs

theorem snoc (h : c.Climbs d) (hd : d.canLeave) : c.Climbs d.leaveLevel := by
  induction h with
  | refl c => exact .leave hd (.refl _)
  | leave hc _ ih => exact .leave hc (ih hd)

/-- What leaving one level keeps, leaving levels keeps. -/
theorem keeps (hstep : ∀ c, c.canLeave → P c → P c.leaveLevel) (h : c.Climbs d) (hc : P c) :
    P d := by
  induction h with
  | refl c => exact hc
  | leave hleave _ ih => exact ih (hstep _ hleave hc)

/-- A climb that comes to an endless one is endless. -/
theorem climb?_eq_none (h : c.Climbs d) (hd : ∀ n, climb? n d = none) (n : Nat) :
    climb? n c = none := by
  induction h generalizing n with
  | refl c => exact hd n
  | leave hleave _ ih =>
    cases n with
    | zero => rw [climb?, if_pos hleave]
    | succ n => rw [climb?, if_pos hleave, ih hd n, Option.map_none]

end Climbs

/-- A climb never ends if the experience always allows one level more. -/
theorem climb?_eq_none (hstep : ∀ c, P c → c.canLeave ∧ P c.leaveLevel) (hc : P c) (n : Nat) :
    climb? n c = none := by
  induction n generalizing c with
  | zero => rw [climb?, if_pos (hstep c hc).1]
  | succ n ih => rw [climb?, if_pos (hstep c hc).1, ih (hstep c hc).2, Option.map_none]

theorem Stuck.leaveLevel (h : c.Stuck) : c.leaveLevel.Stuck := by
  have hleave : c.leaveLevel.canLeave = c.canLeave := by
    unfold Character.canLeave
    rw [h.level, h.experience]
  refine ⟨hleave.trans h.canLeave, ?_, ?_⟩
  · change c.leaveLevel.level + 1 = c.leaveLevel.level
    rw [h.level]
    exact h.level
  · change c.leaveLevel.currentExperience - experienceToLeave c.leaveLevel.level =
      c.leaveLevel.currentExperience
    rw [h.level, h.experience]
    exact h.experience

/-- A stuck character never gets away. -/
theorem Stuck.climb?_eq_none (h : c.Stuck) (n : Nat) : climb? n c = none :=
  Character.climb?_eq_none (fun _ hc => ⟨hc.canLeave, hc.leaveLevel⟩) h n

/-! ## What a climb uses up -/

/-- A character on its way up: its level and its experience are not negative. -/
structure Climber (c : Character) : Prop where
  level : Unsigned c.level
  experience : Unsigned c.currentExperience

theorem Climber.unsigned_experienceToLeave (h : c.Climber) :
    Unsigned (experienceToLeave c.level) :=
  h.level.mul (unsigned_natCast (n := 100) (by omega))

theorem Climber.leaveLevel (h : c.Climber) (hc : c.canLeave) : c.leaveLevel.Climber :=
  ⟨h.level.add (unsigned_natCast (n := 1) (by omega)),
    (h.experience.sub h.unsigned_experienceToLeave (of_decide_eq_true hc)).1⟩

/-- The numbers above the level, and those below the experience. -/
def room (c : Character) : Nat := 2 ^ 64 - rank c.level + rank c.currentExperience

theorem Climber.room_le (h : c.Climber) : c.room ≤ longestClimb := by
  have hexperience := rank_le h.experience
  have hlong : 2 ^ 65 ≤ longestClimb := Nat.pow_le_pow_right (by omega) (by omega)
  unfold room
  omega

/-- **Every level uses up some room**, or the character is stuck. -/
theorem Climber.room_leaveLevel (h : c.Climber) (hc : c.canLeave) (hstuck : ¬ c.Stuck) :
    c.leaveLevel.room < c.room := by
  have hvalue : c.level ≠ .nan := by
    intro hnan
    simp only [canLeave, hnan] at hc
    cases hc
  have hone : Unsigned (finite (1 : Nat)) := unsigned_natCast (by omega)
  have hup := rank_add h.level hvalue hone
  have hdown := rank_sub h.experience h.unsigned_experienceToLeave (of_decide_eq_true hc)
  have hlevel : rank c.leaveLevel.level ≤ 2 ^ 64 := rank_le (h.leaveLevel hc).level
  change c.leaveLevel.level = c.level ∨ rank c.level < rank c.leaveLevel.level at hup
  change c.leaveLevel.currentExperience = c.currentExperience ∨
    rank c.leaveLevel.currentExperience < rank c.currentExperience at hdown
  unfold room
  rcases hup with hup | hup
  · rcases hdown with hdown | hdown
    · exact absurd ⟨hc, hup, hdown⟩ hstuck
    · rw [hup]
      omega
  · rcases hdown with hdown | hdown
    · rw [hdown]
      omega
    · omega

/-- **A climb ends just if it does not come to a stuck character**, and then it ends in time. -/
theorem Climber.climb_ends_iff (h : c.Climber) :
    ((∃ r, climb? longestClimb c = some r) ↔ ∃ n r, climb? n c = some r) ∧
      ((∃ n r, climb? n c = some r) ↔ ∀ d, c.Climbs d → ¬ d.Stuck) := by
  have hfree : (∃ n r, climb? n c = some r) → ∀ d, c.Climbs d → ¬ d.Stuck := by
    rintro ⟨n, r, hr⟩ d hd hstuck
    rw [hd.climb?_eq_none hstuck.climb?_eq_none n] at hr
    cases hr
  have hends : (∀ d, c.Climbs d → ¬ d.Stuck) → ∃ r, climb? longestClimb c = some r := by
    intro hfree
    have hstep : ∀ d, d.canLeave → c.Climbs d ∧ d.Climber →
        (c.Climbs d.leaveLevel ∧ d.leaveLevel.Climber) ∧ d.leaveLevel.room < d.room :=
      fun d hleave hd => ⟨⟨hd.1.snoc hleave, hd.2.leaveLevel hleave⟩,
        hd.2.room_leaveLevel hleave (hfree d hd.1)⟩
    obtain ⟨d, events, hd⟩ := exists_climb? hstep ⟨.refl c, h⟩ h.room_le
    exact ⟨(d, events), hd⟩
  exact ⟨⟨fun ⟨r, hr⟩ => ⟨longestClimb, r, hr⟩, fun hn => hends (hfree hn)⟩,
    ⟨hfree, fun hall => ⟨longestClimb, hends hall⟩⟩⟩

/-! ## Experience in which a level is lost -/

/-- What a level of `2 ^ 53` takes. -/
def toll : Rat := ((25 : Int) : Rat) * (2 : Rat) ^ (55 : Int)

theorem toll_eq : toll = ((2 ^ 53 * 100 : Int) : Rat) := by norm_num [toll]

/-- A toll is between a half and a whole of the distance of numbers beyond `2 ^ 113`, where they lie
further apart, and before, where they lie closer. -/
theorem toll_bounds : (2 : Rat) ^ (60 : Int) / 2 < toll ∧ toll < (2 : Rat) ^ (61 : Int) / 2 := by
  norm_num [toll]

theorem unsigned_toll : Unsigned (finite toll) := by
  have hlimit : (2 : Rat) ^ (61 : Int) < limit := zpow_lt_zpow_right₀ (by norm_num) (by norm_num)
  have hpos : (0 : Rat) < toll := by norm_num [toll]
  refine ⟨hpos.le, kept_mul_zpow (by omega) (by omega) (by omega), ?_⟩
  linarith [toll_bounds.2, two_zpow_pos 61]

theorem experienceToLeave_intCast (z : Int) :
    experienceToLeave (finite z) = ofRat ((z * 100 : Int) : Rat) := by
  rw [Int.cast_mul]
  rfl

/-- The experience beyond which the first levels are lost. -/
def depth : Rat := (2 : Rat) ^ (113 : Int)

/-- The level is an integer from one on; so high, it may be infinite. -/
def OnLevel (c : Character) : Prop :=
  c.level = infinity false ∨ ∃ z : Int, 1 ≤ z ∧ c.level = finite z

theorem OnLevel.leaveLevel (h : c.OnLevel) : c.leaveLevel.OnLevel := by
  rcases h with hinf | ⟨z, hz, hlevel⟩
  · refine .inl ?_
    change c.level + 1 = _
    rw [hinf]
    rfl
  · have hnext : c.leaveLevel.level = ofRat ((z + 1 : Int) : Rat) := by
      change c.level + 1 = _
      rw [hlevel, Int.cast_add]
      rfl
    unfold OnLevel
    rw [hnext]
    exact ofRat_intCast_of_pos (by omega)

/-- Who is stuck is on a high level: the next one is rounded back. -/
theorem Stuck.le_level (h : c.Stuck) {z : Int} (hz : 1 ≤ z) (hlevel : c.level = finite z) :
    2 ^ 53 ≤ z := by
  by_contra hlow
  have hnext : c.level + 1 = c.level := h.level
  rw [hlevel] at hnext
  have hsame : finite ((z + 1 : Int) : Rat) = finite z :=
    (add_intCast (a := z) (b := 1) (by omega)).symm.trans hnext
  have := Rat.intCast_inj.1 (finite.inj hsame)
  omega

/-- Up to `2 ^ 113`, nothing is lost that so high a level takes. -/
theorem round_sub_ne {x t : Rat} (htoll : toll ≤ t) (htx : t ≤ x) (hx : x ≤ depth) :
    Binary64.round (x - t) ≠ x := by
  obtain ⟨hhalf, -⟩ := toll_bounds
  have hunit : (0 : Rat) < (2 : Rat) ^ (60 : Int) := two_zpow_pos 60
  intro hround
  rcases (sub_nonneg.2 htx).eq_or_lt with hzero | hpos
  · rw [← hzero, round_zero] at hround
    linarith
  · have hrest : x - t < (2 : Rat) ^ (53 + 60 : Int) := by
      have hdepth : depth = (2 : Rat) ^ (53 + 60 : Int) := rfl
      linarith
    have hfine := two_zpow_le (unitExponent_le hpos hrest (by omega))
    have hless := round_sub_lt (x := x) (t := t) (by linarith)
    linarith

/-- **Who is stuck has a lot of experience.** -/
theorem Stuck.not_shallow (h : c.Stuck) (hc : c.Climber) (hl : c.OnLevel) :
    ¬ c.currentExperience ≤ finite depth := by
  intro hshallow
  have hleave : experienceToLeave c.level ≤ c.currentExperience := of_decide_eq_true h.canLeave
  obtain ⟨x, hx, hx0, hxdepth⟩ := hc.experience.eq_finite_of_le hshallow
  rw [hx] at hleave
  obtain ⟨t, ht, ht0, htx⟩ := hc.unsigned_experienceToLeave.eq_finite_of_le hleave
  rcases hl with hinf | ⟨z, hz, hlevel⟩
  · rw [hinf] at ht
    cases ht
  have hhigh := h.le_level hz hlevel
  have htoll : toll ≤ t := by
    rw [hlevel, experienceToLeave_intCast] at ht
    refine finite_le_finite.1 (ht ▸ finite_le_ofRat unsigned_toll ?_)
    rw [toll_eq]
    exact_mod_cast Int.mul_le_mul_of_nonneg_right hhigh (by omega)
  -- Of so much, at least a part is taken.
  have hstay : c.currentExperience - experienceToLeave c.level = c.currentExperience := h.experience
  rw [hx, ht, sub_finite, ofRat_of_nonneg (sub_nonneg.2 htx)] at hstay
  split at hstay
  · cases hstay
  · exact round_sub_ne htoll htx hxdepth (finite.inj hstay)

/-! ## Exact levels -/

/-- The level is an integer from `z` on, up to the one from which the next is rounded back. -/
def LevelFrom (c : Character) (z : Int) : Prop := ∃ w : Int, z ≤ w ∧ w ≤ 2 ^ 53 ∧ c.level = finite w

theorem add_one_intCast {z : Int} (hz : 1 ≤ z) (hz' : z ≤ 2 ^ 53) :
    finite z + 1 = finite (min (z + 1) (2 ^ 53) : Int) := by
  rcases hz'.lt_or_eq with hlt | rfl
  · rw [min_eq_left (by omega)]
    exact add_intCast (b := 1) (by omega)
  · decide +kernel

namespace LevelFrom

variable {z : Int}

/-- The next level is higher, or the highest. -/
theorem leaveLevel (h : c.LevelFrom z) (hz : 1 ≤ z) :
    c.leaveLevel.LevelFrom (min (z + 1) (2 ^ 53)) := by
  obtain ⟨w, hw, hw', hlevel⟩ := h
  refine ⟨min (w + 1) (2 ^ 53), by omega, by omega, ?_⟩
  change c.level + 1 = _
  rw [hlevel, add_one_intCast (by omega) hw']

theorem mono {y : Int} (h : c.LevelFrom z) (hy : y ≤ z) : c.LevelFrom y := by
  obtain ⟨w, hw, hw', hlevel⟩ := h
  exact ⟨w, hy.trans hw, hw', hlevel⟩

theorem exists_toll (h : c.LevelFrom 1) :
    ∃ t, experienceToLeave c.level = finite t ∧ 0 ≤ t ∧ t ≤ toll := by
  obtain ⟨z, hz, hz', hlevel⟩ := h
  rw [hlevel, experienceToLeave_intCast]
  have hnonneg : (0 : Rat) ≤ ((z * 100 : Int) : Rat) := by exact_mod_cast (by omega : 0 ≤ z * 100)
  refine (unsigned_ofRat hnonneg).eq_finite_of_le (ofRat_le_finite unsigned_toll hnonneg ?_)
  rw [toll_eq]
  exact_mod_cast Int.mul_le_mul_of_nonneg_right hz' (by omega)

end LevelFrom

/-! ## Experience in which all levels are lost -/

/-- A character whose levels are all lost: the level is exact, and the experience beyond
`2 ^ 113`. -/
structure Lost (c : Character) : Prop where
  level : ∃ z : Int, 1 ≤ z ∧ z ≤ 2 ^ 53 ∧ c.level = finite z
  experience : Unsigned c.currentExperience
  deep : finite depth < c.currentExperience

namespace Lost

theorem levelFrom (h : c.Lost) : c.LevelFrom 1 := h.level

/-- The experience allows to leave the level, and stays as it is. -/
theorem loses_level (h : c.Lost) :
    c.canLeave ∧ c.leaveLevel.currentExperience = c.currentExperience := by
  obtain ⟨t, ht, ht0, htoll⟩ := h.levelFrom.exists_toll
  have hdeep := h.deep
  have hunsigned := h.experience
  have hstay : finite t ≤ c.currentExperience ∧
      c.currentExperience - finite t = c.currentExperience := by
    cases hx : c.currentExperience with
    | nan =>
      rw [hx] at hdeep
      cases hdeep
    | infinity s =>
      rw [hx] at hunsigned
      obtain rfl : s = false := hunsigned
      exact ⟨rfl, rfl⟩
    | finite x =>
      rw [hx] at hdeep hunsigned
      obtain ⟨hx0, hkept, hlimit⟩ := hunsigned
      have hdeep : depth < x := finite_lt_finite.1 hdeep
      have hhigh := toll_bounds.2
      have htx : t ≤ x := by
        have hpower : (2 : Rat) ^ (61 : Int) ≤ depth := two_zpow_le (by omega)
        linarith [two_zpow_pos 61]
      have hround := round_sub_eq_of_lt (k := 61) hkept hdeep ht0 (htoll.trans_lt hhigh)
      rw [sub_finite, ofRat_of_nonneg (sub_nonneg.2 htx), hround, if_neg (not_le.2 hlimit)]
      exact ⟨finite_le_finite.2 htx, rfl⟩
  rw [canLeave, ht]
  refine ⟨decide_eq_true hstay.1, ?_⟩
  change c.currentExperience - experienceToLeave c.level = _
  rw [ht, hstay.2]

/-- **The level that follows is lost as well.** -/
theorem leaveLevel (h : c.Lost) : c.canLeave ∧ c.leaveLevel.Lost := by
  obtain ⟨hleave, hstay⟩ := h.loses_level
  refine ⟨hleave, (h.levelFrom.leaveLevel le_rfl).mono (by omega), ?_, ?_⟩
  · rw [hstay]
    exact h.experience
  · rw [hstay]
    exact h.deep

/-- Nobody gets away from there. -/
theorem climb?_eq_none (h : c.Lost) (n : Nat) : climb? n c = none :=
  Character.climb?_eq_none (fun _ hc => hc.leaveLevel) h n

end Lost

/-! ## Gaining experience -/

/-- A climb keeps to levels, and does not gain experience. -/
theorem Climbs.ascent (h : c.Climbs d) (hc : c.Climber) (hl : c.OnLevel) {x : Rat}
    (hx : c.currentExperience ≤ finite x) :
    d.Climber ∧ d.OnLevel ∧ d.currentExperience ≤ finite x := by
  refine h.keeps (P := fun d => d.Climber ∧ d.OnLevel ∧ d.currentExperience ≤ finite x) ?_
    ⟨hc, hl, hx⟩
  rintro c hleave ⟨hc, hl, hx⟩
  refine ⟨hc.leaveLevel hleave, hl.leaveLevel, ?_⟩
  obtain ⟨-, ⟨hinf, -⟩ | hle⟩ :=
    hc.experience.sub hc.unsigned_experienceToLeave (of_decide_eq_true hleave)
  · rw [hinf] at hx
    cases hx
  · exact Number.le_trans hle hx

/-- A climb with at most `2 ^ 113` of experience ends. -/
theorem Climber.exists_climb? (hc : c.Climber) (hl : c.OnLevel)
    (hx : c.currentExperience ≤ finite depth) : ∃ r, climb? longestClimb c = some r := by
  obtain ⟨hfuel, hstuck⟩ := hc.climb_ends_iff
  refine hfuel.2 (hstuck.2 fun d hd hs => ?_)
  obtain ⟨hd, hon, hle⟩ := hd.ascent hc hl hx
  exact hs.not_shallow hd hon hle

/-- A gain in which all levels are lost has no end. -/
theorem Lost.advance_eq_none {amount : Number} (h : (c.addExperience amount).Lost)
    (hpos : 0 < amount) : c.advance amount = none := by
  rw [advance, if_pos hpos]
  exact h.climb?_eq_none longestClimb

/-- **Gaining experience** on a level ends just if the climb does not come to a stuck character, and
`longestClimb` steps are enough for every climb that ends. It ends if the experience, with what is
gained, is at most `2 ^ 113`. If it is more, and the level is at most `2 ^ 53`, the climb does not
end. -/
theorem gainExperience_ends {amount : Number} (hlevel : c.level.isIntegerFrom 1)
    (hheld : c.level.Held) (hcurrent : c.currentExperience.isIntegerFrom 0)
    (hamount : amount.isIntegerFrom 0) :
    ((∃ r, c.gainExperience amount = some r) ↔
      ∃ n r, climb? n (c.addExperience amount) = some r) ∧
    ((∃ r, c.gainExperience amount = some r) ↔
      ∀ d, (c.addExperience amount).Climbs d → ¬ d.Stuck) ∧
    (c.currentExperience + amount ≤ finite depth → ∃ r, c.gainExperience amount = some r) ∧
    (c.level ≤ finite ((2 ^ 53 : Int) : Rat) → finite depth < c.currentExperience + amount →
      ∀ n, climb? n (c.addExperience amount) = none) := by
  obtain ⟨z, hz, hz1⟩ := (isIntegerFrom_iff (n := 1)).1 hlevel
  obtain ⟨x, hx, hx0⟩ := (isIntegerFrom_iff (n := 0)).1 hcurrent
  obtain ⟨y, hy, hy0⟩ := (isIntegerFrom_iff (n := 0)).1 hamount
  have hsum : Unsigned (c.currentExperience + amount) := by
    rw [hx, hy]
    exact unsigned_ofRat (add_nonneg (by exact_mod_cast hx0) (by exact_mod_cast hy0))
  have hclimber : (c.addExperience amount).Climber :=
    ⟨by rw [hz] at hheld; exact hz ▸ unsigned_intCast (by omega) hheld, hsum⟩
  obtain ⟨hfuel, hstuck⟩ := hclimber.climb_ends_iff
  refine ⟨hfuel, hfuel.trans hstuck, fun hshallow => ?_, fun hlow hdeep => ?_⟩
  · exact hclimber.exists_climb? (.inr ⟨z, hz1, hz⟩) hshallow
  · have hlow : z ≤ 2 ^ 53 := intCast_le_intCast.1 (hz ▸ hlow)
    have hlost : (c.addExperience amount).Lost := ⟨⟨z, hz1, hlow, hz⟩, hsum, hdeep⟩
    exact hlost.climb?_eq_none

/-- Two levels at once. -/
theorem gainExperience_ends_after_a_raid :
    let hero : Character := ⟨"c1", "Mira", 1, 40, 100, 70, 70, ["torch"]⟩
    hero.level.isIntegerFrom 1 ∧ hero.level.Held ∧ hero.currentExperience.isIntegerFrom 0 ∧
      (350 : Number).isIntegerFrom 0 ∧ ∃ r, hero.gainExperience 350 = some r := by
  intro hero
  have hheld : hero.level.Held := ofRat_intCast (n := 1) (by decide)
  obtain ⟨-, -, hends, -⟩ := gainExperience_ends (c := hero) (by decide) hheld (by decide)
    (by decide : (350 : Number).isIntegerFrom 0)
  exact ⟨by decide, hheld, by decide, by decide, hends (by decide +kernel)⟩

/-- `1e300` is more than enough to be lost on the first level. -/
theorem lost_of_first_level (hlevel : c.level = 1) (hcurrent : c.currentExperience = 0) :
    (c.addExperience (Decimal.toNumber ⟨1, 300⟩)).Lost := by
  have hamount : Unsigned (Decimal.toNumber ⟨1, 300⟩) := by
    rw [Decimal.toNumber_eq]
    exact unsigned_ofRat (Decimal.toRat_nonneg _)
  refine ⟨⟨1, by omega, by omega, hlevel⟩, ?_, ?_⟩
  · change Unsigned (c.currentExperience + _)
    rw [hcurrent]
    exact (unsigned_natCast (n := 0) (by omega)).add hamount
  · change finite depth < c.currentExperience + _
    rw [hcurrent]
    decide +kernel

/-- A narrator's answer can propose so much experience that a first level is never left behind: it
is read as it stands, and passes the check of a proposal. -/
theorem climb_of_a_dragon_slayer_never_ends :
    let hero : Character := ⟨"c1", "Mira", 1, 20, 20, 0, 0, ["torch"]⟩
    let text := "\x7b\"narrative\":\"The dragon falls.\",\"state_changes\":\x7b\"experience_gained\":1e300\x7d\x7d"
    let changes := (Response.ofText text).1.changes
    changes.experienceGained = Decimal.toNumber ⟨1, 300⟩ ∧
      Changes.ofValue? changes.toValue = .ok changes ∧
      ∀ n, climb? n (hero.addExperience changes.experienceGained) = none := by
  intro hero text changes
  have hgained : changes.experienceGained = Decimal.toNumber ⟨1, 300⟩ := by decide +kernel
  refine ⟨hgained, Changes.ofValue?_toValue (Response.wellFormed_ofText text), fun n => ?_⟩
  rw [hgained]
  exact (lost_of_first_level rfl rfl).climb?_eq_none n

end Adventure.Character
