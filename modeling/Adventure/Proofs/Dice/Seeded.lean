import Adventure.Dice.Seeded
import Adventure.Proofs.Dice.Fair
import Adventure.Proofs.Number.Exact
/-!
# Seeded dice are fair

A draw picks one of `2 ^ 53` parts of the unit interval. Spread over the integers between two bounds
the highest part points below the end, and rounding cannot bring it there: it adds one part in
`2 ^ 53` at most, and that is less than what the highest part lacks (`round_spread_lt`). So every
request for an integer between two bounds is answered with one (`Picks`), whatever state the
generator is in; all other requests leave it as it is (`range_within_bounds`).
-/

namespace Adventure.Seeded

open Binary64

/-! ## Parts of the unit interval -/

/-- A part is one of the `2 ^ 53`. -/
theorem nextPart_lt (g : Seeded) : g.nextPart.1 < 2 ^ 53 := by
  change (g.nextWord.1 >>> 11).toNat < 2 ^ 53
  have hword := g.nextWord.1.toNat_lt
  rw [UInt64.toNat_shiftRight, Nat.shiftRight_eq_div_pow]
  have heleven : (11 : UInt64).toNat % 64 = 11 := rfl
  rw [heleven]
  omega

/-- Spread over a span, no part is rounded up to its end. -/
theorem round_spread_lt {part span : Rat} (hpart : 1 ≤ part) (hlast : part + 1 ≤ 2 ^ 53)
    (hspan : 1 ≤ span) : Binary64.round (part / 2 ^ 53 * span) < span := by
  have hproduct : part / 2 ^ 53 * span = part * span / 2 ^ 53 := div_mul_eq_mul_div _ _ _
  have hone : (1 : Rat) ≤ part * span := one_le_mul_of_one_le_of_one_le hpart hspan
  have hlack : part * span ≤ (2 ^ 53 - 1) * span :=
    mul_le_mul_of_nonneg_right (by linarith) (by linarith)
  generalize part * span = product at *
  rw [hproduct]
  have hpos : (0 : Rat) < product / 2 ^ 53 := by positivity
  have hlow : (2 : Rat) ^ (-53 : Int) ≤ product / 2 ^ 53 := by
    rw [zpow_neg, ← one_div]
    exact div_le_div_of_nonneg_right hone (by positivity)
  have hm := lt_of_two_zpow_lt (hlow.trans_lt (magnitude_bounds hpos).2)
  have hround := round_le_add hpos (by omega)
  have hcast : (2 : Rat) ^ (53 : Int) = 2 ^ 53 := by norm_num
  rw [hcast] at hround
  linarith

/-- So a part is spread to a value from zero to below the end. -/
theorem ofRat_spread {part : Nat} (hpart : part < 2 ^ 53) {span : Rat} (hspan : 1 ≤ span)
    (hsmall : span ≤ 2 ^ 53) :
    ∃ y, Number.ofRat ((part : Rat) / 2 ^ 53 * span) = .finite y ∧ 0 ≤ y ∧ y < span := by
  rcases Nat.eq_zero_or_pos part with rfl | hpos
  · refine ⟨0, ?_, le_rfl, by linarith⟩
    rw [Nat.cast_zero, zero_div, zero_mul]
    exact Number.ofRat_intCast (n := 0) (by simp)
  · have hone : (1 : Rat) ≤ part := by exact_mod_cast hpos
    have hlast : (part : Rat) + 1 ≤ 2 ^ 53 := by exact_mod_cast hpart
    have hnonneg : (0 : Rat) ≤ part / 2 ^ 53 * span := by positivity
    have hlimit : (2 : Rat) ^ 53 < limit := by
      rw [← zpow_natCast]
      exact zpow_lt_zpow_right₀ (by norm_num) (by norm_num)
    unfold Number.ofRat
    split
    · have hshare : (part : Rat) / 2 ^ 53 < 1 := (div_lt_one (by positivity)).2 (by linarith)
      exact ⟨_, rfl, hnonneg, mul_lt_of_lt_one_left (by linarith) hshare⟩
    · have hround := round_spread_lt hone hlast hspan
      have hround' := round_nonneg hnonneg
      dsimp only
      rw [if_neg (by linarith), if_neg (by linarith)]
      exact ⟨_, rfl, hround', hround⟩

/-- What a share of the unit interval picks between two bounds. Spread over the span, and rounded, it
ends before the span does; its integer part is counted from the lower bound. -/
structure Picks (share : Number) (low high face : Int) : Prop where
  spread : ∃ y : Rat, share * .finite (high - low + 1 : Int) = .finite y ∧
    0 ≤ y ∧ y < (high - low + 1 : Int) ∧ face = y.floor + low
  low_le : low ≤ face
  le_high : face ≤ high

/-- **What is picked lies between the bounds.** -/
theorem pick_fraction {low high : Int} (h : Requestable low high) {part : Nat}
    (hpart : part < 2 ^ 53) :
    ∃ face : Int, pick (.finite low) (.finite high) (fraction part) = .finite face ∧
      Picks (fraction part) low high face := by
  obtain ⟨hordered, hlow, hhigh, hnarrow⟩ := h
  have hspan : Number.finite high - .finite low + 1 = .finite (high - low + 1 : Int) := by
    rw [Number.sub_intCast (by omega)]
    exact Number.add_intCast (b := 1) (by omega)
  have hone : (1 : Rat) ≤ (high - low + 1 : Int) := by exact_mod_cast (by omega : 1 ≤ high - low + 1)
  have hsmall : ((high - low + 1 : Int) : Rat) ≤ 2 ^ 53 := by
    exact_mod_cast (by omega : high - low + 1 ≤ 2 ^ 53)
  obtain ⟨y, hy, hnonneg, hlt⟩ := ofRat_spread hpart hone hsmall
  have hparts : ((parts : Nat) : Rat) = 2 ^ 53 := by norm_num [parts]
  have hproduct : fraction part * .finite (high - low + 1 : Int) = .finite y := by
    rw [← hy, ← hparts]
    rfl
  have hfloor : 0 ≤ y.floor := Rat.le_floor_iff.2 (by exact_mod_cast hnonneg)
  have hfloor' : y.floor < high - low + 1 := Rat.floor_lt_iff.2 hlt
  refine ⟨y.floor + low, ?_, ⟨y, hproduct, hnonneg, hlt, rfl⟩, by omega, by omega⟩
  rw [pick, hspan, hproduct]
  exact Number.add_intCast (by omega)

/-! ## Bounds -/

/-- Bounds that are integers and stand the right way round. -/
def Ordered (low high : Value) : Prop :=
  ∃ a b : Int, low = .number (.finite a) ∧ high = .number (.finite b) ∧ a ≤ b

theorem bounds?_intCast {low high : Int} (h : low ≤ high) :
    bounds? (.number (.finite low)) (.number (.finite high)) =
      some (.finite low, .finite high) := by
  have hordered : ¬ Number.finite high < .finite low :=
    mt Number.intCast_lt_intCast.1 (not_lt.2 h)
  simp [bounds?, Number.isInteger, hordered]

/-- Other bounds are refused. -/
theorem bounds?_eq_none {low high : Value} (h : ¬ Ordered low high) : bounds? low high = none := by
  unfold bounds?
  split
  · rename_i low high
    split
    · rfl
    · -- Two integers that stand the right way round after all.
      rename_i hbounds
      simp only [Bool.or_eq_true, Bool.not_eq_true', decide_eq_true_eq, not_or,
        Bool.not_eq_false] at hbounds
      obtain ⟨⟨hlow, hhigh⟩, hordered⟩ := hbounds
      obtain ⟨a, rfl⟩ := Number.isInteger_iff.1 hlow
      obtain ⟨b, rfl⟩ := Number.isInteger_iff.1 hhigh
      exact absurd ⟨a, b, rfl, rfl, not_lt.1 (mt Number.intCast_lt_intCast.2 hordered)⟩ h
  · rfl

/-! ## Ranges -/

/-- A range is answered with one draw. -/
theorem gives_range (g : Seeded) {low high : Int} (h : Requestable low high) :
    ∃ face : Int, (range (.number (.finite low)) (.number (.finite high))).Gives g (.finite face)
      g.step ∧ Picks g.nextFraction.1 low high face := by
  obtain ⟨face, hpick, hpicks⟩ := pick_fraction h g.nextPart_lt
  refine ⟨face, ?_, hpicks⟩
  change range _ _ g = _
  unfold range
  rw [bounds?_intCast h.ordered]
  change (Except.ok (pick (.finite low) (.finite high) (fraction g.nextPart.1)), g.step) = _
  rw [hpick]

/-- **Seeded dice are fair**, whatever the seed and however much has been drawn. -/
theorem fair (g : Seeded) : Fair g := by
  refine ⟨fun _ => True, trivial, ?_⟩
  intro g _ low high h
  obtain ⟨face, hg, hpicks⟩ := g.gives_range h
  exact ⟨face, g.step, hg, hpicks.low_le, hpicks.le_high, trivial⟩

/-- A range that is refused draws nothing. -/
theorem run_range_of_not_ordered (g : Seeded) {low high : Value} (h : ¬ Ordered low high) :
    (range low high).run g = (.error (.invalidRange low high), g) := by
  change range low high g = _
  unfold range
  rw [bounds?_eq_none h]

/-- **Ranges are kept.** Whatever the seed was and however much has been drawn, the next fraction is
made of the upper 53 bits of the next word. A request for an integer between two bounds is answered
with the one that this fraction picks, and counts as one draw. Bounds that are no integers, or stand
the wrong way round, are refused, and the generator stays as it is. -/
theorem range_within_bounds (g : Seeded) :
    g.nextFraction.1 = .finite ((g.nextWord.1 >>> 11).toNat / 2 ^ 53) ∧
    (∀ low high : Int, Requestable low high → ∃ face : Int,
      (range (.number (.finite low)) (.number (.finite high))).run g =
        (.ok (.finite face), g.nextWord.2) ∧
      Picks g.nextFraction.1 low high face) ∧
    g.nextWord.2.drawn = g.drawn + 1 ∧
    ∀ low high : Value, ¬ Ordered low high →
      (range low high).run g = (.error (.invalidRange low high), g) := by
  refine ⟨?_, fun low high h => g.gives_range h, rfl, fun low high h => g.run_range_of_not_ordered h⟩
  have hparts : ((parts : Nat) : Rat) = 2 ^ 53 := by norm_num [parts]
  rw [← hparts]
  rfl

/-- The first fraction of one seed is the highest there is. It picks the upper bound of the widest
range; and a range that begins halfway between two integers is refused. -/
theorem range_within_bounds_at_the_highest_part :
    let g := ofSeed "intienuosoiors"
    let low : Int := -2 ^ 52
    let high : Int := 2 ^ 52 - 1
    g.nextFraction.1 = fraction (2 ^ 53 - 1) ∧
    (range (.number (.finite low)) (.number (.finite high))).run g =
      (.ok (.finite high), g.nextWord.2) ∧
    Picks g.nextFraction.1 low high high ∧
    (range (.number (.finite (3 / 2))) (.number 2)).run g =
      (.error (.invalidRange (.number (.finite (3 / 2))) (.number 2)), g) := by
  intro g low high
  obtain ⟨-, hranges, -, hrefused⟩ := range_within_bounds g
  obtain ⟨face, hrun, hpicks⟩ := hranges low high ⟨by decide, by decide, by decide, by decide⟩
  have hshown : ((range (.number (.finite low)) (.number (.finite high))).run g).1 =
      .ok (.finite high) := by decide +kernel
  rw [hrun] at hshown
  obtain rfl : face = high := Rat.intCast_inj.1 (Number.finite.inj (Except.ok.inj hshown))
  refine ⟨by decide +kernel, hrun, hpicks, hrefused _ _ ?_⟩
  rintro ⟨a, b, ha, -, -⟩
  have hinteger : (Number.finite (3 / 2)).isInteger = true :=
    Number.isInteger_iff.2 ⟨a, Value.number.inj ha⟩
  revert hinteger
  decide +kernel

end Adventure.Seeded
