import Adventure.Proofs.Number.Spacing
/-!
# Rounding, the order and the sign

Rounding keeps the order (`ofRat_mono`) and commutes with the sign (`ofRat_neg`), so what holds of
numbers that are not negative holds of all. Two rules follow: what is added on both sides of a
comparison does not turn it around (`Number.add_le_add_right`), nor does a factor above zero
(`Number.mul_le_mul_right`); and a number that rounding keeps becomes neither smaller by what is not
negative nor larger by what is not positive (`Held.le_add_finite`, `Held.add_finite_le`), however
much of the change is lost.
-/

namespace Adventure

namespace Binary64

variable {x y : Rat}

/-! ## Opposites

The leading bit, and so the grid, does not depend on the sign. -/

theorem isSmallInteger_neg (x : Rat) : isSmallInteger (-x) = isSmallInteger x := by
  rw [isSmallInteger, isSmallInteger, Rat.den_neg_eq_den, Rat.num_neg_eq_neg_num, Int.natAbs_neg]

theorem unitExponent_neg (x : Rat) : unitExponent (-x) = unitExponent x := by
  simp only [unitExponent, magnitude, Rat.num_neg_eq_neg_num, Int.natAbs_neg, Rat.den_neg_eq_den,
    Rat.abs_neg]

/-- The nearest integer lies as far on the other side, also at a tie. -/
theorem nearestInt_neg (x : Rat) : nearestInt (-x) = -nearestInt x := by
  have hlow := Rat.floor_le x
  have hhigh : x < x.floor + 1 := by exact_mod_cast Rat.lt_floor_add_one x
  rcases hlow.eq_or_lt with heq | hlt
  · rw [← heq, ← Int.cast_neg, nearestInt_intCast, nearestInt_intCast]
  · have hfloor : (-x).floor = -x.floor - 1 := by
      have hle : -x.floor - 1 ≤ (-x).floor := Rat.le_floor_iff.2 (by push_cast; linarith)
      have hless : (-x).floor < -x.floor := Rat.floor_lt_iff.2 (by push_cast; linarith)
      omega
    unfold nearestInt
    simp only [hfloor]
    push_cast
    split_ifs <;> first | linarith | omega

theorem round_neg (x : Rat) : round (-x) = -round x := by
  simp only [round, unitExponent_neg, neg_div, nearestInt_neg, Int.cast_neg, neg_mul]

/-! ## The order -/

theorem nearestInt_mono (h : x ≤ y) : nearestInt x ≤ nearestInt y := by
  have hfloor : x.floor ≤ y.floor := Rat.le_floor_iff.2 ((Rat.floor_le x).trans h)
  rcases hfloor.lt_or_eq with hlt | heq
  · -- There is an integer in between.
    have hbetween : x ≤ y.floor :=
      (Rat.lt_floor_add_one x).le.trans (Rat.intCast_le_intCast.2 hlt)
    exact (nearestInt_le hbetween).trans (le_nearestInt (Rat.floor_le y))
  · unfold nearestInt
    simp only [heq]
    split_ifs <;> linarith

/-- **Rounding keeps the order.** -/
theorem round_mono (hx : 0 ≤ x) (h : x ≤ y) : round x ≤ round y := by
  rcases hx.eq_or_lt with rfl | hpos
  · rw [round_zero]
    exact round_nonneg h
  rcases (unitExponent_mono hpos h).lt_or_eq with hlt | heq
  · -- Not beyond the leading bit of the larger one.
    have hm : magnitude x + 1 ≤ magnitude y ∧ -1074 ≤ magnitude y := by
      unfold unitExponent at hlt
      omega
    have hbelow : x ≤ (2 : Rat) ^ magnitude y :=
      (magnitude_bounds hpos).2.le.trans (two_zpow_le hm.1)
    exact (round_le hx hbelow (kept_zpow hm.2)).trans
      (zpow_magnitude_le_round (hpos.trans_le h) hm.2)
  · have hnear := nearestInt_mono
      (div_le_div_of_nonneg_right h (two_zpow_pos (unitExponent y)).le)
    simp only [round, heq]
    exact mul_le_mul_of_nonneg_right (by exact_mod_cast hnear) (two_zpow_pos _).le

end Binary64

namespace Number

open Binary64

variable {a b : Number} {x y : Rat}

theorem ofRat_neg (x : Rat) : ofRat (-x) = -ofRat x := by
  have hlimit : (0 : Rat) < limit := two_zpow_pos 1024
  unfold ofRat
  rw [isSmallInteger_neg, round_neg]
  dsimp only
  split_ifs <;> first | rfl | linarith

protected theorem neg_neg (a : Number) : - -a = a := by
  cases a with
  | nan => rfl
  | infinity s => exact congrArg infinity (Bool.not_not s)
  | finite x => exact congrArg finite (neg_neg x)

protected theorem neg_le_neg (h : a ≤ b) : -b ≤ -a := by
  cases a with
  | nan => cases h
  | infinity s => cases b with
    | nan => cases h
    | infinity t => cases s <;> cases t <;> first | rfl | cases h
    | finite y => cases s <;> first | rfl | cases h
  | finite x => cases b with
    | nan => cases h
    | infinity t => cases t <;> first | rfl | cases h
    | finite y => exact finite_le_finite.2 (neg_le_neg (finite_le_finite.1 h))

/-! ## What is held -/

/-- The opposite of a number that rounding keeps is one as well. -/
theorem Held.neg (h : Held a) : Held (-a) := by
  cases a with
  | nan => trivial
  | infinity s => trivial
  | finite x =>
    have h : ofRat x = finite x := h
    change ofRat (-x) = finite (-x)
    rw [ofRat_neg, h]
    rfl

/-- Every result is held. -/
theorem held_ofRat (x : Rat) : Held (ofRat x) := by
  have nonneg {x : Rat} (hx : 0 ≤ x) : Held (ofRat x) := by
    have hunsigned := unsigned_ofRat hx
    cases hr : ofRat x with
    | nan => trivial
    | infinity s => trivial
    | finite z =>
      rw [hr] at hunsigned
      exact ofRat_of_kept hunsigned.1 hunsigned.2.1 hunsigned.2.2
  rcases le_total 0 x with hx | hx
  · exact nonneg hx
  · rw [← neg_neg x, ofRat_neg]
    exact (nonneg (neg_nonneg.2 hx)).neg

/-- **Rounding keeps the order**, also of results that are negative. -/
theorem ofRat_mono (h : x ≤ y) : ofRat x ≤ ofRat y := by
  have nonneg {x y : Rat} (hx : 0 ≤ x) (h : x ≤ y) : ofRat x ≤ ofRat y := by
    have hround := round_mono hx h
    rw [ofRat_of_nonneg hx, ofRat_of_nonneg (hx.trans h)]
    split_ifs with hover hover'
    · rfl
    · exact absurd (hover.trans hround) hover'
    · rfl
    · exact finite_le_finite.2 hround
  rcases le_total 0 x with hx | hx
  · exact nonneg hx h
  · have opposite {x : Rat} (hx : x ≤ 0) : ofRat x = -ofRat (-x) := by
      rw [← ofRat_neg, neg_neg]
    rcases le_total 0 y with hy | hy
    · have hzero : ofRat 0 = finite 0 := ofRat_intCast (n := 0) (by omega)
      have hbelow := Number.neg_le_neg (nonneg le_rfl (neg_nonneg.2 hx))
      have habove := nonneg le_rfl hy
      rw [← opposite hx, hzero] at hbelow
      rw [hzero] at habove
      exact Number.le_trans hbelow habove
    · rw [opposite hx, opposite hy]
      exact Number.neg_le_neg (nonneg (neg_nonneg.2 hy) (neg_le_neg h))

/-! ## Sums -/

/-- The least and the greatest of the numbers with a value. -/
theorem infinity_le (ha : a ≠ nan) : infinity true ≤ a := by
  cases a with
  | nan => exact absurd rfl ha
  | infinity s => rfl
  | finite x => rfl

theorem le_infinity (ha : a ≠ nan) : a ≤ infinity false := by
  cases a with
  | nan => exact absurd rfl ha
  | infinity s => cases s <;> rfl
  | finite x => rfl

/-- What is added on both sides does not turn a comparison around. -/
protected theorem add_le_add_right (h : a ≤ b) (y : Rat) : a + finite y ≤ b + finite y := by
  cases a with
  | nan => cases h
  | infinity s => cases b with
    | nan => cases h
    | infinity t => exact h
    | finite z =>
      obtain rfl : s = true := h
      exact infinity_le (ofRat_ne_nan (z + y))
  | finite x => cases b with
    | nan => cases h
    | infinity t =>
      obtain rfl : t = false := by cases t <;> first | rfl | cases h
      exact le_infinity (ofRat_ne_nan (x + y))
    | finite z => exact ofRat_mono (by linarith [finite_le_finite.1 h])

protected theorem add_le_add_left (ha : a ≠ nan) (h : x ≤ y) : a + finite x ≤ a + finite y := by
  cases a with
  | nan => exact absurd rfl ha
  | infinity s => exact Number.le_refl (add_finite_ne_nan ha x)
  | finite z => exact ofRat_mono (by linarith)

theorem finite_add_comm (x : Rat) (a : Number) : finite x + a = a + finite x := by
  cases a with
  | nan => rfl
  | infinity s => rfl
  | finite y => exact congrArg ofRat (add_comm x y)

/-- A sum does not become smaller with its parts larger. -/
protected theorem finite_add_le_finite_add (hxy : x ≤ y) (hab : a ≤ b) :
    finite x + a ≤ finite y + b := by
  rw [finite_add_comm, finite_add_comm]
  exact Number.le_trans (Number.add_le_add_left (ne_nan_of_le hab).1 hxy)
    (Number.add_le_add_right hab y)

/-- Every sum with a number is held. -/
theorem held_add_finite (a : Number) (y : Rat) : Held (a + finite y) := by
  cases a with
  | nan => trivial
  | infinity s => trivial
  | finite x => exact held_ofRat (x + y)

/-! ## Products and integer parts -/

/-- A factor above zero does not turn a comparison around. -/
protected theorem mul_le_mul_right (h : a ≤ b) (hy : 0 < y) : a * finite y ≤ b * finite y := by
  -- An infinity keeps its sign.
  have hinfinity (s : Bool) : infinity s * finite y = infinity s := by
    change (if y = 0 then nan else infinity (s != decide (y < 0))) = _
    rw [if_neg hy.ne', decide_eq_false (not_lt.2 hy.le), Bool.bne_false]
  cases a with
  | nan => cases h
  | infinity s =>
    rw [hinfinity]
    cases b with
    | nan => cases h
    | infinity t =>
      rw [hinfinity]
      exact h
    | finite z =>
      obtain rfl : s = true := h
      exact infinity_le (ofRat_ne_nan (z * y))
  | finite x =>
    cases b with
    | nan => cases h
    | infinity t =>
      obtain rfl : t = false := by cases t <;> first | rfl | cases h
      rw [hinfinity]
      exact le_infinity (ofRat_ne_nan (x * y))
    | finite z => exact ofRat_mono (mul_le_mul_of_nonneg_right (finite_le_finite.1 h) hy.le)

protected theorem floor_le_floor (h : a ≤ b) : a.floor ≤ b.floor := by
  cases a with
  | nan => cases h
  | infinity s => cases b <;> exact h
  | finite x =>
    cases b with
    | nan => cases h
    | infinity t => exact h
    | finite z =>
      have hfloor : (x.floor : Rat) ≤ z := (Rat.floor_le x).trans (finite_le_finite.1 h)
      exact intCast_le_intCast.2 (Rat.le_floor_iff.2 hfloor)

namespace Held

theorem add_zero (h : Held a) : a + finite 0 = a := by
  cases a with
  | nan => rfl
  | infinity s => rfl
  | finite x =>
    change ofRat (x + 0) = finite x
    rw [Rat.add_zero]
    exact h

theorem min (ha : Held a) (hb : Held b) : Held (Number.min a b) := by
  unfold Number.min
  split
  · trivial
  · trivial
  · split
    · exact hb
    · exact ha

/-- A number does not become larger by what is not positive, -/
theorem add_finite_le (h : Held a) (ha : a ≠ nan) (hy : y ≤ 0) : a + finite y ≤ a := by
  have hle := Number.add_le_add_left ha hy
  rwa [h.add_zero] at hle

/-- nor smaller by what is not negative. -/
theorem le_add_finite (h : Held a) (ha : a ≠ nan) (hy : 0 ≤ y) : a ≤ a + finite y := by
  have hle := Number.add_le_add_left ha hy
  rwa [h.add_zero] at hle

/-- What is held and not below zero is unsigned. -/
theorem unsigned (h : Held a) (hy : 0 ≤ y) (hle : finite y ≤ a) : Unsigned a := by
  cases a with
  | nan => trivial
  | infinity s =>
    cases s
    · rfl
    · cases hle
  | finite x =>
    have h : ofRat x = finite x := h
    exact h ▸ unsigned_ofRat (hy.trans (finite_le_finite.1 hle))

end Held

/-! ## Small results -/

theorem not_isSmall_of_le (h : a ≤ finite ((-2 ^ 53 : Int) : Rat)) : ¬ a.isSmall := by
  intro hsmall
  simp only [isSmall, Bool.and_eq_true, decide_eq_true_iff] at hsmall
  have hbound : -ofNat exactBound = finite ((-2 ^ 53 : Int) : Rat) := by decide +kernel
  rw [hbound] at hsmall
  exact (not_le_iff_lt (ne_nan_of_le h).1 (by simp)).2 hsmall.1 h

/-- An integer below the exact ones is not rounded up to them. -/
theorem ofRat_le_of_le {z : Int} (hz : z ≤ -2 ^ 53) :
    ofRat z ≤ finite ((-2 ^ 53 : Int) : Rat) := by
  rw [← ofRat_intCast (n := -2 ^ 53) (by decide)]
  exact ofRat_mono (Rat.intCast_le_intCast.2 hz)

/-- **An integer result that is small is exact.** -/
theorem ofRat_eq_of_isSmall {z : Int} (h : (ofRat z).isSmall) : ofRat z = finite z := by
  by_cases hz : -2 ^ 53 ≤ z
  · exact (tracks_ofRat hz).eq h
  · exact absurd h (not_isSmall_of_le (ofRat_le_of_le (by omega)))

theorem min_intCast (m n : Int) : min (finite m) (finite n) = finite (Min.min m n : Int) := by
  rw [min_eq (by simp) (by simp)]
  split
  · rename_i hlt
    rw [Int.min_eq_right (intCast_lt_intCast.1 hlt).le]
  · rename_i hle
    rw [Int.min_eq_left (not_lt.1 (mt intCast_lt_intCast.2 hle))]

end Number

end Adventure
