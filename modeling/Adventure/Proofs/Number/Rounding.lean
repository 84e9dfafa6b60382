import Adventure.Proofs.Number.Order
import Mathlib.Algebra.Order.Field.Power
import Mathlib.Data.Rat.Cast.Order
import Mathlib.Tactic.FieldSimp
import Mathlib.Tactic.Linarith
import Mathlib.Tactic.Positivity
/-!
# Rounding and bounds

Rounding never passes a number that it keeps: what is at most such a number is rounded to at most it
(`round_le`). So a result below the largest number stays a number, and all that is needed of a
formula is an upper bound that rounding keeps, such as a power of two (`kept_zpow`). Integers are
rounded to integers (`isInt_round`).
-/

namespace Adventure.Binary64

variable {x y : Rat}

/-! ## The nearest integer -/

theorem nearestInt_intCast (n : Int) : nearestInt n = n := by
  simp [nearestInt, Rat.floor_intCast]

/-- The nearest integer does not pass an integer. -/
theorem nearestInt_le {n : Int} (h : x ≤ n) : nearestInt x ≤ n := by
  have hle : x.floor ≤ n := by
    have : (x.floor : Rat) ≤ n := (Rat.floor_le x).trans h
    exact_mod_cast this
  rcases hle.lt_or_eq with hlt | heq
  · unfold nearestInt
    dsimp only
    split
    · exact hle
    · split
      · exact hlt
      · split
        · exact hle
        · exact hlt
  · have hx : x = n := le_antisymm h (heq ▸ Rat.floor_le x)
    rw [hx, nearestInt_intCast]

theorem le_nearestInt {n : Int} (h : n ≤ x) : n ≤ nearestInt x := by
  have hle : n ≤ x.floor := Rat.le_floor_iff.2 h
  unfold nearestInt
  dsimp only
  split
  · exact hle
  · split
    · omega
    · split
      · exact hle
      · omega

/-- The nearest integer is at most one half above. -/
theorem nearestInt_le_add_half (x : Rat) : (nearestInt x : Rat) ≤ x + 1 / 2 := by
  have hfloor := Rat.floor_le x
  unfold nearestInt
  dsimp only
  split
  · linarith
  · rename_i hrest
    have hup : ((x.floor + 1 : Int) : Rat) ≤ x + 1 / 2 := by
      push_cast
      linarith
    split
    · exact hup
    · split
      · linarith
      · exact hup

/-! ## The last bit that is kept -/

theorem two_zpow_pos (k : Int) : (0 : Rat) < (2 : Rat) ^ k := zpow_pos (by norm_num) k

theorem two_zpow_le {j k : Int} (h : j ≤ k) : (2 : Rat) ^ j ≤ (2 : Rat) ^ k :=
  zpow_le_zpow_right₀ (by norm_num) h

theorem lt_of_two_zpow_lt {j k : Int} (h : (2 : Rat) ^ j < (2 : Rat) ^ k) : j < k := by
  by_contra hn
  exact absurd (two_zpow_le (not_lt.1 hn)) (not_le.2 h)

/-- A power of two is a multiple of every smaller one. -/
theorem two_zpow_div {j k : Int} (h : j ≤ k) :
    (2 : Rat) ^ k / (2 : Rat) ^ j = ((2 ^ (k - j).toNat : Int) : Rat) := by
  rw [← zpow_sub₀ (by norm_num)]
  have : ((k - j).toNat : Int) = k - j := Int.toNat_of_nonneg (by omega)
  rw [← this, zpow_natCast]
  push_cast
  rfl

theorem log2_bounds {n : Nat} (h : n ≠ 0) :
    (2 : Rat) ^ (n.log2 : Int) ≤ n ∧ (n : Rat) < (2 : Rat) ^ ((n.log2 : Int) + 1) := by
  constructor
  · rw [zpow_natCast]
    exact_mod_cast Nat.log2_self_le h
  · have : (2 : Rat) ^ ((n.log2 : Int) + 1) = ((2 ^ (n.log2 + 1) : Nat) : Rat) := by
      push_cast
      rw [← zpow_natCast]
      push_cast
      rfl
    rw [this]
    exact_mod_cast Nat.lt_log2_self

theorem estimate_bounds (h : 0 < x) :
    let estimate : Int := (x.num.natAbs.log2 : Int) - (x.den.log2 : Int)
    (2 : Rat) ^ (estimate - 1) < x ∧ x < (2 : Rat) ^ (estimate + 1) := by
  intro estimate
  have hnum : 0 < x.num := Rat.num_pos.2 h
  obtain ⟨hn, hn'⟩ := log2_bounds (n := x.num.natAbs) (by omega)
  obtain ⟨hd, hd'⟩ := log2_bounds x.den_nz
  have hcast : ((x.num.natAbs : Nat) : Rat) = x.num := by
    rw [← Int.cast_natCast, Int.natAbs_of_nonneg hnum.le]
  rw [hcast] at hn hn'
  have hpos : (0 : Rat) < x.den := by exact_mod_cast x.den_pos
  have hx : x = x.num / x.den := (Rat.num_div_den x).symm
  constructor
  · rw [hx, lt_div_iff₀ hpos]
    calc (2 : Rat) ^ (estimate - 1) * x.den
        < (2 : Rat) ^ (estimate - 1) * (2 : Rat) ^ ((x.den.log2 : Int) + 1) :=
          mul_lt_mul_of_pos_left hd' (two_zpow_pos _)
      _ = (2 : Rat) ^ (x.num.natAbs.log2 : Int) := by
          rw [← zpow_add₀ (by norm_num)]
          congr 1
          omega
      _ ≤ x.num := hn
  · rw [hx, div_lt_iff₀ hpos]
    calc (x.num : Rat) < (2 : Rat) ^ ((x.num.natAbs.log2 : Int) + 1) := hn'
      _ = (2 : Rat) ^ (estimate + 1) * (2 : Rat) ^ (x.den.log2 : Int) := by
          rw [← zpow_add₀ (by norm_num)]
          congr 1
          omega
      _ ≤ (2 : Rat) ^ (estimate + 1) * x.den :=
          mul_le_mul_of_nonneg_left hd (two_zpow_pos _).le

/-- The magnitude is the exponent of the leading bit. -/
theorem magnitude_bounds (h : 0 < x) :
    (2 : Rat) ^ magnitude x ≤ x ∧ x < (2 : Rat) ^ (magnitude x + 1) := by
  obtain ⟨hlow, hhigh⟩ := estimate_bounds h
  have habs : x.abs = x := Rat.abs_of_nonneg h.le
  unfold magnitude
  rw [habs]
  dsimp only
  split
  · rename_i hle
    exact ⟨hle, hhigh⟩
  · rename_i hnot
    exact ⟨hlow.le, by simpa using not_le.1 hnot⟩

theorem magnitude_mono (hx : 0 < x) (h : x ≤ y) : magnitude x ≤ magnitude y := by
  have hlt := lt_of_two_zpow_lt
    ((magnitude_bounds hx).1.trans_lt (h.trans_lt (magnitude_bounds (hx.trans_le h)).2))
  omega

theorem unitExponent_mono (hx : 0 < x) (h : x ≤ y) : unitExponent x ≤ unitExponent y := by
  have := magnitude_mono hx h
  unfold unitExponent
  omega

/-! ## Rounding -/

/-- Rounding keeps the number: it is a multiple of its own last bit. -/
def Kept (x : Rat) : Prop := ∃ n : Int, x / (2 : Rat) ^ unitExponent x = n

/-- A number that rounding keeps is a multiple of every bit that is finer than its last. -/
theorem Kept.exists_multiple (h : Kept x) {k : Int} (hk : k ≤ unitExponent x) :
    ∃ n : Int, x / (2 : Rat) ^ k = n := by
  obtain ⟨n, hn⟩ := h
  refine ⟨n * 2 ^ (unitExponent x - k).toNat, ?_⟩
  rw [Int.cast_mul, ← hn, ← two_zpow_div hk, div_mul_div_cancel₀ (two_zpow_pos _).ne']

theorem round_of_kept (h : Kept x) : round x = x := by
  obtain ⟨n, hn⟩ := h
  unfold round
  dsimp only
  rw [hn, nearestInt_intCast, ← hn, div_mul_cancel₀ _ (two_zpow_pos _).ne']

theorem kept_of_round (h : round x = x) : Kept x := by
  refine ⟨nearestInt (x / (2 : Rat) ^ unitExponent x), ?_⟩
  rw [div_eq_iff (two_zpow_pos _).ne']
  exact h.symm

theorem round_zero : round 0 = 0 := by
  have hz : nearestInt 0 = 0 := nearestInt_intCast 0
  simp [round, hz]

theorem round_nonneg (h : 0 ≤ x) : 0 ≤ round x := by
  have hn : (0 : Int) ≤ nearestInt (x / (2 : Rat) ^ unitExponent x) :=
    le_nearestInt (by simpa using div_nonneg h (two_zpow_pos _).le)
  exact mul_nonneg (by exact_mod_cast hn) (two_zpow_pos _).le

/-- **Rounding does not pass a number that it keeps.** -/
theorem round_le (hx : 0 ≤ x) (h : x ≤ y) (hy : Kept y) : round x ≤ y := by
  rcases hx.eq_or_lt with rfl | hx
  · rwa [round_zero]
  · obtain ⟨n, hn⟩ := hy.exists_multiple (unitExponent_mono hx h)
    have hle : x / (2 : Rat) ^ unitExponent x ≤ y / (2 : Rat) ^ unitExponent x :=
      div_le_div_of_nonneg_right h (two_zpow_pos _).le
    have hround := nearestInt_le (hn ▸ hle)
    unfold round
    dsimp only
    rw [← le_div_iff₀ (two_zpow_pos _), hn]
    exact_mod_cast hround

/-- Rounding does not fall below the leading bit. -/
theorem zpow_magnitude_le_round (hx : 0 < x) (hm : -1074 ≤ magnitude x) :
    (2 : Rat) ^ magnitude x ≤ round x := by
  have hu : unitExponent x ≤ magnitude x := by
    unfold unitExponent
    omega
  have hdiv := two_zpow_div hu
  have hle : (2 : Rat) ^ magnitude x / (2 : Rat) ^ unitExponent x ≤
      x / (2 : Rat) ^ unitExponent x :=
    div_le_div_of_nonneg_right (magnitude_bounds hx).1 (two_zpow_pos _).le
  rw [hdiv] at hle
  have hround := le_nearestInt hle
  unfold round
  dsimp only
  rw [← div_le_iff₀ (two_zpow_pos _), hdiv]
  exact_mod_cast hround

/-- Rounding adds at most half of the last bit. -/
theorem round_le_add_half (x : Rat) : round x ≤ x + (2 : Rat) ^ unitExponent x / 2 := by
  have hunit := two_zpow_pos (unitExponent x)
  have hnear := mul_le_mul_of_nonneg_right
    (nearestInt_le_add_half (x / (2 : Rat) ^ unitExponent x)) hunit.le
  rw [add_mul, div_mul_cancel₀ _ hunit.ne'] at hnear
  unfold round
  dsimp only
  linarith

/-- Rounding adds at most one part in `2 ^ 53`, where all bits are kept. -/
theorem round_le_add (hx : 0 < x) (hm : -1022 ≤ magnitude x) :
    round x ≤ x + x / (2 : Rat) ^ (53 : Int) := by
  have hu : unitExponent x = magnitude x - 52 := by
    unfold unitExponent
    omega
  have hhalf : (2 : Rat) ^ unitExponent x / 2 ≤ x / (2 : Rat) ^ (53 : Int) := by
    have hexponent : magnitude x - 52 + 53 = magnitude x + 1 := by omega
    rw [le_div_iff₀ (two_zpow_pos 53), div_mul_eq_mul_div, ← zpow_add₀ (by norm_num), hu,
      hexponent, zpow_add_one₀ (by norm_num), mul_div_cancel_right₀ _ (by norm_num)]
    exact (magnitude_bounds hx).1
  exact (round_le_add_half x).trans (by linarith)

/-- An integer is a multiple of every bit below one. -/
theorem kept_of_unitExponent_nonpos {n : Int} (h : unitExponent n ≤ 0) : Kept n := by
  have hone := two_zpow_div h
  rw [zpow_zero] at hone
  refine ⟨n * 2 ^ (0 - unitExponent n).toNat, ?_⟩
  rw [Int.cast_mul, ← hone, mul_one_div]

theorem magnitude_zpow (k : Int) : magnitude ((2 : Rat) ^ k) = k := by
  obtain ⟨hlow, hhigh⟩ := magnitude_bounds (two_zpow_pos k)
  have := lt_of_two_zpow_lt (hlow.trans_lt
    (zpow_lt_zpow_right₀ (by norm_num : (1 : Rat) < 2) (by omega : k < k + 1)))
  have := lt_of_two_zpow_lt hhigh
  omega

theorem kept_zpow {k : Int} (hk : -1074 ≤ k) : Kept ((2 : Rat) ^ k) := by
  refine ⟨_, two_zpow_div ?_⟩
  unfold unitExponent
  rw [magnitude_zpow]
  omega

/-- Integers are rounded to integers, however large. -/
theorem isInt_round (hx : x.den = 1) : (round x).den = 1 := by
  have hint : ((x.num : Int) : Rat) = x := (Rat.den_eq_one_iff x).1 hx
  rcases le_or_gt (unitExponent x) 0 with hu | hu
  · rw [round_of_kept (hint ▸ kept_of_unitExponent_nonpos (hint.symm ▸ hu)), hx]
  · have hone := two_zpow_div hu.le
    rw [zpow_zero, div_one] at hone
    unfold round
    dsimp only
    rw [hone, ← Int.cast_mul]
    exact Rat.den_intCast _

end Adventure.Binary64

namespace Adventure.Number

open Binary64

/-! ## Integers -/

theorem isInteger_iff {x : Number} : x.isInteger ↔ ∃ z : Int, x = finite z := by
  constructor
  · intro h
    obtain ⟨q, rfl⟩ := eq_finite_of_isInteger h
    have hq : ((q.num : Int) : Rat) = q := (Rat.den_eq_one_iff q).1 (by simpa [isInteger] using h)
    exact ⟨q.num, by rw [hq]⟩
  · rintro ⟨z, rfl⟩
    simp [isInteger]

theorem isIntegerFrom_iff {x : Number} {n : Nat} :
    x.isIntegerFrom (finite n) ↔ ∃ z : Int, x = finite z ∧ (n : Int) ≤ z := by
  constructor
  · intro h
    obtain ⟨hi, hle⟩ := Bool.and_eq_true_iff.1 h
    obtain ⟨z, rfl⟩ := isInteger_iff.1 hi
    exact ⟨z, rfl, intCast_le_intCast.1 (of_decide_eq_true hle)⟩
  · rintro ⟨z, rfl, hz⟩
    have hle : finite n ≤ finite z := intCast_le_intCast.2 hz
    simp [isIntegerFrom, isInteger, hle]

theorem isIntegerIn_iff {x : Number} {m n : Nat} :
    x.isIntegerIn (finite m) (finite n) ↔ ∃ z : Int, x = finite z ∧ (m : Int) ≤ z ∧ z ≤ n := by
  have hin : x.isIntegerIn (finite m) (finite n) ↔
      x.isIntegerFrom (finite m) ∧ x ≤ finite n := by
    simp [isIntegerIn, isIntegerFrom]
  rw [hin, isIntegerFrom_iff]
  constructor
  · rintro ⟨⟨z, rfl, hm⟩, hn⟩
    exact ⟨z, rfl, hm, intCast_le_intCast.1 hn⟩
  · rintro ⟨z, rfl, hm, hn⟩
    exact ⟨⟨z, rfl, hm⟩, intCast_le_intCast.2 hn⟩

/-! ## Results that stay numbers -/

variable {x y : Rat}

/-- Small integers are numbers as they are. -/
theorem ofRat_intCast {n : Int} (h : n.natAbs ≤ 2 ^ 53) : ofRat n = finite n := by
  have hs : isSmallInteger (n : Rat) = true := by
    simp only [isSmallInteger, exactBound, Rat.den_intCast, Rat.num_intCast, beq_self_eq_true,
      Bool.true_and]
    exact decide_eq_true h
  rw [ofRat, hs, if_pos rfl]

/-- **A result below a number that rounding keeps is a number**, again below it, and an integer if
the result is one. -/
theorem ofRat_eq_finite (hx : 0 ≤ x) (h : x ≤ y) (hy : Kept y) (hlimit : y < limit) :
    ∃ z, ofRat x = finite z ∧ 0 ≤ z ∧ z ≤ y ∧ (x.den = 1 → z.den = 1) := by
  unfold ofRat
  split
  · exact ⟨x, rfl, hx, h, id⟩
  · have hle := round_le hx h hy
    have hnonneg := round_nonneg hx
    have hlpos : (0 : Rat) < limit := two_zpow_pos 1024
    dsimp only
    rw [if_neg (not_le.2 (hle.trans_lt hlimit)), if_neg (by linarith)]
    exact ⟨Binary64.round x, rfl, hnonneg, hle, isInt_round⟩

/-- So is a result that is at most some power of two. -/
theorem ofRat_eq_finite_of_le_zpow {k : Int} (hx : 0 ≤ x) (h : x ≤ (2 : Rat) ^ k)
    (hlow : -1074 ≤ k) (hhigh : k < 1024) :
    ∃ z, ofRat x = finite z ∧ 0 ≤ z ∧ z ≤ (2 : Rat) ^ k ∧ (x.den = 1 → z.den = 1) :=
  ofRat_eq_finite hx h (kept_zpow hlow) (zpow_lt_zpow_right₀ (by norm_num) hhigh)

/-- A result does not fall below a power of two that the exact one reaches. -/
theorem two_zpow_le_ofRat {k : Int} (hk : -1074 ≤ k) (h : (2 : Rat) ^ k ≤ x) :
    finite ((2 : Rat) ^ k) ≤ ofRat x := by
  have hx : 0 < x := (two_zpow_pos k).trans_le h
  have hm : k ≤ magnitude x := by
    have := lt_of_two_zpow_lt (h.trans_lt (magnitude_bounds hx).2)
    omega
  have hround := (two_zpow_le hm).trans (zpow_magnitude_le_round hx (hk.trans hm))
  have hlimit : (0 : Rat) < limit := two_zpow_pos 1024
  unfold ofRat
  split
  · exact finite_le_finite.2 h
  · dsimp only
    split
    · rfl
    · rw [if_neg (by linarith [two_zpow_pos k])]
      exact finite_le_finite.2 hround

/-- A number that rounding keeps; every number of the game is one. -/
def Held : Number → Prop
  | finite x => ofRat x = finite x
  | _ => True

theorem kept_of_isSmallInteger (hx : 0 < x) (h : isSmallInteger x) : Kept x ∧ x < limit := by
  simp only [isSmallInteger, exactBound, Bool.and_eq_true, beq_iff_eq] at h
  obtain ⟨hden, hnum⟩ := h
  have hint : ((x.num : Int) : Rat) = x := (Rat.den_eq_one_iff x).1 hden
  have hle : x ≤ (2 : Rat) ^ (53 : Int) := by
    rw [← hint]
    have hn : x.num ≤ 2 ^ 53 := by
      have : x.num.natAbs ≤ 2 ^ 53 := of_decide_eq_true hnum
      omega
    exact_mod_cast hn
  constructor
  · rcases hle.lt_or_eq with hlt | heq
    · have hm := lt_of_two_zpow_lt ((magnitude_bounds hx).1.trans_lt hlt)
      have hu : unitExponent x ≤ 0 := by
        unfold unitExponent
        omega
      exact hint ▸ kept_of_unitExponent_nonpos (hint.symm ▸ hu)
    · rw [heq]
      exact kept_zpow (by omega)
  · exact hle.trans_lt (zpow_lt_zpow_right₀ (by norm_num) (by omega))

/-- A positive number that rounding keeps bounds what is rounded. -/
theorem Held.kept (hx : 0 < x) (h : Held (finite x)) : Kept x ∧ x < limit := by
  have h : ofRat x = finite x := h
  by_cases hs : isSmallInteger x
  · exact kept_of_isSmallInteger hx hs
  · unfold ofRat at h
    rw [if_neg hs] at h
    dsimp only at h
    split at h
    · cases h
    · rename_i hlimit
      split at h
      · cases h
      · have hround : Binary64.round x = x := finite.inj h
        rw [hround] at hlimit
        exact ⟨kept_of_round hround, not_le.1 hlimit⟩

end Adventure.Number
