import Adventure.Proofs.Number.Rounding
/-!
# Integers that are exact

Sums, differences and products of integers are what they are in the integers, as long as they stay
within `2 ^ 53`. A sum that has left this range upwards does not come back by adding more, so it is
enough to see where it ends (`Tracks.eq`).
-/

namespace Adventure.Number

open Binary64

/-! ## Exact results -/

theorem add_intCast {a b : Int} (h : (a + b).natAbs ≤ 2 ^ 53) :
    finite a + finite b = finite (a + b : Int) := by
  rw [← ofRat_intCast h, Int.cast_add]
  rfl

theorem sub_intCast {a b : Int} (h : (a - b).natAbs ≤ 2 ^ 53) :
    finite a - finite b = finite (a - b : Int) := by
  rw [← ofRat_intCast h, Int.cast_sub, sub_eq_add_neg]
  rfl

theorem mul_intCast {a b : Int} (h : (a * b).natAbs ≤ 2 ^ 53) :
    finite a * finite b = finite (a * b : Int) := by
  rw [← ofRat_intCast h, Int.cast_mul]
  rfl

/-! ## Small numbers -/

theorem cast_exactBound : ((exactBound : Nat) : Rat) = ((2 ^ 53 : Int) : Rat) := by
  norm_num [exactBound]

/-- Strictly between `-2 ^ 53` and `2 ^ 53`. -/
def isSmall (x : Number) : Bool := -ofNat exactBound < x && x < ofNat exactBound

theorem isSmall_intCast {z : Int} : (finite z).isSmall ↔ z.natAbs < 2 ^ 53 := by
  have hlow : -ofNat exactBound < finite z ↔ -2 ^ 53 < z := by
    refine finite_lt_finite.trans ?_
    rw [cast_exactBound]
    exact_mod_cast Iff.rfl
  have hhigh : finite z < ofNat exactBound ↔ z < 2 ^ 53 := by
    refine finite_lt_finite.trans ?_
    rw [cast_exactBound]
    exact_mod_cast Iff.rfl
  simp only [isSmall, Bool.and_eq_true, decide_eq_true_iff, hlow, hhigh]
  omega

/-- Beyond the exact integers there are larger numbers, and infinity. -/
theorem of_exactBound_le {x : Number} (h : ofNat exactBound ≤ x) :
    x = infinity false ∨ ∃ q : Rat, x = finite q ∧ ((2 ^ 53 : Int) : Rat) ≤ q := by
  cases x with
  | nan => cases h
  | infinity negative =>
    cases negative
    · exact .inl rfl
    · cases h
  | finite q =>
    have hq : ((exactBound : Nat) : Rat) ≤ q := finite_le_finite.1 h
    exact .inr ⟨q, rfl, cast_exactBound ▸ hq⟩

/-- Rounding does not lead back among the exact integers. -/
theorem exactBound_le_ofRat {q : Rat} (h : ((2 ^ 53 : Int) : Rat) ≤ q) :
    ofNat exactBound ≤ ofRat q := by
  have hpower : ((2 ^ 53 : Int) : Rat) = (2 : Rat) ^ (53 : Int) := by norm_num
  rw [ofNat, cast_exactBound, hpower]
  exact two_zpow_le_ofRat (by omega) (hpower ▸ h)

/-! ## Integers on their way up -/

/-- A number follows an integer: it is this integer, or has left the range of exact ones upwards. -/
def Tracks (x : Number) (z : Int) : Prop := x = finite z ∨ ofNat exactBound ≤ x

/-- A rounded integer follows the exact one. -/
theorem tracks_ofRat {z : Int} (h : -2 ^ 53 ≤ z) : Tracks (ofRat z) z := by
  by_cases hz : z ≤ 2 ^ 53
  · exact .inl (ofRat_intCast (by omega))
  · exact .inr (exactBound_le_ofRat (by exact_mod_cast (not_le.1 hz).le))

namespace Tracks

variable {x : Number} {z w : Int}

/-- What has ended among the exact integers has never left them. -/
theorem eq (h : Tracks x z) (hx : x.isSmall) : x = finite z := by
  rcases h with h | h
  · exact h
  · simp only [isSmall, Bool.and_eq_true, decide_eq_true_iff] at hx
    have hlt : x < ofNat exactBound := hx.2
    rcases of_exactBound_le h with rfl | ⟨q, rfl, hq⟩
    · cases hlt
    · have hlt : q < ((exactBound : Nat) : Rat) := finite_lt_finite.1 hlt
      rw [cast_exactBound] at hlt
      exact absurd hq (not_le.2 hlt)

/-- More of it follows more of the integer. -/
theorem add (h : Tracks x z) (hz : -2 ^ 53 ≤ z) (hw : 0 ≤ w) : Tracks (x + finite w) (z + w) := by
  rcases h with rfl | h
  · have hsum : finite (z : Rat) + finite (w : Rat) = ofRat ((z + w : Int) : Rat) := by
      rw [Int.cast_add]
      rfl
    rw [hsum]
    exact tracks_ofRat (by omega)
  · rcases of_exactBound_le h with rfl | ⟨q, rfl, hq⟩
    · exact .inr rfl
    · have hmore : ((2 ^ 53 : Int) : Rat) ≤ q + w := by
        have : (0 : Rat) ≤ w := by exact_mod_cast hw
        linarith
      exact .inr (exactBound_le_ofRat hmore)

/-- An integer below is not reached. -/
theorem not_le (h : Tracks x z) (hz : w < z) (hw : w < 2 ^ 53) : ¬ x ≤ finite w := by
  intro hle
  rcases h with rfl | h
  · have hle := intCast_le_intCast.1 hle
    omega
  · rcases of_exactBound_le h with rfl | ⟨q, rfl, hq⟩
    · cases hle
    · have hle : (2 ^ 53 : Int) ≤ w := by exact_mod_cast hq.trans (finite_le_finite.1 hle)
      omega

end Tracks

end Adventure.Number
