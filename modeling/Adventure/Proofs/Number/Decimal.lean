import Adventure.Number.Decimal
import Adventure.Proofs.Number.Rounding
import Mathlib.Data.Nat.Prime.Basic
import Mathlib.Tactic.Ring
/-!
# Decimals and the numbers they stand for

Reading a decimal gives its value, rounded once (`toNumber_eq`): the decimals that are sorted out
beforehand would be rounded to zero or to an infinity anyway. So two decimals of one value are read
as one number, whatever their digits are, and the zeros that a shortest decimal loses at its end
cost nothing. The shortest decimal of a number is read as that number (`ofRat_shortest`) for one of
two reasons: it was tried, or it is the number written out in full.
-/

namespace Adventure

namespace Binary64

variable {x : Rat}

theorem nearestInt_of_lt_half (h0 : 0 ≤ x) (h : x < 1 / 2) : nearestInt x = 0 := by
  have hfloor : x.floor = 0 := by
    have hle : (0 : Int) ≤ x.floor := Rat.le_floor_iff.2 (by exact_mod_cast h0)
    have hlt : x.floor < 1 := Rat.floor_lt_iff.2 (by push_cast; linarith)
    omega
  unfold nearestInt
  simp only [hfloor]
  rw [if_pos (by push_cast; linarith)]

/-- What is less than half of the smallest bit is rounded to zero. -/
theorem round_of_lt (h0 : 0 < x) (h : x < (2 : Rat) ^ (-1075 : Int)) : round x = 0 := by
  have hm := lt_of_two_zpow_lt ((magnitude_bounds h0).1.trans_lt h)
  have hu : unitExponent x = -1074 := by
    unfold unitExponent
    omega
  have hhalf : x / (2 : Rat) ^ (-1074 : Int) < 1 / 2 := by
    rw [div_lt_iff₀ (two_zpow_pos _)]
    calc x < (2 : Rat) ^ (-1075 : Int) := h
      _ = 1 / 2 * (2 : Rat) ^ (-1074 : Int) := by
          rw [show (-1074 : Int) = -1075 + 1 by rfl, zpow_add_one₀ (by norm_num)]
          ring
  have hnear := nearestInt_of_lt_half (div_nonneg h0.le (two_zpow_pos _).le) hhalf
  simp only [round, hu, hnear, Int.cast_zero, zero_mul]

/-- The denominator of a number that rounding keeps is a power of two. -/
theorem Kept.exists_den (h : Kept x) : ∃ k, x.den = 2 ^ k := by
  obtain ⟨n, hn⟩ := h
  have hx : x = n * (2 : Rat) ^ unitExponent x := by
    rw [← hn, div_mul_cancel₀ _ (two_zpow_pos _).ne']
  have hdvd : x.den ∣ 2 ^ (-unitExponent x).toNat := by
    by_cases hu : 0 ≤ unitExponent x
    · have hone := two_zpow_div hu
      rw [zpow_zero, div_one] at hone
      rw [hx, hone, ← Int.cast_mul, Rat.den_intCast]
      exact one_dvd _
    · obtain ⟨j, hj⟩ : ∃ j : Nat, unitExponent x = -(j : Int) := ⟨(-unitExponent x).toNat, by omega⟩
      have hfraction : x = (n : Rat) / ((2 ^ j : Int) : Rat) := by
        rw [hj, zpow_neg, zpow_natCast] at hx
        rw [hx, div_eq_mul_inv]
        push_cast
        rfl
      have hden : (x.den : Int) ∣ 2 ^ j := by
        rw [hfraction, Rat.intCast_div_eq_divInt]
        exact Rat.den_dvd n (2 ^ j)
      have hexponent : (-unitExponent x).toNat = j := by omega
      rw [hexponent]
      exact_mod_cast hden
  obtain ⟨k, -, hk⟩ := (Nat.dvd_prime_pow Nat.prime_two).1 hdvd
  exact ⟨k, hk⟩

theorem cast_num_of_isSmallInteger (h : isSmallInteger x) : ((x.num : Int) : Rat) = x := by
  simp only [isSmallInteger, Bool.and_eq_true, beq_iff_eq] at h
  exact (Rat.den_eq_one_iff x).1 h.1

end Binary64

namespace Number

open Binary64

variable {x : Rat}

@[simp] theorem ofRat_zero : ofRat 0 = finite 0 := ofRat_intCast (n := 0) (by simp)

theorem ofRat_of_limit_le (h : limit ≤ x) : ofRat x = infinity false := by
  have hpos : 0 < x := (two_zpow_pos 1024).trans_le h
  have hbig : ¬ isSmallInteger x := fun hs => absurd h (not_le.2 (kept_of_isSmallInteger hpos hs).2)
  have hm : (1024 : Int) ≤ magnitude x := by
    have := lt_of_two_zpow_lt (h.trans_lt (magnitude_bounds hpos).2)
    omega
  have hround : limit ≤ Binary64.round x :=
    (two_zpow_le hm).trans (zpow_magnitude_le_round hpos (by omega))
  unfold ofRat
  rw [if_neg hbig]
  dsimp only
  rw [if_pos hround]

theorem ofRat_of_lt (h0 : 0 ≤ x) (h : x < (2 : Rat) ^ (-1075 : Int)) : ofRat x = finite 0 := by
  rcases h0.eq_or_lt with rfl | hpos
  · exact ofRat_zero
  · have hlt : x < 1 := h.trans_le (by simpa using two_zpow_le (by omega : (-1075 : Int) ≤ 0))
    have hbig : ¬ isSmallInteger x := by
      intro hs
      have hnum := Rat.num_pos.2 hpos
      rw [← cast_num_of_isSmallInteger hs] at hlt
      have : x.num < 1 := by exact_mod_cast hlt
      omega
    have hlimit : (0 : Rat) < limit := two_zpow_pos 1024
    unfold ofRat
    rw [if_neg hbig]
    dsimp only
    rw [round_of_lt hpos h, if_neg (not_le.2 hlimit), if_neg (by linarith)]

instance (x : Number) : Decidable (Held x) :=
  match x with
  | nan => isTrue trivial
  | infinity _ => isTrue trivial
  | finite x => inferInstanceAs (Decidable (ofRat x = finite x))

end Number

namespace Decimal

open Binary64 Number

/-! ## Reading -/

theorem toRat_nonneg (d : Decimal) : 0 ≤ d.toRat :=
  mul_nonneg (Nat.cast_nonneg _) (zpow_pos (by norm_num) _).le

/-- Powers of ten below one are below the powers of eight. -/
theorem ten_zpow_le {e : Int} (h : e ≤ 0) : (10 : Rat) ^ e ≤ (2 : Rat) ^ (3 * e) := by
  obtain ⟨j, rfl⟩ : ∃ j : Nat, e = -(j : Int) := ⟨(-e).toNat, by omega⟩
  rw [zpow_mul, zpow_neg, zpow_neg, zpow_natCast, zpow_natCast]
  exact inv_anti₀ (by positivity) (pow_le_pow_left₀ (by norm_num) (by norm_num) j)

theorem limit_le_ten_zpow : limit ≤ (10 : Rat) ^ reach := by
  have h : 2 ^ 1024 ≤ 10 ^ 400 := by decide +kernel
  change (2 : Rat) ^ ((1024 : Nat) : Int) ≤ (10 : Rat) ^ ((400 : Nat) : Int)
  rw [zpow_natCast, zpow_natCast]
  exact_mod_cast h

/-- **Reading a decimal is rounding its value once**, also out of reach. -/
theorem toNumber_eq (d : Decimal) : d.toNumber = .ofRat d.toRat := by
  obtain ⟨n, e⟩ := d
  unfold toNumber
  dsimp only
  split
  · rename_i hn
    simp only [toRat, hn, Nat.cast_zero, zero_mul, ofRat_zero]
    rfl
  · rename_i hn
    obtain ⟨-, hlog⟩ := log2_bounds hn
    split
    · -- Above the largest number.
      rename_i hhigh
      have hone : (1 : Rat) ≤ n := by exact_mod_cast Nat.one_le_iff_ne_zero.2 hn
      have hlimit : limit ≤ toRat ⟨n, e⟩ := by
        calc limit ≤ (10 : Rat) ^ reach := limit_le_ten_zpow
          _ ≤ (10 : Rat) ^ e := zpow_le_zpow_right₀ (by norm_num) hhigh.le
          _ ≤ n * (10 : Rat) ^ e := le_mul_of_one_le_left (zpow_pos (by norm_num) _).le hone
      exact (ofRat_of_limit_le hlimit).symm
    · split
      · -- Less than half of the smallest number.
        rename_i hlow
        have hlow : e + (n.log2 + 1) < -400 := hlow
        have hsmall : toRat ⟨n, e⟩ < (2 : Rat) ^ (-1075 : Int) := by
          calc n * (10 : Rat) ^ e
              < (2 : Rat) ^ ((n.log2 : Int) + 1) * (10 : Rat) ^ e :=
                mul_lt_mul_of_pos_right hlog (zpow_pos (by norm_num) _)
            _ ≤ (2 : Rat) ^ ((n.log2 : Int) + 1) * (2 : Rat) ^ (3 * e) :=
                mul_le_mul_of_nonneg_left (ten_zpow_le (by omega)) (two_zpow_pos _).le
            _ = (2 : Rat) ^ ((n.log2 : Int) + 1 + 3 * e) := (zpow_add₀ (by norm_num) _ _).symm
            _ ≤ (2 : Rat) ^ (-1075 : Int) := two_zpow_le (by omega)
        exact (ofRat_of_lt (toRat_nonneg _) hsmall).symm
      · rfl

theorem readsBack_iff {x : Rat} {d : Decimal} : readsBack x d = true ↔ ofRat d.toRat = finite x := by
  rw [readsBack, decide_eq_true_iff, toNumber_eq]

/-! ## The fewest digits -/

theorem ofRat_of_onGrid? {x : Rat} {e : Int} {d : Decimal} (h : onGrid? x e = some d) :
    ofRat d.toRat = finite x := by
  unfold onGrid? at h
  dsimp only at h
  rw [← readsBack_iff]
  split at h
  · cases h
  · rename_i hb _
    cases h
    exact hb
  · rename_i _ ha
    cases h
    exact ha
  · rename_i hb ha
    split at h
    · cases h
      exact hb
    · split at h
      · cases h
        exact ha
      · split at h
        · cases h
          exact hb
        · cases h
          exact ha

/-- Zeros at the end of the digits add nothing to the value. -/
theorem toRat_dropZeros (n : Nat) (d : Decimal) : (dropZeros n d).toRat = d.toRat := by
  induction n generalizing d with
  | zero => rfl
  | succ n ih =>
    unfold dropZeros
    split
    · rename_i h
      have hdigits : d.digits = d.digits / 10 * 10 := by omega
      have hcast : (d.digits : Rat) = ((d.digits / 10 : Nat) : Rat) * 10 := by exact_mod_cast hdigits
      rw [ih]
      simp only [toRat]
      rw [hcast, zpow_add_one₀ (by norm_num)]
      ring
    · rfl

theorem toRat_exact {x : Rat} (hx : 0 < x) (h : Kept x) : (exact x).toRat = x := by
  obtain ⟨k, hk⟩ := h.exists_den
  have hten : (0 : Rat) < (10 : Rat) ^ k := by positivity
  -- Enough places make an integer of it.
  have hwhole : x * (10 : Rat) ^ k = ((x.num * 5 ^ k : Int) : Rat) := by
    have hnum : x * (2 : Rat) ^ k = x.num := by
      have := Rat.mul_den_eq_num x
      rw [hk] at this
      exact_mod_cast this
    have hsplit : (10 : Rat) ^ k = (2 : Rat) ^ k * (5 : Rat) ^ k := by
      rw [← mul_pow]
      norm_num
    rw [hsplit, ← mul_assoc, hnum]
    push_cast
    rfl
  have hnonneg : 0 ≤ x.num * 5 ^ k := mul_nonneg (Rat.num_nonneg.2 hx.le) (by positivity)
  have hplaces : x.den.log2 = k := by rw [hk, Nat.log2_two_pow]
  have hdigits : (((x.num * 5 ^ k).toNat : Nat) : Rat) = x * (10 : Rat) ^ k := by
    rw [hwhole, ← Int.cast_natCast, Int.toNat_of_nonneg hnonneg]
  unfold exact toRat
  simp only [hplaces]
  rw [hwhole, Rat.floor_intCast, hdigits, zpow_neg, zpow_natCast, mul_inv_cancel_right₀ hten.ne']

/-- **The shortest decimal of a number is rounded to it.** -/
theorem ofRat_shortest {x : Rat} (hx : 0 < x) (h : Held (finite x)) :
    ofRat (shortest x).toRat = finite x := by
  unfold shortest
  dsimp only
  rw [toRat_dropZeros]
  cases hf : (List.range enoughDigits).findSome? fun (i : Nat) => onGrid? x (scale x - (i + 1 : Nat)) with
  | none =>
    rw [Option.getD_none, toRat_exact hx (h.kept hx).1]
    exact h
  | some d =>
    obtain ⟨i, -, hd⟩ := List.exists_of_findSome?_eq_some hf
    exact ofRat_of_onGrid? hd

theorem digits_shortest_ne_zero {x : Rat} (hx : 0 < x) (h : Held (finite x)) :
    (shortest x).digits ≠ 0 := by
  intro hzero
  have hr := ofRat_shortest hx h
  rw [toRat, hzero, Nat.cast_zero, zero_mul, ofRat_zero] at hr
  exact hx.ne (finite.inj hr)

end Decimal

end Adventure
