import Adventure.Proofs.Number.Exact
import Mathlib.Tactic.Ring
/-!
# The distances between numbers

The numbers that rounding keeps lie further apart the larger they are. Whatever is less than half of
this distance is lost in a sum or a difference (`round_sub_eq`); what is more is not. Numbers that
are not negative are counted by their rank, from zero to infinity (`rank_lt_rank`), so only finitely
many of them can be passed one after the other.
-/

namespace Adventure.Binary64

variable {x y : Rat}

/-! ## Multiples of the last bit -/

theorem unitExponent_le {k : Int} (hx : 0 < x) (h : x < (2 : Rat) ^ (53 + k)) (hk : -1074 ≤ k) :
    unitExponent x ≤ k := by
  have hm := lt_of_two_zpow_lt ((magnitude_bounds hx).1.trans_lt h)
  unfold unitExponent
  omega

theorem le_unitExponent {k : Int} (h : (2 : Rat) ^ (52 + k) ≤ x) : k ≤ unitExponent x := by
  have hx := (two_zpow_pos _).trans_le h
  have hm := lt_of_two_zpow_lt (h.trans_lt (magnitude_bounds hx).2)
  unfold unitExponent
  omega

/-- A multiple of a bit is kept if its factor has no more than 53 bits. -/
theorem kept_mul_zpow {n k : Int} (hpos : 0 < n) (hn : n < 2 ^ 53) (hk : -1074 ≤ k) :
    Kept (n * (2 : Rat) ^ k) := by
  have hpos' : (0 : Rat) < n * (2 : Rat) ^ k :=
    mul_pos (by exact_mod_cast hpos) (two_zpow_pos k)
  have hlt : n * (2 : Rat) ^ k < (2 : Rat) ^ (53 + k) := by
    rw [zpow_add₀ (by norm_num)]
    exact mul_lt_mul_of_pos_right (by exact_mod_cast hn) (two_zpow_pos k)
  have hu := unitExponent_le hpos' hlt hk
  refine ⟨n * 2 ^ (k - unitExponent (n * (2 : Rat) ^ k)).toNat, ?_⟩
  rw [Int.cast_mul, ← two_zpow_div hu, mul_div_assoc]

/-- A number has 53 bits in front of the last that is kept. -/
theorem div_unit_lt (hx : 0 < x) : x / (2 : Rat) ^ unitExponent x < ((2 ^ 53 : Int) : Rat) := by
  have hpower : ((2 ^ 53 : Int) : Rat) = (2 : Rat) ^ (53 : Int) := by norm_num
  rw [hpower, div_lt_iff₀ (two_zpow_pos _), ← zpow_add₀ (by norm_num)]
  refine (magnitude_bounds hx).2.trans_le (two_zpow_le ?_)
  unfold unitExponent
  omega

/-- The digits of a number that rounding keeps. -/
theorem Kept.exists_digits (hx : 0 < x) (h : Kept x) :
    ∃ n : Int, 0 < n ∧ n < 2 ^ 53 ∧ x / (2 : Rat) ^ unitExponent x = n := by
  obtain ⟨n, hn⟩ := h
  have hpos : (0 : Rat) < n := hn ▸ div_pos hx (two_zpow_pos _)
  have hlt : (n : Rat) < ((2 ^ 53 : Int) : Rat) := hn ▸ div_unit_lt hx
  exact ⟨n, by exact_mod_cast hpos, by exact_mod_cast hlt, hn⟩

/-! ## Rounding, from below -/

/-- Rounding does not fall below a number that it keeps. -/
theorem le_round (hx : 0 < x) (h : x ≤ y) (hkept : Kept x) : x ≤ round y := by
  have hy := hx.trans_le h
  have hmono := unitExponent_mono hx h
  rcases hmono.lt_or_eq with hlt | heq
  · -- Not even below the leading bit, which is more than the number.
    have hm : magnitude x + 1 ≤ magnitude y := by
      unfold unitExponent at hlt
      omega
    have hlow : -1074 ≤ magnitude y := by
      unfold unitExponent at hlt
      omega
    exact ((magnitude_bounds hx).2.trans_le (two_zpow_le hm)).le.trans
      (zpow_magnitude_le_round hy hlow)
  · obtain ⟨n, hn⟩ := hkept
    rw [heq] at hn
    have hle : (n : Rat) ≤ y / (2 : Rat) ^ unitExponent y :=
      hn ▸ div_le_div_of_nonneg_right h (two_zpow_pos _).le
    unfold round
    dsimp only
    rw [← div_le_iff₀ (two_zpow_pos _), hn]
    exact_mod_cast le_nearestInt hle

/-- What was rounded is kept. -/
theorem kept_round (hx : 0 ≤ x) : Kept (round x) := by
  rcases hx.eq_or_lt with rfl | hx
  · rw [round_zero]
    exact ⟨0, by simp⟩
  have hunit : -1074 ≤ unitExponent x := by
    unfold unitExponent
    omega
  have hn := nearestInt_le (div_unit_lt hx).le
  have hn' : (0 : Int) ≤ nearestInt (x / (2 : Rat) ^ unitExponent x) :=
    le_nearestInt (by simpa using div_nonneg hx.le (two_zpow_pos _).le)
  unfold round
  dsimp only
  generalize nearestInt (x / (2 : Rat) ^ unitExponent x) = n at hn hn'
  rcases hn.lt_or_eq with hlt | rfl
  · rcases hn'.eq_or_lt with rfl | hpos
    · exact ⟨0, by simp⟩
    · exact kept_mul_zpow hpos hlt hunit
  · -- One digit more, and all of them zero.
    have hpower : ((2 ^ 53 : Int) : Rat) * (2 : Rat) ^ unitExponent x =
        (2 : Rat) ^ (53 + unitExponent x) := by
      rw [zpow_add₀ (by norm_num)]
      norm_num
    rw [hpower]
    exact kept_zpow (by omega)

/-- The nearest integer of what lacks less than one half. -/
theorem nearestInt_eq {n : Int} (h : (n : Rat) - 1 / 2 < x) (h' : x ≤ n) : nearestInt x = n := by
  refine le_antisymm (nearestInt_le h') ?_
  have hfloor : n - 1 ≤ x.floor := Rat.le_floor_iff.2 (by push_cast; linarith)
  rcases hfloor.lt_or_eq with hlt | heq
  · exact le_nearestInt ((Rat.le_floor_iff.1 (by omega : n ≤ x.floor)))
  · have hrest : 1 / 2 < x - x.floor := by
      rw [← heq]
      push_cast
      linarith
    unfold nearestInt
    dsimp only
    rw [if_neg (by linarith), if_pos hrest]
    omega

/-- **Less than half of the last bit is lost.** -/
theorem round_sub_eq (hx : Kept x) {t : Rat} (ht : 0 ≤ t) (hpos : 0 < x - t)
    (hless : t < (2 : Rat) ^ unitExponent (x - t) / 2) : round (x - t) = x := by
  have hunit := two_zpow_pos (unitExponent (x - t))
  obtain ⟨n, hn⟩ := hx.exists_multiple (unitExponent_mono hpos (by linarith))
  have hshare : (x - t) / (2 : Rat) ^ unitExponent (x - t) =
      n - t / (2 : Rat) ^ unitExponent (x - t) := by
    rw [sub_div, hn]
  have hlost : t / (2 : Rat) ^ unitExponent (x - t) < 1 / 2 := by
    rw [div_lt_iff₀ hunit]
    linarith
  have hnear : nearestInt ((x - t) / (2 : Rat) ^ unitExponent (x - t)) = n := by
    rw [hshare]
    refine nearestInt_eq (by linarith) ?_
    have := div_nonneg ht hunit.le
    linarith
  simp only [round, hnear]
  rw [← hn, div_mul_cancel₀ _ hunit.ne']

/-- So it is for any number beyond `2 ^ (52 + k)`, if it is less than half of `2 ^ k`. -/
theorem round_sub_eq_of_lt {k : Int} (hx : Kept x) (hlarge : (2 : Rat) ^ (52 + k) < x) {t : Rat}
    (ht : 0 ≤ t) (hless : t < (2 : Rat) ^ k / 2) : round (x - t) = x := by
  have hunit := two_zpow_pos k
  have hpower : (2 : Rat) ^ (52 + k) = ((2 ^ 52 : Int) : Rat) * (2 : Rat) ^ k := by
    rw [zpow_add₀ (by norm_num)]
    norm_num
  -- There is a whole unit in between.
  obtain ⟨n, hn⟩ := hx.exists_multiple (le_unitExponent hlarge.le)
  have hmore : (2 ^ 52 : Int) < n := by
    have hlt : ((2 ^ 52 : Int) : Rat) < n := by
      rw [← hn, lt_div_iff₀ hunit, ← hpower]
      exact hlarge
    exact_mod_cast hlt
  have hnext : ((2 ^ 52 : Int) : Rat) + 1 ≤ n := by exact_mod_cast hmore
  have hnext := mul_le_mul_of_nonneg_right hnext hunit.le
  rw [add_mul, one_mul, ← hpower, ← hn, div_mul_cancel₀ _ hunit.ne'] at hnext
  have hrest : (2 : Rat) ^ (52 + k) ≤ x - t := by linarith
  refine round_sub_eq hx ht ((two_zpow_pos _).trans_le hrest) (hless.trans_le ?_)
  linarith [two_zpow_le (le_unitExponent hrest)]

/-- **More than half of the last bit is not lost.** -/
theorem round_sub_lt {t : Rat} (h : (2 : Rat) ^ unitExponent (x - t) / 2 < t) :
    round (x - t) < x := by
  linarith [round_le_add_half (x - t)]

end Adventure.Binary64

namespace Adventure.Number

open Binary64

variable {x y : Rat}

/-! ## Numbers that are not negative -/

/-- A result that is not negative is rounded, or is an infinity. -/
theorem ofRat_of_nonneg (hx : 0 ≤ x) :
    ofRat x = if limit ≤ Binary64.round x then infinity false else finite (Binary64.round x) := by
  have hlimit : (0 : Rat) < limit := two_zpow_pos 1024
  unfold ofRat
  split
  · rename_i hsmall
    rcases hx.eq_or_lt with rfl | hx
    · rw [round_zero, if_neg (not_le.2 hlimit)]
    · obtain ⟨hkept, hlt⟩ := kept_of_isSmallInteger hx hsmall
      rw [round_of_kept hkept, if_neg (not_le.2 hlt)]
  · have hround := round_nonneg hx
    dsimp only
    split
    · rfl
    · rw [if_neg (by linarith)]

/-- A number that rounding keeps is a number as it is. -/
theorem ofRat_of_kept (hx : 0 ≤ x) (h : Kept x) (hlimit : x < limit) : ofRat x = finite x := by
  rw [ofRat_of_nonneg hx, round_of_kept h, if_neg (not_le.2 hlimit)]

/-- A number that is not negative, and that rounding keeps; or no number at all. -/
def Unsigned : Number → Prop
  | nan => True
  | infinity negative => negative = false
  | finite x => 0 ≤ x ∧ Kept x ∧ x < limit

theorem unsigned_ofRat (hx : 0 ≤ x) : Unsigned (ofRat x) := by
  rw [ofRat_of_nonneg hx]
  split
  · rfl
  · rename_i hlimit
    exact ⟨round_nonneg hx, kept_round hx, not_le.1 hlimit⟩

theorem unsigned_intCast {z : Int} (hz : 0 ≤ z) (h : Held (finite z)) : Unsigned (finite z) := by
  have hunsigned := unsigned_ofRat (x := z) (by exact_mod_cast hz)
  have hheld : ofRat z = finite z := h
  rwa [hheld] at hunsigned

theorem unsigned_natCast {n : Nat} (h : n ≤ 2 ^ 53) : Unsigned (finite n) :=
  unsigned_intCast (z := n) (by omega) (ofRat_intCast (n := n) (by omega))

/-- Rounding does not fall below a number of the game. -/
theorem finite_le_ofRat (h : Unsigned (finite x)) (hxy : x ≤ y) : finite x ≤ ofRat y := by
  obtain ⟨hx, hkept, -⟩ := h
  have hround : x ≤ Binary64.round y := by
    rcases hx.eq_or_lt with rfl | hx
    · exact round_nonneg hxy
    · exact le_round hx hxy hkept
  rw [ofRat_of_nonneg (hx.trans hxy)]
  split
  · rfl
  · exact finite_le_finite.2 hround

/-- Nor does it pass one. -/
theorem ofRat_le_finite (h : Unsigned (finite y)) (hx : 0 ≤ x) (hxy : x ≤ y) :
    ofRat x ≤ finite y := by
  obtain ⟨-, hkept, hlimit⟩ := h
  obtain ⟨z, hz, -, hle, -⟩ := ofRat_eq_finite hx hxy hkept hlimit
  rw [hz]
  exact finite_le_finite.2 hle

/-- An integer from one on is rounded to such an integer, or is an infinity. -/
theorem ofRat_intCast_of_pos {z : Int} (hz : 1 ≤ z) :
    ofRat z = infinity false ∨ ∃ w : Int, 1 ≤ w ∧ ofRat z = finite w := by
  have hone : Unsigned (finite (1 : Nat)) := unsigned_natCast (by omega)
  have hle := finite_le_ofRat hone (by exact_mod_cast hz : ((1 : Nat) : Rat) ≤ z)
  rw [ofRat_of_nonneg (by exact_mod_cast (by omega : 0 ≤ z))] at hle ⊢
  split
  · exact .inl rfl
  · rename_i hlimit
    rw [if_neg hlimit] at hle
    have hint := (Rat.den_eq_one_iff _).1 (isInt_round (Rat.den_intCast z))
    rw [← hint] at hle ⊢
    exact .inr ⟨_, intCast_le_intCast.1 hle, rfl⟩

theorem sub_finite (x y : Rat) : finite x - finite y = ofRat (x - y) := by
  rw [sub_eq_add_neg]
  rfl

namespace Unsigned

variable {a b : Number}

theorem add (ha : Unsigned a) (hb : Unsigned b) : Unsigned (a + b) := by
  cases a with
  | nan => trivial
  | infinity s =>
    cases b with
    | nan => trivial
    | infinity t =>
      obtain rfl : s = false := ha
      obtain rfl : t = false := hb
      rfl
    | finite y => exact ha
  | finite x =>
    cases b with
    | nan => trivial
    | infinity t => exact hb
    | finite y => exact unsigned_ofRat (add_nonneg ha.1 hb.1)

theorem mul (ha : Unsigned a) (hb : Unsigned b) : Unsigned (a * b) := by
  have scale {x : Rat} (hx : 0 ≤ x) :
      Unsigned (if x = 0 then nan else infinity (false != decide (x < 0))) := by
    split
    · trivial
    · simp [Unsigned, not_lt.2 hx]
  cases a with
  | nan => trivial
  | infinity s =>
    obtain rfl : s = false := ha
    cases b with
    | nan => trivial
    | infinity t =>
      obtain rfl : t = false := hb
      rfl
    | finite y => exact scale hb.1
  | finite x =>
    cases b with
    | nan => trivial
    | infinity t =>
      obtain rfl : t = false := hb
      exact scale ha.1
    | finite y => exact unsigned_ofRat (mul_nonneg ha.1 hb.1)

/-- What is taken from a number that is not less leaves a number that is not more, unless infinity
is taken from itself. -/
theorem sub (ha : Unsigned a) (hb : Unsigned b) (h : b ≤ a) :
    Unsigned (a - b) ∧ (a = infinity false ∧ a - b = nan ∨ a - b ≤ a) := by
  cases b with
  | nan => cases h
  | infinity t =>
    obtain rfl : t = false := hb
    cases a with
    | nan => cases h
    | infinity s =>
      obtain rfl : s = false := ha
      exact ⟨trivial, .inl ⟨rfl, rfl⟩⟩
    | finite x => cases h
  | finite y =>
    cases a with
    | nan => cases h
    | infinity s =>
      obtain rfl : s = false := ha
      exact ⟨rfl, .inr rfl⟩
    | finite x =>
      have hnonneg := sub_nonneg.2 (finite_le_finite.1 h)
      rw [sub_finite]
      exact ⟨unsigned_ofRat hnonneg, .inr (ofRat_le_finite ha hnonneg (sub_le_self x hb.1))⟩

/-- What is at most a rational value has one itself. -/
theorem eq_finite_of_le (ha : Unsigned a) {y : Rat} (h : a ≤ finite y) :
    ∃ x, a = finite x ∧ 0 ≤ x ∧ x ≤ y := by
  cases a with
  | nan => cases h
  | infinity s =>
    obtain rfl : s = false := ha
    cases h
  | finite x => exact ⟨x, rfl, ha.1, finite_le_finite.1 h⟩

/-- What is added does not lead down. -/
theorem le_add (ha : Unsigned a) (hvalue : a ≠ nan) {y : Rat} (hy : 0 ≤ y) : a ≤ a + finite y := by
  cases a with
  | nan => exact absurd rfl hvalue
  | infinity s =>
    obtain rfl : s = false := ha
    rfl
  | finite x => exact finite_le_ofRat ha (le_add_of_nonneg_right hy)

end Unsigned

/-! ## Counting the numbers -/

/-- How many numbers lie between zero and a number, or more: numbers with the same last bit are
counted by their digits, and come after all with a finer one. -/
def rank : Number → Nat
  | nan => 0
  | infinity _ => 2 ^ 64
  | finite x =>
    if x ≤ 0 then 0
    else (unitExponent x + 1074).toNat * 2 ^ 53 + (x / (2 : Rat) ^ unitExponent x).floor.toNat

theorem rank_digits {n : Int} (hx : 0 < x) (hn : x / (2 : Rat) ^ unitExponent x = n) :
    rank (finite x) = (unitExponent x + 1074).toNat * 2 ^ 53 + n.toNat := by
  rw [rank, if_neg (not_le.2 hx), hn, Rat.floor_intCast]

theorem rank_finite_lt (h : Unsigned (finite x)) : rank (finite x) < 2 ^ 64 := by
  obtain ⟨hx, hkept, hlimit⟩ := h
  rcases hx.eq_or_lt with rfl | hx
  · simp [rank]
  · obtain ⟨n, -, hn, hdigits⟩ := hkept.exists_digits hx
    have hu : unitExponent x ≤ 971 := unitExponent_le hx hlimit (by omega)
    rw [rank_digits hx hdigits]
    omega

theorem rank_finite_lt_rank (hx : Unsigned (finite x)) (hy : Unsigned (finite y)) (h : x < y) :
    rank (finite x) < rank (finite y) := by
  obtain ⟨hx, hkept, -⟩ := hx
  obtain ⟨-, hkept', -⟩ := hy
  have hy := hx.trans_lt h
  obtain ⟨m, hm, -, hdigits'⟩ := hkept'.exists_digits hy
  rw [rank_digits hy hdigits']
  rcases hx.eq_or_lt with rfl | hx
  · simp only [rank, le_refl, if_true]
    omega
  · obtain ⟨n, -, hn, hdigits⟩ := hkept.exists_digits hx
    rw [rank_digits hx hdigits]
    have hlow : -1074 ≤ unitExponent x := by
      unfold unitExponent
      omega
    rcases (unitExponent_mono hx h.le).lt_or_eq with hlt | heq
    · omega
    · -- The same last bit: the digits decide.
      have hless : (n : Rat) < m := by
        rw [← hdigits, ← hdigits', ← heq]
        exact div_lt_div_of_pos_right h (two_zpow_pos _)
      have hless : n < m := by exact_mod_cast hless
      rw [heq]
      omega

/-- **The rank grows with the number.** -/
theorem rank_lt_rank {a b : Number} (ha : Unsigned a) (hb : Unsigned b) (h : a < b) :
    rank a < rank b := by
  cases a with
  | nan => cases h
  | infinity s =>
    obtain rfl : s = false := ha
    cases b <;> cases h
  | finite x =>
    cases b with
    | nan => cases h
    | infinity t => exact rank_finite_lt ha
    | finite y => exact rank_finite_lt_rank ha hb (finite_lt_finite.1 h)

theorem rank_le {a : Number} (ha : Unsigned a) : rank a ≤ 2 ^ 64 := by
  cases a with
  | nan => exact Nat.zero_le _
  | infinity s => exact le_rfl
  | finite x => exact (rank_finite_lt ha).le

/-- A sum is higher in rank, if it is not what it was before. -/
theorem rank_add {a : Number} (ha : Unsigned a) (hvalue : a ≠ nan) {y : Rat}
    (hy : Unsigned (finite y)) : a + finite y = a ∨ rank a < rank (a + finite y) := by
  rcases Number.lt_or_eq_of_le (ha.le_add hvalue hy.1) with hlt | heq
  · exact .inr (rank_lt_rank ha (ha.add hy) hlt)
  · exact .inl heq.symm

/-- A difference is lower in rank, if it is not what it was before. -/
theorem rank_sub {a b : Number} (ha : Unsigned a) (hb : Unsigned b) (h : b ≤ a) :
    a - b = a ∨ rank (a - b) < rank a := by
  obtain ⟨hdifference, ⟨rfl, hnan⟩ | hle⟩ := ha.sub hb h
  · rw [hnan]
    exact .inr (by decide)
  · rcases Number.lt_or_eq_of_le hle with hlt | heq
    · exact .inr (rank_lt_rank hdifference ha hlt)
    · exact .inl heq

end Adventure.Number
