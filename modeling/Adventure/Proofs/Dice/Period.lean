import Adventure.Proofs.Dice.Seeded
import Mathlib.Data.Fintype.EquivFin
import Mathlib.Order.Interval.Finset.Nat
/-!
# The period of seeded dice

Two draws give the same word just if their places differ by a multiple of `2 ^ 64`
(`stream_nextWord_eq_iff`): the states advance by an odd number, and mixing is one-to-one, since each
of its steps can be undone (`mul_injective`, `xorShift_injective`). So among `2 ^ 64` draws in a row
every word comes once, and every fraction as often as there are words with its upper bits
(`full_period`).
-/

namespace Adventure.Seeded

/-! ## Steps that can be undone -/

/-- A factor that has an inverse loses nothing. -/
theorem mul_injective (factor inverse : UInt64) (h : factor * inverse = 1) :
    Function.Injective fun word : UInt64 => word * factor := by
  intro v w hvw
  have hback := congrArg (· * inverse) hvw
  simpa only [UInt64.mul_assoc, h, UInt64.mul_one] using hback

/-- A word is not lost in its sum with a part of itself that has been shifted down. -/
theorem xorShift_injective (shift : UInt64) (h : 0 < shift.toNat % 64) :
    Function.Injective fun word : UInt64 => word ^^^ (word >>> shift) := by
  intro v w hvw
  have hvw : v ^^^ (v >>> shift) = w ^^^ (w >>> shift) := hvw
  -- The difference of two such words stays the same when it is shifted, so nothing is in it.
  have hshift : v ^^^ w = (v ^^^ w) >>> shift := by
    rw [UInt64.shiftRight_xor]
    calc v ^^^ w = v ^^^ (v >>> shift) ^^^ (v >>> shift) ^^^ w := by
          rw [UInt64.xor_assoc v, UInt64.xor_self, UInt64.xor_zero]
      _ = w ^^^ (w >>> shift) ^^^ (v >>> shift) ^^^ w := by rw [hvw]
      _ = (w ^^^ w) ^^^ ((v >>> shift) ^^^ (w >>> shift)) := by ac_rfl
      _ = (v >>> shift) ^^^ (w >>> shift) := by rw [UInt64.xor_self, UInt64.zero_xor]
  have hhalf := congrArg UInt64.toNat hshift
  rw [UInt64.toNat_shiftRight, Nat.shiftRight_eq_div_pow] at hhalf
  have hzero : (v ^^^ w).toNat = 0 := by
    by_contra hne
    have hlt := Nat.div_lt_self (Nat.pos_of_ne_zero hne) (Nat.one_lt_two_pow h.ne')
    omega
  exact UInt64.xor_eq_zero_iff.1 (UInt64.toNat_inj.1 hzero)

/-- **Mixing is one-to-one.** -/
theorem mix_injective : Function.Injective mix := by
  have hfirst := mul_injective 0xBF58476D1CE4E5B9 0x96DE1B173F119089 (by decide)
  have hsecond := mul_injective 0x94D049BB133111EB 0x319642B2D24D8EC3 (by decide)
  exact (xorShift_injective 31 (by decide)).comp <| hsecond.comp <|
    (xorShift_injective 27 (by decide)).comp <| hfirst.comp <| xorShift_injective 30 (by decide)

theorem increment_injective : Function.Injective fun word : UInt64 => word * increment :=
  mul_injective increment 0xF1DE83E19937733D (by decide)

/-! ## Draw after draw -/

/-- What a generator gives out, draw after draw. -/
def stream {α : Type} (next : Seeded → α × Seeded) (g : Seeded) : Nat → α
  | 0 => (next g).1
  | k + 1 => stream next (next g).2 k

variable (g : Seeded)

theorem stream_nextWord (k : Nat) :
    stream nextWord g k = mix (g.state + UInt64.ofNat (k + 1) * increment) := by
  induction k generalizing g with
  | zero =>
    have hone : UInt64.ofNat (0 + 1) = 1 := rfl
    rw [hone, UInt64.one_mul, stream, nextWord, step]
  | succ k ih =>
    have hone : UInt64.ofNat 1 = 1 := rfl
    rw [stream, nextWord, ih, step, UInt64.ofNat_add (k + 1) 1, UInt64.add_mul, hone,
      UInt64.one_mul, UInt64.add_assoc, UInt64.add_comm increment]

theorem stream_nextFraction (k : Nat) :
    stream nextFraction g k = fraction (stream nextWord g k >>> 11).toNat := by
  induction k generalizing g with
  | zero => simp only [stream, nextFraction, nextPart]
  | succ k ih => simp only [stream, nextFraction, nextPart, ih]

/-- **Two draws give the same word** just if a multiple of `2 ^ 64` lies between them. -/
theorem stream_nextWord_eq_iff {i j : Nat} :
    stream nextWord g i = stream nextWord g j ↔ i % 2 ^ 64 = j % 2 ^ 64 := by
  rw [stream_nextWord, stream_nextWord, mix_injective.eq_iff, UInt64.add_right_inj,
    increment_injective.eq_iff, UInt64.ofNat_eq_iff_mod_eq_toNat, UInt64.toNat_ofNat']
  omega

/-- No word is left out, since there are as many draws as words. -/
theorem exists_stream_nextWord (start : Nat) (word : UInt64) :
    ∃ k, k < 2 ^ 64 ∧ stream nextWord g (start + k) = word := by
  have hinjective : Function.Injective fun k : Fin (2 ^ 64) =>
      (stream nextWord g (start + k)).toBitVec.toFin := by
    intro i j hij
    have hword := UInt64.toBitVec_inj.1 (BitVec.toFin_inj.1 hij)
    have hmod := (stream_nextWord_eq_iff g).1 hword
    have hi := i.isLt
    have hj := j.isLt
    exact Fin.ext (by omega)
  obtain ⟨k, hk⟩ := Finite.injective_iff_surjective.1 hinjective word.toBitVec.toFin
  exact ⟨k, k.isLt, UInt64.toBitVec_inj.1 (BitVec.toFin_inj.1 hk)⟩

/-! ## Fractions -/

/-- A fraction is given by the words with its upper bits. -/
theorem stream_nextFraction_eq_iff {k part : Nat} :
    stream nextFraction g k = .finite (part / 2 ^ 53) ↔
      (stream nextWord g k).toNat ∈ Finset.Ico (part * 2 ^ 11) ((part + 1) * 2 ^ 11) := by
  have hparts : ((parts : Nat) : Rat) = 2 ^ 53 := by norm_num [parts]
  have hshift : (stream nextWord g k >>> 11).toNat = (stream nextWord g k).toNat / 2 ^ 11 := by
    rw [UInt64.toNat_shiftRight, Nat.shiftRight_eq_div_pow]
    rfl
  rw [stream_nextFraction, fraction, Number.finite.injEq, hparts, div_left_inj' (by norm_num),
    Nat.cast_inj, hshift, Finset.mem_Ico]
  omega

theorem exists_stream_nextFraction (k : Nat) :
    ∃ part : Nat, part < 2 ^ 53 ∧ stream nextFraction g k = .finite (part / 2 ^ 53) := by
  have hword := (stream nextWord g k).toNat_lt
  refine ⟨(stream nextWord g k).toNat / 2 ^ 11, by omega, (stream_nextFraction_eq_iff g).2 ?_⟩
  rw [Finset.mem_Ico]
  omega

/-- Places and words correspond, so the fraction comes up as often as there are such words. -/
theorem card_stream_nextFraction (start : Nat) {part : Nat} (hpart : part < 2 ^ 53) :
    ((Finset.range (2 ^ 64)).filter fun k =>
      stream nextFraction g (start + k) = .finite (part / 2 ^ 53)).card = 2 ^ 11 := by
  have hcount : (Finset.Ico (part * 2 ^ 11) ((part + 1) * 2 ^ 11)).card = 2 ^ 11 := by
    rw [Nat.card_Ico]
    omega
  rw [← hcount]
  refine Finset.card_bij (fun k _ => (stream nextWord g (start + k)).toNat) ?_ ?_ ?_
  · intro k hk
    exact (stream_nextFraction_eq_iff g).1 (Finset.mem_filter.1 hk).2
  · intro i hi j hj hij
    have hmod := (stream_nextWord_eq_iff g).1 (UInt64.toNat_inj.1 hij)
    have hi := Finset.mem_range.1 (Finset.mem_filter.1 hi).1
    have hj := Finset.mem_range.1 (Finset.mem_filter.1 hj).1
    omega
  · intro n hn
    have hbound : n < 2 ^ 64 := by
      have hn := (Finset.mem_Ico.1 hn).2
      omega
    obtain ⟨k, hk, hword⟩ := exists_stream_nextWord g start (UInt64.ofNat n)
    have hn' : (stream nextWord g (start + k)).toNat = n := by
      rw [hword, UInt64.toNat_ofNat_of_lt' hbound]
    refine ⟨k, Finset.mem_filter.2 ⟨Finset.mem_range.2 hk, ?_⟩, hn'⟩
    exact (stream_nextFraction_eq_iff g).2 (hn' ▸ hn)

/-! ## The period -/

/-- **The period is full, and every fraction is as likely as any other.** Whatever the seed was and
wherever one begins, the next `2 ^ 64` words are all different, every word is one of them, and after
them everything comes again. Fractions are multiples of `2 ^ (-53)` from zero to below one, and each
of these comes up `2 ^ 11` times. -/
theorem full_period (start : Nat) :
    Set.InjOn (fun k => stream nextWord g (start + k)) (Set.Iio (2 ^ 64)) ∧
    (∀ word, ∃! k, k < 2 ^ 64 ∧ stream nextWord g (start + k) = word) ∧
    (∀ k, stream nextWord g (k + 2 ^ 64) = stream nextWord g k) ∧
    (∀ k, ∃ part : Nat, part < 2 ^ 53 ∧ stream nextFraction g k = .finite (part / 2 ^ 53)) ∧
    ∀ part : Nat, part < 2 ^ 53 →
      ((Finset.range (2 ^ 64)).filter fun k =>
        stream nextFraction g (start + k) = .finite (part / 2 ^ 53)).card = 2 ^ 11 := by
  have hdistinct {i j : Nat} (hi : i < 2 ^ 64) (hj : j < 2 ^ 64)
      (h : stream nextWord g (start + i) = stream nextWord g (start + j)) : i = j := by
    have hmod := (stream_nextWord_eq_iff g).1 h
    omega
  refine ⟨fun i hi j hj h => hdistinct hi hj h, ?_, ?_, exists_stream_nextFraction g,
    fun part hpart => card_stream_nextFraction g start hpart⟩
  · intro word
    obtain ⟨k, hk, hword⟩ := exists_stream_nextWord g start word
    refine ⟨k, ⟨hk, hword⟩, ?_⟩
    rintro j ⟨hj, hj'⟩
    exact hdistinct hj hk (hj'.trans hword.symm)
  · intro k
    rw [stream_nextWord_eq_iff, Nat.add_mod_right]

/-- The highest fraction is the first one of a seed. It comes again, `2 ^ 11` times after the first
thousand draws. -/
theorem full_period_of_a_lucky_seed :
    let g := ofSeed "intienuosoiors"
    let highest := Number.finite ((2 ^ 53 - 1 : Nat) / 2 ^ 53)
    stream nextFraction g 0 = highest ∧
    ((Finset.range (2 ^ 64)).filter fun k =>
      stream nextFraction g (1000 + k) = highest).card = 2 ^ 11 := by
  intro g highest
  obtain ⟨-, -, -, -, hcount⟩ := full_period g 1000
  exact ⟨by decide +kernel, hcount (2 ^ 53 - 1) (by decide)⟩

end Adventure.Seeded
