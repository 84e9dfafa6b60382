import Adventure.Proofs.Number.Grammar
/-!
# Numbers that are read back

The text of a number is read as that number, whatever follows it, as long as what follows does not
go on with a numeral (`readJson_chars`). The layout moves the point and puts zeros around the
digits, so what is read is not always the decimal that was written; it is a numeral of the same value
(`strict_layout`), and that is enough.
-/

namespace Adventure

namespace Decimal

/-! ## Digits -/

theorem isDigit_of_mem_numeral {c : Char} {n : Nat} (h : c ∈ numeral n) : c.isDigit :=
  Nat.isDigit_of_mem_toDigits (by omega) (by omega) h

theorem numeral_ne_nil (n : Nat) : numeral n ≠ [] := Nat.toDigits_ne_nil

@[simp] theorem value_numeral (n : Nat) : Numeral.value (numeral n) = n :=
  Nat.ofDigitChars_ten_toDigits

/-- Only zero begins with a zero. -/
theorem head?_numeral {n : Nat} (h : n ≠ 0) : (numeral n).head? ≠ some '0' := by
  induction n using Nat.strongRecOn with
  | _ n ih =>
    by_cases hn : n < 10
    · rw [numeral, Nat.toDigits_of_lt_base hn]
      intro h0
      exact h (Nat.digitChar_eq_zero.1 (Option.some.inj h0))
    · have hdiv := ih (n / 10) (by omega) (by omega)
      rw [numeral, Nat.toDigits_of_base_le (by omega) (by omega),
        List.head?_append_of_ne_nil _ Nat.toDigits_ne_nil]
      exact hdiv

theorem numeral_zero : numeral 0 = ['0'] := rfl

theorem exists_cons_numeral (n : Nat) : ∃ c cs, numeral n = c :: cs ∧ c.isDigit := by
  obtain ⟨c, cs, h⟩ := List.exists_cons_of_ne_nil (numeral_ne_nil n)
  exact ⟨c, cs, h, isDigit_of_mem_numeral (h ▸ List.mem_cons_self)⟩

/-- However it is laid out, a decimal begins with a digit. -/
theorem exists_cons_layout (d : Decimal) : ∃ c cs, d.layout = c :: cs ∧ c.isDigit := by
  obtain ⟨c, cs, h, hc⟩ := exists_cons_numeral d.digits
  unfold layout
  simp only [h]
  split
  · exact ⟨c, _, rfl, hc⟩
  split
  · rename_i hpoint
    obtain ⟨p, hp⟩ : ∃ p : Nat, ((c :: cs).length + d.exponent).toNat = p + 1 :=
      ⟨((c :: cs).length + d.exponent).toNat - 1, by omega⟩
    rw [hp]
    exact ⟨c, _, rfl, hc⟩
  split
  · exact ⟨'0', _, rfl, by decide⟩
  · split
    · rename_i first second rest heq
      obtain ⟨rfl, -⟩ := List.cons.inj heq
      exact ⟨c, _, rfl, hc⟩
    · exact ⟨c, _, rfl, hc⟩

end Decimal

theorem Number.exists_cons_positiveText (x : Rat) :
    ∃ c cs, positiveText x = c :: cs ∧ c.isDigit := by
  unfold positiveText
  split
  · exact Decimal.exists_cons_numeral _
  · exact Decimal.exists_cons_layout _

/-- The text of a number begins with a digit or a minus sign. -/
theorem Number.exists_cons_chars (x : Rat) :
    ∃ c cs, (finite x).chars = c :: cs ∧ (c.isDigit ∨ c = '-') := by
  unfold chars
  dsimp only
  split
  · exact ⟨'0', [], rfl, .inl (by decide)⟩
  split
  · exact ⟨'-', _, rfl, .inr rfl⟩
  · obtain ⟨c, cs, h, hd⟩ := exists_cons_positiveText x
    exact ⟨c, cs, h, .inl hd⟩

namespace Numeral

open Decimal Number

variable {ds rest : List Char} {c : Char}

theorem isWhole_numeral (n : Nat) : IsWhole (numeral n) where
  ne_nil := numeral_ne_nil n
  isDigit _ := isDigit_of_mem_numeral
  zero h := by
    by_cases hn : n = 0
    · rw [hn, numeral_zero]
    · exact absurd h (head?_numeral hn)

theorem IsWhole.of_append {xs ys : List Char} (hx : xs ≠ []) (h0 : xs.head? ≠ some '0')
    (h : ∀ c ∈ xs ++ ys, c.isDigit) : IsWhole (xs ++ ys) where
  ne_nil := by simp [hx]
  isDigit := h
  zero h' := by
    rw [List.head?_append_of_ne_nil _ hx] at h'
    exact absurd h' h0

/-- The first digits of a numeral that does not begin with a zero. -/
theorem IsWhole.take (h : IsWhole ds) (h0 : ds.head? ≠ some '0') {p : Nat} (hp : p ≠ 0) :
    IsWhole (ds.take p) where
  ne_nil := by
    rw [Ne, List.take_eq_nil_iff, not_or]
    exact ⟨hp, h.ne_nil⟩
  isDigit c hc := h.isDigit c (List.mem_of_mem_take hc)
  zero h' := by
    rw [List.head?_take, if_neg hp] at h'
    exact absurd h' h0

theorem isDigit_of_mem_zeros {k : Nat} (hc : c ∈ List.replicate k '0') : c.isDigit := by
  obtain rfl := List.eq_of_mem_replicate hc
  decide

/-! ## Values of digits -/

theorem value_append_zeros (ds : List Char) (k : Nat) :
    value (ds ++ List.replicate k '0') = 10 ^ k * value ds := by
  rw [value, Nat.ofDigitChars_append, Nat.ofDigitChars_replicate_zero]
  rfl

theorem value_zeros_append (k : Nat) (ds : List Char) :
    value (List.replicate k '0' ++ ds) = value ds := by
  rw [value, Nat.ofDigitChars_append, Nat.ofDigitChars_replicate_zero, mul_zero]
  rfl

/-! ## Layouts -/

/-- Digits, and further digits behind a point. -/
theorem strict_point {whole fraction : List Char} (h : IsWhole whole) (hne : fraction ≠ [])
    (hd : ∀ c ∈ fraction, c.isDigit) :
    Strict (whole ++ '.' :: fraction) (toRat ⟨value (whole ++ fraction), -fraction.length⟩) := by
  have hparts := Strict.parts h (.point hd) (by simpa using hne) .absent
  rwa [List.append_nil, zero_sub] at hparts

/-- Digits alone. -/
theorem strict_whole (h : IsWhole ds) : Strict ds (value ds) := by
  have hparts := Strict.parts h .absent (by simp) .absent
  simpa [toRat] using hparts

theorem exponent_signed (e : Int) : Exponent ('e' :: signed e) e := by
  have hne := numeral_ne_nil e.natAbs
  have hd : ∀ c ∈ numeral e.natAbs, c.isDigit := fun _ => isDigit_of_mem_numeral
  have hvalue := value_numeral e.natAbs
  by_cases he : e < 0
  · have hmarked := Exponent.marked (.inl rfl) .minus hne hd
    have habs : -(e.natAbs : Int) = e := by omega
    rw [if_pos rfl, hvalue, habs] at hmarked
    rw [signed, if_pos he]
    exact hmarked
  · have hmarked := Exponent.marked (.inl rfl) .plus hne hd
    have habs : (e.natAbs : Int) = e := by omega
    rw [if_neg (by decide), hvalue, habs] at hmarked
    rw [signed, if_neg he]
    exact hmarked

/-- One digit, perhaps further digits behind a point, and an exponent. -/
theorem strict_scientific {first : Char} {more : List Char} (h : IsWhole [first])
    (hd : ∀ c ∈ more, c.isDigit) (e : Int) :
    Strict (first :: ((if more = [] then [] else '.' :: more) ++ 'e' :: signed e))
      (toRat ⟨value (first :: more), e - more.length⟩) := by
  by_cases hm : more = []
  · subst hm
    exact .parts h .absent (by simp) (exponent_signed e)
  · rw [if_neg hm]
    exact .parts h (.point hd) (by simpa using hm) (exponent_signed e)

/-- **The layout of a decimal is a number of JSON**, and stands for its value. -/
theorem strict_layout {d : Decimal} (hd : d.digits ≠ 0) : Strict d.layout d.toRat := by
  obtain ⟨n, e⟩ := d
  have hhead := head?_numeral hd
  have hwhole := isWhole_numeral n
  have hvalue := value_numeral n
  unfold layout
  dsimp only at hhead ⊢
  generalize numeral n = ds at hhead hwhole hvalue
  split
  · -- Zeros behind the digits.
    rename_i h
    obtain ⟨k, rfl⟩ : ∃ k : Nat, e = k := ⟨e.toNat, by omega⟩
    have hk : ((ds.length : Int) + k - ds.length).toNat = k := by omega
    have hlong : IsWhole (ds ++ List.replicate k '0') :=
      .of_append hwhole.ne_nil hhead
        (List.forall_mem_append.2 ⟨hwhole.isDigit, fun _ => isDigit_of_mem_zeros⟩)
    have hstrict := strict_whole hlong
    rw [value_append_zeros, hvalue] at hstrict
    rw [hk, toRat, zpow_natCast, mul_comm]
    exact_mod_cast hstrict
  split
  · -- The point among the digits.
    rename_i h h'
    obtain ⟨p, hp⟩ : ∃ p : Nat, (ds.length : Int) + e = p :=
      ⟨((ds.length : Int) + e).toNat, by omega⟩
    rw [hp] at h h' ⊢
    rw [Int.toNat_natCast]
    have hfirst : IsWhole (ds.take p) := hwhole.take hhead (by omega)
    have hsecond : ds.drop p ≠ [] := by
      rw [Ne, List.drop_eq_nil_iff]
      omega
    have hstrict := strict_point hfirst hsecond fun c hc =>
      hwhole.isDigit c (List.mem_of_mem_drop hc)
    have hlength : -((ds.drop p).length : Int) = e := by
      rw [List.length_drop]
      omega
    rwa [List.take_append_drop, hvalue, hlength] at hstrict
  split
  · -- Zeros between the point and the digits.
    rename_i h h' h''
    obtain ⟨k, hk⟩ : ∃ k : Nat, (ds.length : Int) + e = -(k : Int) :=
      ⟨(-((ds.length : Int) + e)).toNat, by omega⟩
    rw [hk, neg_neg, Int.toNat_natCast]
    have hzero : IsWhole ['0'] := isWhole_numeral 0
    have hne : List.replicate k '0' ++ ds ≠ [] := by simp [hwhole.ne_nil]
    have hstrict := strict_point hzero hne
      (List.forall_mem_append.2 ⟨fun _ => isDigit_of_mem_zeros, hwhole.isDigit⟩)
    have hlength : -((List.replicate k '0' ++ ds).length : Int) = e := by
      rw [List.length_append, List.length_replicate]
      omega
    have hlead : value (['0'] ++ (List.replicate k '0' ++ ds)) = n := by
      rw [← hvalue, ← value_zeros_append k ds]
      exact value_zeros_append 1 _
    rwa [hlead, hlength] at hstrict
  · -- An exponent behind the digits.
    obtain ⟨first, more, rfl⟩ := List.exists_cons_of_ne_nil hwhole.ne_nil
    have hfirst : IsWhole ((first :: more).take 1) := hwhole.take hhead Nat.one_ne_zero
    have hstrict := strict_scientific hfirst
      (fun c hc => hwhole.isDigit c (List.mem_cons_of_mem _ hc))
      (((first :: more).length : Int) + e - 1)
    have hlength : ((first :: more).length : Int) + e - 1 - more.length = e := by
      rw [List.length_cons]
      omega
    rw [hvalue, hlength] at hstrict
    cases more with
    | nil => exact hstrict
    | cons second more => simpa using hstrict

/-! ## Numbers -/

/-- The text of a positive value is a number of JSON, and stands for what rounds to that value. -/
theorem strict_positiveText {x : Rat} (hx : 0 < x) (h : Held (finite x)) :
    ∃ q, Strict (positiveText x) q ∧ ofRat q = finite x := by
  unfold positiveText
  split
  · rename_i hs
    have hint : ((x.num : Int) : Rat) = x := Binary64.cast_num_of_isSmallInteger hs
    have hnum : ((x.num.natAbs : Nat) : Rat) = x := by
      rw [← hint, ← Int.cast_natCast, Rat.num_intCast, Int.natAbs_of_nonneg (Rat.num_nonneg.2 hx.le)]
    refine ⟨_, strict_whole (isWhole_numeral _), ?_⟩
    rw [value_numeral, hnum]
    exact h
  · exact ⟨_, strict_layout (digits_shortest_ne_zero hx h), ofRat_shortest hx h⟩

/-- **The text of a number is read as that number**, whatever follows it. -/
theorem readJson_chars {x : Rat} (h : Held (finite x)) (hr : Stops rest) :
    readJson ((finite x).chars ++ rest) = some (finite x, rest) := by
  unfold chars
  dsimp only
  split
  · rename_i h0
    subst h0
    have hread := (strict_whole (isWhole_numeral 0)).read .absent (by simp) hr
    rwa [value_numeral, if_neg (by decide), Nat.cast_zero, ofRat_zero] at hread
  split
  · rename_i h0 hneg
    obtain ⟨q, hq, hround⟩ := strict_positiveText (by linarith : 0 < -x) h.neg
    have hread := hq.read .minus (by decide) hr
    rw [if_pos rfl, ofRat_neg, hround] at hread
    change _ = some (finite (- -x), rest) at hread
    rwa [neg_neg] at hread
  · rename_i h0 hneg
    obtain ⟨q, hq, hround⟩ := strict_positiveText (lt_of_le_of_ne (not_lt.1 hneg) (Ne.symm h0)) h
    have hread := hq.read .absent (by simp) hr
    rwa [if_neg (by decide), hround] at hread

end Numeral

end Adventure
