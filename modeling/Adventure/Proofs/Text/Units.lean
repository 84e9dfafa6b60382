import Adventure.Text.Units
/-!
# Texts and their units

Writing a text in units and reading the units gives the text back, since no character is a
surrogate.
-/

namespace Adventure.Text

theorem toNat_valid (c : Char) : c.toNat < 0xD800 ∨ 0xDFFF < c.toNat ∧ c.toNat < 0x110000 := by
  have h := c.valid
  unfold UInt32.isValidChar Nat.isValidChar at h
  exact h

/-- A character within sixteen bits is read from its unit. -/
theorem lone_toNat {c : Char} (h : c.toNat < 0x10000) : lone c.toNat = c := by
  have hv := toNat_valid c
  have hs : (isHighSurrogate c.toNat || isLowSurrogate c.toNat) = false := by
    simp only [isHighSurrogate, isLowSurrogate, Bool.or_eq_false_iff, Bool.and_eq_false_iff,
      decide_eq_false_iff_not]
    omega
  rw [lone, hs, if_neg (by simp), Char.ofNat_toNat]

theorem ofUnits_cons {n : Nat} (h : isHighSurrogate n = false) (us : List Nat) :
    ofUnits (n :: us) = lone n :: ofUnits us := by
  cases us with
  | nil => rfl
  | cons m rest => simp [ofUnits, h]

/-- The units of a text are the text again. -/
theorem ofUnits_units (cs : List Char) : ofUnits (units cs) = cs := by
  induction cs with
  | nil => rfl
  | cons c cs ih =>
    have hv := toNat_valid c
    rw [units, List.flatMap_cons, ← units, charUnits]
    split
    · rename_i h
      have hs : isHighSurrogate c.toNat = false := by
        simp only [isHighSurrogate, Bool.and_eq_false_iff, decide_eq_false_iff_not]
        omega
      rw [List.singleton_append, ofUnits_cons hs, ih, lone_toNat h]
    · rename_i h
      have hhigh : isHighSurrogate (0xD800 + (c.toNat - 0x10000) / 0x400) = true := by
        simp only [isHighSurrogate, Bool.and_eq_true, decide_eq_true_eq]
        omega
      have hlow : isLowSurrogate (0xDC00 + (c.toNat - 0x10000) % 0x400) = true := by
        simp only [isLowSurrogate, Bool.and_eq_true, decide_eq_true_eq]
        omega
      have hback : 0x10000 + (0xD800 + (c.toNat - 0x10000) / 0x400 - 0xD800) * 0x400 +
          (0xDC00 + (c.toNat - 0x10000) % 0x400 - 0xDC00) = c.toNat := by
        omega
      simp only [List.cons_append, List.nil_append, ofUnits, hhigh, hlow, Bool.and_self, if_true, ih,
        hback, Char.ofNat_toNat]

end Adventure.Text
