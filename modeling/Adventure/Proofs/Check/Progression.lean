import Adventure.Check.Progression
import Adventure.Proofs.Number.Rounding
/-!
# What every level is worth

The modifier of a level is an integer that is not negative, whatever the level: its formula divides
by four before anything can outgrow the numbers (`modifier_isIntegerFrom`). The faces of the damage
dice are one of five small numbers.
-/

namespace Adventure.Progression

open Number Binary64

theorem isLevel_intCast {level : Int} (h : 1 ≤ level) : isLevel (.finite level) :=
  (isIntegerFrom_iff (n := 1)).2 ⟨level, rfl, h⟩

/-- A quarter of a number leaves room for two more bits. -/
theorem quarter_le {x : Rat} (h : x < limit) : x * ((1 : Rat) / 4) ≤ (2 : Rat) ^ (1022 : Int) := by
  have hfour : limit = (2 : Rat) ^ (1022 : Int) * 4 := by
    rw [limit, show (1024 : Int) = 1022 + 2 by rfl, zpow_add₀ (by norm_num)]
    norm_num
  rw [mul_one_div, div_le_iff₀ (by norm_num), ← hfour]
  exact h.le

theorem add_two_le {x : Rat} (h : x ≤ (2 : Rat) ^ (1022 : Int)) :
    x + 2 ≤ (2 : Rat) ^ (1023 : Int) := by
  have htwo : (2 : Rat) ≤ (2 : Rat) ^ (1022 : Int) := by
    simpa using two_zpow_le (by omega : (1 : Int) ≤ 1022)
  calc x + 2 ≤ (2 : Rat) ^ (1022 : Int) + (2 : Rat) ^ (1022 : Int) := add_le_add h htwo
    _ = (2 : Rat) ^ (1023 : Int) := by
        rw [← mul_two]
        exact (zpow_add_one₀ (by norm_num) 1022).symm

/-- **Every level has a modifier**, also one that is rounded on the way. -/
theorem modifier_isIntegerFrom {level : Number} (hlevel : isLevel level) (hheld : level.Held) :
    (modifier level).isIntegerFrom 0 := by
  obtain ⟨l, rfl, hl⟩ := (isIntegerFrom_iff (n := 1)).1 hlevel
  have hl' : (1 : Rat) ≤ l := by exact_mod_cast hl
  obtain ⟨hkept, hlimit⟩ := hheld.kept (by linarith)
  -- One less than the level is not negative and not above the level, which rounding keeps.
  have hsub : (finite l : Number) - 1 = ofRat ((l : Rat) - 1) := by
    change ofRat _ = _
    rw [sub_eq_add_neg]
    norm_num
  obtain ⟨a, ha, ha0, hal, -⟩ :=
    ofRat_eq_finite (x := (l : Rat) - 1) (by linarith) (by linarith) hkept hlimit
  -- The quarter is rounded as well, and may be no integer.
  obtain ⟨b, hb, hb0, hbl, -⟩ := ofRat_eq_finite_of_le_zpow (k := 1022) (by positivity)
    (quarter_le (hal.trans_lt hlimit)) (by omega) (by omega)
  have hfloor : (0 : Rat) ≤ b.floor := by
    exact_mod_cast Rat.le_floor_iff.2 (by simpa using hb0)
  -- From its floor on everything is an integer.
  obtain ⟨c, hc, hc0, -, hci⟩ := ofRat_eq_finite_of_le_zpow (k := 1023) (by positivity)
    (add_two_le ((Rat.floor_le b).trans hbl)) (by omega) (by omega)
  have hmodifier : modifier (finite l) = finite c := by
    unfold modifier
    rw [hsub, ha]
    change Number.floor (ofRat (a * (1 / 4))) + 2 = _
    rw [hb]
    exact hc
  have hcint : c.den = 1 := hci (by rw [← Int.cast_ofNat, ← Int.cast_add]; exact Rat.den_intCast _)
  have hcn : ((c.num : Int) : Rat) = c := (Rat.den_eq_one_iff c).1 hcint
  rw [hmodifier]
  exact (isIntegerFrom_iff (n := 0)).2 ⟨c.num, by rw [hcn], Rat.num_nonneg.2 hc0⟩

/-- The damage dice have from one to twelve faces. -/
theorem damageFaces_eq (level : Number) :
    ∃ n : Nat, damageFaces level = finite n ∧ 1 ≤ n ∧ n ≤ 12 := by
  unfold damageFaces
  cases h : damageBands.find? fun band => level ≤ band.1 with
  | none => exact ⟨12, rfl, by omega, by omega⟩
  | some band =>
    have hm := List.mem_of_find?_eq_some h
    simp only [damageBands, List.mem_cons, List.not_mem_nil, or_false] at hm
    rcases hm with rfl | rfl | rfl | rfl
    · exact ⟨4, rfl, by omega, by omega⟩
    · exact ⟨6, rfl, by omega, by omega⟩
    · exact ⟨8, rfl, by omega, by omega⟩
    · exact ⟨10, rfl, by omega, by omega⟩

end Adventure.Progression
