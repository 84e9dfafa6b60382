import Adventure.Number.Basic
/-!
# Which operations have a value

A sum, a difference or a minimum of numbers that have a value has one again, as long as no infinity
meets its opposite. On numbers with a value the two comparisons exclude each other and leave no gap,
so "at most zero" and "above zero" are the two halves of every stored hit point count.
-/

namespace Adventure.Number

theorem ofRat_ne_nan (x : Rat) : ofRat x ≠ nan := by
  unfold ofRat
  split
  · simp
  · dsimp only
    split
    · simp
    · split <;> simp

/-- An integer is a rational value. -/
theorem eq_finite_of_isInteger {x : Number} (h : x.isInteger = true) : ∃ q, x = finite q := by
  cases x with
  | nan => simp [isInteger] at h
  | infinity _ => simp [isInteger] at h
  | finite q => exact ⟨q, rfl⟩

theorem add_finite_ne_nan {x : Number} (hx : x ≠ nan) (y : Rat) : x + finite y ≠ nan := by
  cases x with
  | nan => exact absurd rfl hx
  | infinity s => exact fun h => by cases h
  | finite x => exact ofRat_ne_nan (x + y)

theorem sub_finite_ne_nan {x : Number} (hx : x ≠ nan) (y : Rat) : x - finite y ≠ nan :=
  add_finite_ne_nan hx (-y)

theorem min_ne_nan {x y : Number} (hx : x ≠ nan) (hy : y ≠ nan) : min x y ≠ nan := by
  unfold min
  split
  · exact absurd rfl hx
  · exact absurd rfl hy
  · split
    · exact hy
    · exact hx

/-! ## Order -/

theorem finite_le_finite {x y : Rat} : finite x ≤ finite y ↔ x ≤ y := decide_eq_true_iff

theorem finite_lt_finite {x y : Rat} : finite x < finite y ↔ x < y := decide_eq_true_iff

theorem intCast_le_intCast {a b : Int} : finite a ≤ finite b ↔ a ≤ b :=
  finite_le_finite.trans Rat.intCast_le_intCast

theorem intCast_lt_intCast {a b : Int} : finite a < finite b ↔ a < b :=
  finite_lt_finite.trans Rat.intCast_lt_intCast

theorem zero_lt_intCast {z : Int} : (0 : Number) < finite z ↔ 0 < z := intCast_lt_intCast (a := 0)

theorem intCast_lt_zero {z : Int} : finite z < (0 : Number) ↔ z < 0 := intCast_lt_intCast (b := 0)

protected theorem lt_or_eq_of_le {x y : Number} (h : x ≤ y) : x < y ∨ x = y := by
  cases x with
  | nan => cases h
  | infinity s => cases y with
    | nan => cases h
    | infinity t => cases s <;> cases t <;> first | exact .inr rfl | exact .inl rfl | cases h
    | finite y => exact .inl h
  | finite x => cases y with
    | nan => cases h
    | infinity t => exact .inl h
    | finite y =>
      rcases Rat.le_iff_lt_or_eq.1 (finite_le_finite.1 h) with hlt | rfl
      · exact .inl (finite_lt_finite.2 hlt)
      · exact .inr rfl

protected theorem le_trans {x y z : Number} (hxy : x ≤ y) (hyz : y ≤ z) : x ≤ z := by
  change atMost x z = true
  change atMost x y = true at hxy
  change atMost y z = true at hyz
  cases x <;> cases y <;> cases z <;> simp_all [atMost]
  case infinity.infinity.infinity => rcases hxy with rfl | rfl <;> simp_all
  case finite.finite.finite => exact Rat.le_trans hxy hyz

/-- On numbers with a value, "above" is the negation of "at most". -/
theorem not_le_iff_lt {x y : Number} (hx : x ≠ nan) (hy : y ≠ nan) : ¬ x ≤ y ↔ y < x := by
  change ¬ atMost x y = true ↔ less y x = true
  cases x with
  | nan => exact absurd rfl hx
  | infinity s => cases y with
    | nan => exact absurd rfl hy
    | infinity t => cases s <;> cases t <;> decide
    | finite y => cases s <;> simp [atMost, less]
  | finite x => cases y with
    | nan => exact absurd rfl hy
    | infinity t => cases t <;> simp [atMost, less]
    | finite y => simp only [atMost, less, decide_eq_true_iff, Rat.not_le]

theorem ne_nan_of_le {x y : Number} (h : x ≤ y) : x ≠ nan ∧ y ≠ nan := by
  constructor <;> rintro rfl
  · cases h
  · cases x <;> cases h

protected theorem le_refl {x : Number} (hx : x ≠ nan) : x ≤ x := by
  cases x with
  | nan => exact absurd rfl hx
  | infinity s => cases s <;> rfl
  | finite x => exact finite_le_finite.2 Rat.le_refl

protected theorem le_of_lt {x y : Number} (h : x < y) : x ≤ y := by
  cases x with
  | nan => cases h
  | infinity s => cases y with
    | nan => cases h
    | infinity t => cases s <;> cases t <;> first | rfl | cases h
    | finite y => exact h
  | finite x => cases y with
    | nan => cases h
    | infinity t => exact h
    | finite y => exact finite_le_finite.2 (Rat.le_of_lt (finite_lt_finite.1 h))

/-! ## The smaller of two numbers -/

theorem min_eq {x y : Number} (hx : x ≠ nan) (hy : y ≠ nan) :
    min x y = if y < x then y else x := by
  cases x with
  | nan => exact absurd rfl hx
  | infinity s => cases y with
    | nan => exact absurd rfl hy
    | _ => rfl
  | finite x => cases y with
    | nan => exact absurd rfl hy
    | _ => rfl

protected theorem min_le_left {x y : Number} (hx : x ≠ nan) (hy : y ≠ nan) : min x y ≤ x := by
  rw [min_eq hx hy]
  split
  · exact Number.le_of_lt ‹_›
  · exact Number.le_refl hx

protected theorem min_eq_left {x y : Number} (h : x ≤ y) : min x y = x := by
  obtain ⟨hx, hy⟩ := ne_nan_of_le h
  rw [min_eq hx hy, if_neg fun hlt => (not_le_iff_lt hx hy).2 hlt h]

protected theorem le_min {x y z : Number} (hx : z ≤ x) (hy : z ≤ y) : z ≤ min x y := by
  rw [min_eq (ne_nan_of_le hx).2 (ne_nan_of_le hy).2]
  split
  · exact hy
  · exact hx

end Adventure.Number
