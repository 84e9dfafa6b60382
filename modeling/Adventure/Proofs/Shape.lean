import Adventure.Proofs.Number.Rounding
import Adventure.Shape
/-!
# What a passed check says

A check of a dynamic value that passes determines the value: each combinator of `Shape` has an
equivalence that opens it, so that later proofs read off the parts of a checked record and never
unfold a check. What a check finds wrong is put together from its parts in the same way
(`issues_both`, `issues_fieldOf`, `issues_number`).
-/

namespace Adventure.Shape

variable {α β : Type}

theorem bind_eq_ok {ε : Type} {x : Except ε α} {f : α → Except ε β} {b : β} :
    (x >>= f) = .ok b ↔ ∃ a, x = .ok a ∧ f a = .ok b := by
  cases x <;> simp [bind, Except.bind]

theorem pure_eq_ok {ε : Type} {a b : α} : (pure a : Except ε α) = .ok b ↔ a = b := by
  simp [pure, Except.pure]

theorem map_eq_ok {ε : Type} {x : Except ε α} {f : α → β} {b : β} :
    x.map f = .ok b ↔ ∃ a, x = .ok a ∧ f a = b := by
  cases x <;> simp [Except.map]

theorem both_eq_ok {p : Checked α} {q : Checked β} {r : α × β} :
    both p q = .ok r ↔ p = .ok r.1 ∧ q = .ok r.2 := by
  obtain ⟨a, b⟩ := r
  cases p <;> cases q <;> simp [both]

theorem under_eq_ok {key : String} {p : Checked α} {a : α} : under key p = .ok a ↔ p = .ok a := by
  cases p <;> simp [under]

theorem fieldOf_eq_ok {fields : Fields} {key : String} {check : Value → Checked α} {a : α} :
    fieldOf fields key check = .ok a ↔ check (Fields.get fields key) = .ok a := under_eq_ok

theorem object_eq_ok {v : Value} {fields : Fields} :
    object v = .ok fields ↔ v = .object fields := by
  cases v <;> simp [object, refuse]

/-- A number passes just when it has a value and meets every demand. -/
theorem number_eq_ok {demands : List Demand} {v : Value} {x : Number} :
    number demands v = .ok x ↔
      v = .number x ∧ x ≠ .nan ∧ ∀ d ∈ demands, d.problem? x = none := by
  cases v with
  | number y =>
    by_cases hy : y = .nan
    · subst hy
      simp only [number, refuse, reduceCtorEq, Value.number.injEq, false_iff, not_and]
      rintro rfl h
      exact absurd rfl h
    · unfold number
      split
      · rename_i h
        cases h
        exact absurd rfl hy
      · rename_i z h hz
        cases hz
        cases hp : demands.filterMap (Demand.problem? y) with
        | nil =>
          simp only [List.filterMap_eq_nil_iff] at hp
          simp only [Except.ok.injEq, Value.number.injEq]
          constructor
          · rintro rfl
            exact ⟨rfl, hy, hp⟩
          · exact fun h => h.1
        | cons p ps =>
          simp only [reduceCtorEq, Value.number.injEq, false_iff, not_and]
          rintro rfl _ hall
          rw [List.filterMap_eq_nil_iff.2 hall] at hp
          cases hp
      · rename_i h
        exact absurd rfl (h y)
  | _ => simp [number, refuse]

/-- The demand for an integer is met by integers only. -/
theorem isInteger_of_number {demands : List Demand} {v : Value} {x : Number}
    (h : number demands v = .ok x) (hd : .integer ∈ demands) : x.isInteger = true := by
  have hp := (number_eq_ok.1 h).2.2 _ hd
  simp only [Demand.problem?] at hp
  split at hp
  · assumption
  · cases hp

/-! ## Demands -/

theorem problem?_integer {x : Number} :
    Demand.integer.problem? x = none ↔ ∃ z : Int, x = .finite z := by
  rw [← Number.isInteger_iff]
  simp [Demand.problem?]

theorem problem?_atLeast {x : Rat} {n : Nat} :
    (Demand.atLeast n).problem? (.finite x) = none ↔ (n : Rat) ≤ x := by
  have hlt : Number.finite x < Number.ofNat n ↔ x < n := Number.finite_lt_finite
  simp [Demand.problem?, hlt]

theorem problem?_moreThan {x : Rat} {n : Nat} :
    (Demand.moreThan n).problem? (.finite x) = none ↔ (n : Rat) < x := by
  have hle : Number.finite x ≤ Number.ofNat n ↔ x ≤ n := Number.finite_le_finite
  simp [Demand.problem?, hle]

theorem problem?_atMost {x : Rat} {n : Nat} :
    (Demand.atMost n).problem? (.finite x) = none ↔ x ≤ (n : Rat) := by
  have hlt : Number.ofNat n < Number.finite x ↔ n < x := Number.finite_lt_finite
  simp [Demand.problem?, hlt]

/-- An integer that meets further demands. -/
theorem number_integer_eq_ok {demands : List Demand} {v : Value} {x : Number} :
    number (.integer :: demands) v = .ok x ↔
      ∃ z : Int, v = .number x ∧ x = .finite z ∧ ∀ d ∈ demands, d.problem? x = none := by
  rw [number_eq_ok]
  simp only [List.forall_mem_cons, problem?_integer]
  constructor
  · rintro ⟨hv, -, ⟨z, rfl⟩, hrest⟩
    exact ⟨z, hv, rfl, hrest⟩
  · rintro ⟨z, hv, rfl, hrest⟩
    exact ⟨hv, by simp, ⟨z, rfl⟩, hrest⟩

/-- A value between two bounds; no infinity lies there. -/
theorem number_between_eq_ok {m n : Nat} {v : Value} {x : Number} :
    number [.atLeast m, .atMost n] v = .ok x ↔
      v = .number x ∧ ∃ q : Rat, x = .finite q ∧ (m : Rat) ≤ q ∧ q ≤ n := by
  rw [number_eq_ok]
  refine and_congr_right fun _ => ?_
  simp only [List.forall_mem_cons, List.not_mem_nil, false_implies, implies_true, and_true]
  cases x with
  | nan => simp
  | infinity negative =>
    have hout : ¬ ((Demand.atLeast m).problem? (.infinity negative) = none ∧
        (Demand.atMost n).problem? (.infinity negative) = none) := by
      cases negative
      · exact fun h => by cases h.2
      · exact fun h => by cases h.1
    simp [hout]
  | finite q =>
    simp only [problem?_atLeast, problem?_atMost, Number.finite.injEq, exists_eq_left', ne_eq,
      reduceCtorEq, not_false_eq_true, true_and]

/-! ## The parts of a bundle -/

theorem integer_eq_ok {v : Value} {x : Number} :
    number [.integer] v = .ok x ↔ ∃ z : Int, x = .finite z ∧ v = .number (.finite z) := by
  rw [number_integer_eq_ok]
  constructor
  · rintro ⟨z, rfl, rfl, -⟩
    exact ⟨z, rfl, rfl⟩
  · rintro ⟨z, rfl, rfl⟩
    exact ⟨z, rfl, rfl, by simp⟩

theorem natural_eq_ok {v : Value} {x : Number} :
    number [.integer, .atLeast 0] v = .ok x ↔
      ∃ n : Nat, x = .finite n ∧ v = .number (.finite n) := by
  rw [number_integer_eq_ok]
  simp only [List.forall_mem_singleton]
  constructor
  · rintro ⟨z, rfl, rfl, hlow⟩
    have hpos : (0 : Int) ≤ z := by exact_mod_cast problem?_atLeast.1 hlow
    obtain ⟨n, rfl⟩ := Int.eq_ofNat_of_zero_le hpos
    exact ⟨n, rfl, rfl⟩
  · rintro ⟨n, rfl, rfl⟩
    exact ⟨n, rfl, rfl, problem?_atLeast.2 (by positivity)⟩

theorem positive_eq_ok {v : Value} {x : Number} :
    number [.integer, .moreThan 0] v = .ok x ↔
      ∃ n : Nat, x = .finite n ∧ v = .number (.finite n) ∧ 1 ≤ n := by
  rw [number_integer_eq_ok]
  simp only [List.forall_mem_singleton]
  constructor
  · rintro ⟨z, rfl, rfl, hlow⟩
    have hpos : (0 : Int) < z := by exact_mod_cast problem?_moreThan.1 hlow
    obtain ⟨n, rfl⟩ := Int.eq_ofNat_of_zero_le hpos.le
    exact ⟨n, rfl, rfl, by exact_mod_cast hpos⟩
  · rintro ⟨n, rfl, rfl, hn⟩
    exact ⟨n, rfl, rfl, problem?_moreThan.2 (by exact_mod_cast hn)⟩

theorem text_eq_ok {v : Value} {s : String} : text v = .ok s ↔ v = .string s := by
  cases v <;> simp [text, refuse]

theorem eq_texts_of_itemsFrom {i : Nat} {items : List Value} {ts : List String}
    (h : itemsFrom text i items = .ok ts) : items = ts.map .string := by
  induction items generalizing i ts with
  | nil =>
    cases h
    rfl
  | cons v rest ih =>
    obtain ⟨⟨s, ss⟩, hboth, rfl⟩ := map_eq_ok.1 h
    obtain ⟨hs, hss⟩ := both_eq_ok.1 hboth
    rw [List.map_cons, text_eq_ok.1 (under_eq_ok.1 hs), ih hss]

theorem itemsFrom_texts (i : Nat) (items : List String) :
    itemsFrom text i (items.map .string) = .ok items := by
  induction items generalizing i with
  | nil => rfl
  | cons s items ih => simp [itemsFrom, text, under, ih, both, Except.map]

theorem textList_texts (items : List String) : textList (.texts items) = .ok items :=
  itemsFrom_texts 0 items

theorem textOrNull_ofText? (s : Option String) : textOrNull (.ofText? s) = .ok s := by
  cases s <;> rfl

theorem textList_eq_ok {v : Value} {ts : List String} : textList v = .ok ts ↔ v = .texts ts := by
  constructor
  · intro h
    cases v with
    | array items => exact congrArg Value.array (eq_texts_of_itemsFrom h)
    | _ => cases h
  · rintro rfl
    exact textList_texts ts

theorem textOrNull_eq_ok {v : Value} {t : Option String} :
    textOrNull v = .ok t ↔ v = .ofText? t := by
  constructor
  · intro h
    cases v with
    | null =>
      cases h
      rfl
    | string s =>
      cases h
      rfl
    | _ => cases h
  · rintro rfl
    exact textOrNull_ofText? t

/-! ## All that is wrong -/

/-- Everything that a check finds wrong. -/
def issues : Checked α → List Issue
  | .ok _ => []
  | .error found => found

theorem issues_both (p : Checked α) (q : Checked β) : issues (both p q) = issues p ++ issues q := by
  cases p <;> cases q <;> simp [both, issues]

theorem issues_map (f : α → β) (p : Checked α) : issues (p.map f) = issues p := by
  cases p <;> rfl

theorem issues_fieldOf (fields : Fields) (key : String) (check : Value → Checked α) :
    issues (fieldOf fields key check) =
      (issues (check (Fields.get fields key))).map fun i => { i with path := key :: i.path } := by
  unfold fieldOf
  cases check (Fields.get fields key) <;> rfl

/-- The problems with a value that is to be a number. -/
def problems (demands : List Demand) (v : Value) : List Problem :=
  (issues (number demands v)).map Issue.problem

/-- What is wrong with a number is wrong with the value itself. -/
theorem issues_number (demands : List Demand) (v : Value) :
    issues (number demands v) = (problems demands v).map (⟨[], ·⟩) := by
  have hrefuse (p : Problem) : issues (refuse p : Checked Number) =
      ((issues (refuse p : Checked Number)).map Issue.problem).map (⟨[], ·⟩) := rfl
  unfold problems
  cases v with
  | number x =>
    unfold number
    split
    · exact hrefuse _
    · split
      · rfl
      · simp [issues, Function.comp_def]
    · exact hrefuse _
  | _ => exact hrefuse _

/-- A check that finds nothing wrong passes. -/
theorem problems_eq_nil {demands : List Demand} {v : Value} :
    problems demands v = [] ↔ ∃ x, number demands v = .ok x := by
  unfold problems
  cases h : number demands v with
  | ok x => simp [issues]
  | error found =>
    have hfound : found ≠ [] := by
      rintro rfl
      cases v with
      | number x =>
        unfold number at h
        split at h
        · cases h
        · split at h
          · cases h
          · rename_i hne
            exact hne (List.map_eq_nil_iff.1 (Except.error.inj h))
        · cases h
      | _ => cases h
    simp [issues, hfound]

end Adventure.Shape
