import Adventure.Check.Resolution
import Adventure.Proofs.Number.Rounding
import Adventure.Proofs.Shape
/-!
# What resolutions are made of

Each part of a draft has a check of its own, which keeps the part as it is; the damage is measured
against the roll (`Hurts`). A resolution is created just if all parts pass, and then it is made of
them (`create_eq_ok`). Later proofs read its parts off this equivalence and never open `create`.
-/

namespace Adventure

/-! ## Categories -/

namespace Category

/-- Only the name of a category gives it. -/
theorem eq_of_ofValue? {v : Value} {c : Category} (h : ofValue? v = some c) :
    v = .string c.name := by
  cases v with
  | string s =>
    have hname := List.find?_some (h : ofName? s = some c)
    rw [beq_iff_eq] at hname
    rw [hname]
  | _ => cases h

/-- The four categories, by name. -/
theorem mem_names_iff {s : String} :
    s ∈ ["COMBAT", "SKILL", "SOCIAL", "EXPLORATION"] ↔ ∃ c : Category, s = c.name := by
  constructor
  · intro h
    simp only [List.mem_cons, List.not_mem_nil, or_false] at h
    rcases h with rfl | rfl | rfl | rfl
    · exact ⟨.combat, rfl⟩
    · exact ⟨.skill, rfl⟩
    · exact ⟨.social, rfl⟩
    · exact ⟨.exploration, rfl⟩
  · rintro ⟨c, rfl⟩
    cases c <;> simp [name]

end Category

namespace Resolution

variable {v : Value} {x roll modifier target : Number} {c : Category} {damage : Option Number}
  {label : Label} {d : Draft} {r : Resolution}

/-! ## The parts of a draft -/

/-- A number that is tested is kept as it is. -/
theorem test_eq_ok {p : Number → Bool} {y : Number} {f : Fault} :
    (if p y then Except.ok y else .error f) = .ok x ↔ y = x ∧ p x := by
  constructor
  · intro h
    split at h
    · cases h
      exact ⟨rfl, ‹_›⟩
    · cases h
  · rintro ⟨rfl, h⟩
    rw [if_pos h]

theorem checkRoll_eq_ok :
    checkRoll v = .ok x ↔ v = .number x ∧ x.isIntegerIn fumbleRoll criticalRoll := by
  cases v with
  | number y =>
    rw [Value.number.injEq]
    exact test_eq_ok (p := fun y => y.isIntegerIn fumbleRoll criticalRoll)
  | _ => simp [checkRoll]

theorem checkModifier_eq_ok : checkModifier v = .ok x ↔ v = .number x ∧ x.isIntegerFrom 0 := by
  cases v with
  | number y =>
    rw [Value.number.injEq]
    exact test_eq_ok (p := fun y => y.isIntegerFrom 0)
  | _ => simp [checkModifier]

theorem checkTarget_eq_ok : checkTarget v = .ok x ↔ v = .number x ∧ x.isIntegerFrom 1 := by
  cases v with
  | number y =>
    rw [Value.number.injEq]
    exact test_eq_ok (p := fun y => y.isIntegerFrom 1)
  | _ => simp [checkTarget]

theorem checkCategory_name (c : Category) : checkCategory (.string c.name) = .ok c := by
  cases c <;> rfl

theorem checkCategory_eq_ok : checkCategory v = .ok c ↔ v = .string c.name := by
  constructor
  · intro h
    unfold checkCategory at h
    split at h
    · cases h
      exact Category.eq_of_ofValue? ‹_›
    · cases h
  · rintro rfl
    exact checkCategory_name c

/-- The damage that a roll may have: none, or an integer that is not negative where the roll
hurts. -/
def Hurts (label : Resolution.Label) (damage : Option Number) : Prop :=
  if label.hurts then ∃ n : Int, 0 ≤ n ∧ damage = some (.finite n) else damage = none

theorem checkDamage_eq_ok :
    checkDamage label roll v = .ok damage ↔ v = .ofNumber? damage ∧ Hurts label damage := by
  constructor
  · intro h
    unfold checkDamage at h
    split at h
    · rename_i hhurts
      split at h
      · rename_i hinteger
        cases h
        obtain ⟨z, rfl, hz⟩ := (Number.isIntegerFrom_iff (n := 0)).1 hinteger
        rw [Hurts, if_pos hhurts]
        exact ⟨rfl, z, by omega, rfl⟩
      · cases h
    · cases h
    · rename_i hhurts
      cases h
      rw [Hurts, hhurts]
      exact ⟨rfl, rfl⟩
    · cases h
  · rintro ⟨rfl, h⟩
    unfold Hurts at h
    split at h
    · rename_i hhurts
      obtain ⟨n, hn, rfl⟩ := h
      have hinteger : Number.isIntegerFrom (.finite n) 0 = true :=
        (Number.isIntegerFrom_iff (n := 0)).2 ⟨n, rfl, by exact_mod_cast hn⟩
      simp [checkDamage, hhurts, Value.ofNumber?, hinteger]
    · rename_i hhurts
      rw [Bool.not_eq_true] at hhurts
      simp [checkDamage, hhurts, h, Value.ofNumber?]

/-! ## Creation -/

/-- **What is created**, and of what: every part of the draft passes its check and is kept. -/
theorem create_eq_ok : create d = .ok r ↔
    ∃ (roll modifier target : Number) (c : Category) (damage : Option Number),
      d = ⟨.number roll, .number modifier, .number target, .string c.name, .ofNumber? damage⟩ ∧
      roll.isIntegerIn fumbleRoll criticalRoll ∧ modifier.isIntegerFrom 0 ∧
      target.isIntegerFrom 1 ∧ Hurts (labelOf roll (roll + modifier) target) damage ∧
      r = ofParts roll modifier target c damage := by
  constructor
  · intro h
    obtain ⟨roll, hroll, h₁⟩ := Shape.bind_eq_ok.1 h
    obtain ⟨modifier, hmodifier, h₂⟩ := Shape.bind_eq_ok.1 h₁
    obtain ⟨target, htarget, h₃⟩ := Shape.bind_eq_ok.1 h₂
    obtain ⟨c, hcategory, h₄⟩ := Shape.bind_eq_ok.1 h₃
    obtain ⟨damage, hdamage, h₅⟩ := Shape.bind_eq_ok.1 h₄
    obtain ⟨hr, hroll⟩ := checkRoll_eq_ok.1 hroll
    obtain ⟨hm, hmodifier⟩ := checkModifier_eq_ok.1 hmodifier
    obtain ⟨ht, htarget⟩ := checkTarget_eq_ok.1 htarget
    have hc := checkCategory_eq_ok.1 hcategory
    obtain ⟨hd, hhurts⟩ := checkDamage_eq_ok.1 hdamage
    refine ⟨roll, modifier, target, c, damage, ?_, hroll, hmodifier, htarget, hhurts,
      (Shape.pure_eq_ok.1 h₅).symm⟩
    rw [← hr, ← hm, ← ht, ← hc, ← hd]
  · rintro ⟨roll, modifier, target, c, damage, rfl, hroll, hmodifier, htarget, hhurts, rfl⟩
    refine Shape.bind_eq_ok.2 ⟨roll, checkRoll_eq_ok.2 ⟨rfl, hroll⟩, ?_⟩
    refine Shape.bind_eq_ok.2 ⟨modifier, checkModifier_eq_ok.2 ⟨rfl, hmodifier⟩, ?_⟩
    refine Shape.bind_eq_ok.2 ⟨target, checkTarget_eq_ok.2 ⟨rfl, htarget⟩, ?_⟩
    refine Shape.bind_eq_ok.2 ⟨c, checkCategory_eq_ok.2 rfl, ?_⟩
    exact Shape.bind_eq_ok.2 ⟨damage, checkDamage_eq_ok.2 ⟨rfl, hhurts⟩, rfl⟩

/-- Parts that fit together make a resolution. -/
theorem create_ofParts (hroll : roll.isIntegerIn fumbleRoll criticalRoll)
    (hmodifier : modifier.isIntegerFrom 0) (htarget : target.isIntegerFrom 1)
    (hdamage : Hurts (labelOf roll (roll + modifier) target) damage) :
    create ⟨.number roll, .number modifier, .number target, .string c.name, .ofNumber? damage⟩ =
      .ok (ofParts roll modifier target c damage) :=
  create_eq_ok.2 ⟨roll, modifier, target, c, damage, rfl, hroll, hmodifier, htarget, hdamage, rfl⟩

theorem ofNumber?_injective : Function.Injective Value.ofNumber? := by
  intro x y h
  cases x <;> cases y <;> simp_all [Value.ofNumber?]

/-- What a resolution was created from. -/
theorem of_create {category : Value}
    (h : create ⟨.number roll, .number modifier, .number target, category, .ofNumber? damage⟩ =
      .ok r) : ∃ c, r = ofParts roll modifier target c damage := by
  obtain ⟨_, _, _, c, _, hdraft, -, -, -, -, rfl⟩ := create_eq_ok.1 h
  rw [Draft.mk.injEq, Value.number.injEq, Value.number.injEq, Value.number.injEq] at hdraft
  obtain ⟨rfl, rfl, rfl, -, hdamage⟩ := hdraft
  exact ⟨c, by rw [ofNumber?_injective hdamage]⟩

end Resolution

end Adventure
