import Adventure.Proofs.Number.Order
import Adventure.Story.Character
/-!
# What a turn does to a character

`apply_eq_done` takes a turn apart into its three stages: the climb, the hit points, the items. Two
things follow for every bundle of changes. Who the character is, and what it carries, depend on the
items alone (`apply_id`, `apply_inventory`). And hit points that have a value keep one
(`apply_measured`), so a character is either depleted or alive after every turn.
-/

namespace Adventure.Character

/-! ## The climb -/

variable {P : Character → Prop}

/-- What leaving one level keeps, the whole climb keeps. -/
theorem climb?_keeps (hstep : ∀ c, c.canLeave → P c → P c.leaveLevel) (n : Nat)
    {c d : Character} {events : List Event} (h : climb? n c = some (d, events)) (hc : P c) :
    P d := by
  induction n generalizing c events with
  | zero =>
    unfold climb? at h
    split at h
    · cases h
    · cases h
      exact hc
  | succ n ih =>
    unfold climb? at h
    split at h
    · rename_i hleave
      obtain ⟨⟨e, rest⟩, hr, he⟩ := Option.map_eq_some_iff.1 h
      cases he
      exact ih hr (hstep c hleave hc)
    · cases h
      exact hc

/-- The climb goes on for as long as the experience allows it. -/
theorem climb?_stops (n : Nat) {c d : Character} {events : List Event}
    (h : climb? n c = some (d, events)) : ¬ d.canLeave := by
  induction n generalizing c events with
  | zero =>
    unfold climb? at h
    split at h
    · cases h
    · rename_i hstay
      cases h
      exact hstay
  | succ n ih =>
    unfold climb? at h
    split at h
    · obtain ⟨⟨e, rest⟩, hr, he⟩ := Option.map_eq_some_iff.1 h
      cases he
      exact ih hr
    · rename_i hstay
      cases h
      exact hstay

/-- Who cannot leave the level stays on it. -/
theorem climb?_of_not_canLeave {c : Character} (h : ¬ c.canLeave) (n : Nat) :
    climb? n c = some (c, []) := by
  cases n <;> rw [climb?, if_neg h]

/-- A climb ends if something is used up with every level. -/
theorem exists_climb? {rank : Character → Nat}
    (hstep : ∀ c, c.canLeave → P c → P c.leaveLevel ∧ rank c.leaveLevel < rank c) {n : Nat}
    {c : Character} (hc : P c) (hn : rank c ≤ n) : ∃ d events, climb? n c = some (d, events) := by
  induction n generalizing c with
  | zero =>
    have hstay : ¬ c.canLeave := by
      intro hleave
      have := (hstep c hleave hc).2
      omega
    exact ⟨c, [], by rw [climb?, if_neg hstay]⟩
  | succ n ih =>
    unfold climb?
    split
    · rename_i hleave
      obtain ⟨hnext, hless⟩ := hstep c hleave hc
      obtain ⟨d, events, hd⟩ := ih hnext (by omega)
      exact ⟨d, _, by rw [hd, Option.map_some]⟩
    · exact ⟨c, [], rfl⟩

theorem advance_keeps (hstep : ∀ c, P c → P c.leaveLevel)
    (hadd : ∀ c amount, P c → P (c.addExperience amount)) {c d : Character} {amount : Number}
    {events : List Event} (h : c.advance amount = some (d, events)) (hc : P c) : P d := by
  unfold advance at h
  split at h
  · exact climb?_keeps (fun c _ => hstep c) longestClimb h (hadd c amount hc)
  · cases h
    exact hc

/-- Who a character is and what it carries. -/
def belongings (c : Character) : String × String × List String := (c.id, c.name, c.inventory)

theorem belongings_advance {c d : Character} {amount : Number} {events : List Event}
    (h : c.advance amount = some (d, events)) : d.belongings = c.belongings :=
  advance_keeps (P := fun d => d.belongings = c.belongings) (fun _ hd => hd) (fun _ _ hd => hd) h
    rfl

@[simp] theorem belongings_changeHp (c : Character) (change : Number) :
    (c.changeHp change).belongings = c.belongings := by
  unfold changeHp
  split
  · rfl
  · split <;> rfl

@[simp] theorem belongings_sufferDamage (c : Character) (damage : Number) :
    (c.sufferDamage damage).belongings = c.belongings := by
  unfold sufferDamage
  split <;> rfl

/-- To lose nothing and not to go through the inventory is the same. -/
theorem inventory_changeItems (c : Character) (changes : Changes) :
    (c.changeItems changes).inventory =
      Collection.lose (Collection.gain c.inventory changes.itemsGained) changes.itemsLost := by
  unfold changeItems
  split
  · rename_i h
    rw [List.isEmpty_iff.1 h, Collection.lose_nil]
  · rfl

/-! ## The whole turn -/

theorem checkSelfDamage_eq_ok {v : Value} {damage : Number} :
    checkSelfDamage v = .ok damage ↔ v = .number damage ∧ damage.isIntegerFrom 0 = true := by
  cases v with
  | number x =>
    simp only [checkSelfDamage]
    split
    · rename_i hx
      simp only [Except.ok.injEq, Value.number.injEq]
      constructor
      · rintro rfl
        exact ⟨rfl, hx⟩
      · exact fun h => h.1
    · rename_i hx
      simp only [reduceCtorEq, Value.number.injEq, false_iff, not_and]
      rintro rfl
      exact hx
  | _ => simp [checkSelfDamage]

/-- **A turn of a character, stage by stage**: the climb, then the hit points, then the items. -/
theorem apply_eq_done {c after : Character} {changes : Changes} {selfDamage : Value}
    {events : List Event} :
    c.apply changes selfDamage = .done (after, events) ↔ ∃ damage risen,
      checkSelfDamage selfDamage = .ok damage ∧
      c.advance changes.experienceGained = some (risen, events) ∧
      after = ((risen.changeHp changes.hpChange).sufferDamage damage).changeItems changes := by
  unfold apply
  cases checkSelfDamage selfDamage with
  | error f => simp
  | ok damage =>
    cases c.advance changes.experienceGained with
    | none => simp
    | some r =>
      obtain ⟨risen, climbs⟩ := r
      simp only [Outcome.done.injEq, Prod.mk.injEq, Except.ok.injEq, Option.some.injEq]
      constructor
      · rintro ⟨rfl, rfl⟩
        exact ⟨damage, risen, rfl, ⟨rfl, rfl⟩, rfl⟩
      · rintro ⟨_, _, rfl, ⟨rfl, rfl⟩, rfl⟩
        exact ⟨rfl, rfl⟩

/-- Only the climb can fail to end. -/
theorem apply_eq_endless {c : Character} {changes : Changes} {selfDamage : Value}
    (h : c.apply changes selfDamage = .endless) : c.advance changes.experienceGained = none := by
  unfold apply at h
  split at h
  · cases h
  · split at h
    · assumption
    · cases h

section
variable {c after : Character} {changes : Changes} {selfDamage : Value} {events : List Event}

/-- After a turn only the items of the bundle tell the belongings from those before. -/
theorem apply_belongings (h : c.apply changes selfDamage = .done (after, events)) :
    after.belongings = (c.changeItems changes).belongings := by
  obtain ⟨damage, risen, -, hr, rfl⟩ := apply_eq_done.1 h
  have hb : ((risen.changeHp changes.hpChange).sufferDamage damage).belongings = c.belongings := by
    rw [belongings_sufferDamage, belongings_changeHp, belongings_advance hr]
  simp only [belongings, Prod.mk.injEq] at hb
  simp only [belongings, changeItems, hb]

theorem apply_id (h : c.apply changes selfDamage = .done (after, events)) : after.id = c.id :=
  congrArg Prod.fst (apply_belongings h)

theorem apply_inventory (h : c.apply changes selfDamage = .done (after, events)) :
    after.inventory =
      Collection.lose (Collection.gain c.inventory changes.itemsGained) changes.itemsLost :=
  (congrArg (fun b => b.2.2) (apply_belongings h)).trans (inventory_changeItems c changes)

end

/-! ## Hit points with a value -/

/-- Both hit point counts have a value, which columns of integers always do. -/
structure Measured (c : Character) : Prop where
  hp : c.hp ≠ .nan
  maxHp : c.maxHp ≠ .nan

namespace Measured

theorem leaveLevel {c : Character} (h : c.Measured) : c.leaveLevel.Measured :=
  ⟨Number.add_finite_ne_nan h.maxHp 10, Number.add_finite_ne_nan h.maxHp 10⟩

theorem advance {c d : Character} {amount : Number} {events : List Event}
    (hd : c.advance amount = some (d, events)) (h : c.Measured) : d.Measured :=
  advance_keeps (fun _ hc => hc.leaveLevel) (fun _ _ hc => ⟨hc.hp, hc.maxHp⟩) hd h

theorem takeDamage {c : Character} (h : c.Measured) (q : Rat) :
    (c.takeDamage (.finite q)).Measured :=
  ⟨Number.sub_finite_ne_nan h.hp q, h.maxHp⟩

theorem changeHp {c : Character} {change : Number} (hi : change.isInteger = true) (h : c.Measured) :
    (c.changeHp change).Measured := by
  obtain ⟨q, rfl⟩ := Number.eq_finite_of_isInteger hi
  unfold Character.changeHp
  split
  · exact ⟨Number.min_ne_nan h.maxHp (Number.add_finite_ne_nan h.hp q), h.maxHp⟩
  · split
    · exact h.takeDamage (-q)
    · exact h

theorem sufferDamage {c : Character} {damage : Number} (hi : damage.isInteger = true)
    (h : c.Measured) : (c.sufferDamage damage).Measured := by
  obtain ⟨q, rfl⟩ := Number.eq_finite_of_isInteger hi
  unfold Character.sufferDamage
  split
  · exact h.takeDamage q
  · exact h

/-- A measured character that is not depleted is alive. -/
theorem pos_of_not_depleted {c : Character} (h : c.Measured) (hd : c.isDepleted = false) :
    0 < c.hp := by
  refine (Number.not_le_iff_lt h.hp (by simp [OfNat.ofNat])).1 fun hle => ?_
  simp only [isDepleted, decide_eq_false_iff_not] at hd
  exact hd hle

end Measured

/-- Hit points with a value keep one through a turn. -/
theorem apply_measured {c after : Character} {changes : Changes} {selfDamage : Value}
    {events : List Event} (h : c.apply changes selfDamage = .done (after, events))
    (hi : changes.hpChange.isInteger = true) (hc : c.Measured) : after.Measured := by
  obtain ⟨damage, risen, hd, hr, rfl⟩ := apply_eq_done.1 h
  have hdi : damage.isInteger = true := by
    have := (checkSelfDamage_eq_ok.1 hd).2
    simp only [Number.isIntegerFrom, Bool.and_eq_true] at this
    exact this.1
  have hm := ((hc.advance hr).changeHp hi).sufferDamage hdi
  exact ⟨hm.hp, hm.maxHp⟩

end Adventure.Character
