import Adventure.Proofs.Story.Experience
/-!
# Gains of experience

Experience that is gained in two parts is gained as one sum (`gainExperience_gainExperience`): the
same character in every part, and the same notes of the levels on the way. A climb with more
experience begins as the climb with less does, level by level (`climb?_addExperience`), since a level
takes the same experience whether or not more of it is left; and where the climb with less ends, the
other goes on with what is left over and the rest.
-/

namespace Adventure.Character

variable {c d e : Character} {events rest : List Event} {n m : Nat} {l x t : Int} {a b : Nat}

/-- More steps than a climb takes change nothing. -/
theorem climb?_mono (h : climb? n c = some (d, events)) (hm : n ≤ m) :
    climb? m c = some (d, events) := by
  induction n generalizing m c events with
  | zero =>
    rw [climb?] at h
    split at h
    · cases h
    · rename_i hstay
      rw [climb?_of_not_canLeave hstay, h]
  | succ n ih =>
    obtain ⟨m, rfl⟩ : ∃ k, m = k + 1 := ⟨m - 1, by omega⟩
    rw [climb?] at h
    split at h
    · rename_i hleave
      obtain ⟨⟨d', events'⟩, hd, he⟩ := Option.map_eq_some_iff.1 h
      cases he
      rw [climb?, if_pos hleave, ih hd (by omega), Option.map_some]
    · rename_i hstay
      rw [climb?_of_not_canLeave hstay, h]

/-- A character that has climbed stands on a level, with no more experience on it than before. -/
theorem Stands.of_climb? (h : c.Stands l x) (hd : climb? n c = some (d, events)) :
    ∃ k y, d.Stands k y ∧ y ≤ x := by
  refine climb?_keeps (P := fun d => ∃ k y, d.Stands k y ∧ y ≤ x) ?_ n hd ⟨_, _, h, le_rfl⟩
  rintro d hleave ⟨k, y, hy, hle⟩
  have hpos := hy.level_pos
  exact ⟨_, _, hy.leaveLevel hleave, by omega⟩

/-! ## More experience -/

theorem Stands.addExperience (h : c.Stands l x) (hsmall : x + b < 2 ^ 53) :
    (c.addExperience (.finite b)).Stands l (x + b) := by
  have hlow := h.low
  refine ⟨h.level_eq, ?_, h.level_pos, by omega, hsmall⟩
  change c.currentExperience + .finite b = _
  rw [h.current_eq]
  exact Number.add_intCast (b := b) (by omega)

/-- It makes no difference whether more experience comes before or after a level. -/
theorem Stands.leaveLevel_addExperience (h : c.Stands l x) (hc : c.canLeave)
    (hsmall : x + b < 2 ^ 53) :
    (c.addExperience (.finite b)).leaveLevel = c.leaveLevel.addExperience (.finite b) := by
  have hl := h.canLeave_iff.1 hc
  have hpos := h.level_pos
  have hmore := h.addExperience hsmall
  have hcurrent : (c.addExperience (.finite b)).leaveLevel.currentExperience =
      (c.leaveLevel.addExperience (.finite b)).currentExperience := by
    have hleft := (hmore.leaveLevel (hmore.canLeave_iff.2 (by omega))).current_eq
    have hright := ((h.leaveLevel hc).addExperience (b := b) (by omega)).current_eq
    rw [hleft, hright]
    congr 2
    omega
  simp only [Character.leaveLevel, Character.addExperience, levelUp] at hcurrent ⊢
  rw [hcurrent]

/-- **A climb with more experience** passes the end of the climb with less, and goes on from
there. -/
theorem climb?_addExperience (h : c.Stands l x) (hsmall : x + b < 2 ^ 53)
    (hd : climb? n c = some (d, events))
    (he : climb? m (d.addExperience (.finite b)) = some (e, rest)) :
    climb? (n + m) (c.addExperience (.finite b)) = some (e, events ++ rest) := by
  induction n generalizing c l x events with
  | zero =>
    rw [climb?] at hd
    split at hd
    · cases hd
    · cases hd
      exact climb?_mono he (by omega)
  | succ n ih =>
    rw [climb?] at hd
    split at hd
    · rename_i hleave
      obtain ⟨⟨d', events'⟩, hd', heq⟩ := Option.map_eq_some_iff.1 hd
      cases heq
      have hl := h.canLeave_iff.1 hleave
      have hpos := h.level_pos
      have hleave' : (c.addExperience (.finite b)).canLeave :=
        (h.addExperience hsmall).canLeave_iff.2 (by omega)
      have hclimb := ih (h.leaveLevel hleave) (by omega) hd'
      rw [Nat.succ_add, climb?, if_pos hleave', h.leaveLevel_addExperience hleave hsmall, hclimb]
      rfl
    · cases hd
      exact climb?_mono he (by omega)

/-- Two amounts of experience one after the other are their sum. -/
theorem Stands.addExperience_addExperience (h : c.Stands l x) (htotal : c.experience = .finite t)
    (hlow : -2 ^ 53 ≤ t) (hsmall : x + a + b < 2 ^ 53) (hsum : t + a + b < 2 ^ 53) :
    (c.addExperience (.finite a)).addExperience (.finite b) =
      c.addExperience (.finite a + .finite b) := by
  have hcurrent := h.low
  have hamount : (Number.finite a + .finite b) = .finite (a + b : Nat) := by
    exact_mod_cast Number.add_intCast (a := a) (b := b) (by omega)
  have hadd {z : Int} (hz : -2 ^ 53 ≤ z) (hz' : z + a + b < 2 ^ 53) :
      Number.finite z + .finite a + .finite b = .finite z + .finite (a + b : Nat) := by
    have hone : Number.finite z + .finite a = .finite (z + a : Int) :=
      Number.add_intCast (b := a) (by omega)
    have htwo : Number.finite (z + a : Int) + .finite b = .finite (z + a + b : Int) :=
      Number.add_intCast (b := b) (by omega)
    have hboth : Number.finite z + .finite (a + b : Nat) = .finite (z + (a + b : Nat) : Int) :=
      Number.add_intCast (b := (a + b : Nat)) (by omega)
    rw [hone, htwo, hboth]
    congr 2
    omega
  simp only [Character.addExperience, hamount, h.current_eq, htotal,
    hadd (z := x) (by omega) hsmall, hadd hlow hsum]

/-! ## Gains -/

/-- **Experience that is gained in two parts is gained as one sum.** A character on a level, with
any experience gained on it that is not negative, may gain two amounts one after the other, or their
sum at once. All three climbs end; both ways lead to the same character, in all its parts, and note
down the same levels in the same order. -/
theorem gainExperience_gainExperience (hlevel : c.level = .finite l) (hpos : 1 ≤ l)
    (hcurrent : c.currentExperience = .finite x) (hlow : 0 ≤ x) (htotal : c.experience = .finite t)
    (hnear : -2 ^ 53 ≤ t) (hsmall : x + a + b < 2 ^ 53) (hsum : t + a + b < 2 ^ 53) :
    ∃ d events e rest, c.gainExperience (.finite a) = some (d, events) ∧
      d.gainExperience (.finite b) = some (e, rest) ∧
      c.gainExperience (.finite a + .finite b) = some (e, events ++ rest) := by
  have hc : c.Stands l x := ⟨hlevel, hcurrent, hpos, hlow, by omega⟩
  have hfirst : (c.addExperience (.finite a)).Stands l (x + a) := hc.addExperience (by omega)
  obtain ⟨d, events, hd⟩ := hfirst.exists_climb?
  obtain ⟨k, y, hy, hle⟩ := hfirst.of_climb? hd
  obtain ⟨e, rest, he⟩ := (hy.addExperience (b := b) (by omega)).exists_climb?
  obtain ⟨f, all, hall⟩ := (hfirst.addExperience (b := b) hsmall).exists_climb?
  have hboth := climb?_addExperience hfirst hsmall hd he
  have hlong := climb?_mono hall (Nat.le_add_right longestClimb longestClimb)
  rw [hboth] at hlong
  rw [← Option.some.inj hlong, hc.addExperience_addExperience htotal hnear hsmall hsum] at hall
  exact ⟨d, events, e, rest, hd, he, hall⟩

/-- The first part ends with exactly the experience that the second level takes, and the second part
leads over two levels more. -/
theorem gainExperience_gainExperience_at_the_edge_of_a_level :
    let hero : Character := ⟨"c1", "Mira", 1, 12, 30, 90, 90, ["torch"]⟩
    let risen : Character := ⟨"c1", "Mira", 3, 50, 50, 300, 0, ["torch"]⟩
    let grown : Character := ⟨"c1", "Mira", 5, 70, 70, 1050, 50, ["torch"]⟩
    ∃ events rest, hero.gainExperience 210 = some (risen, events) ∧
      risen.gainExperience 750 = some (grown, rest) ∧
      hero.gainExperience (210 + 750) = some (grown, events ++ rest) ∧
      events.map Event.message =
        ["[LEVEL UP] Mira: Lv1 → Lv2 (maxHp 40)", "[LEVEL UP] Mira: Lv2 → Lv3 (maxHp 50)"] ∧
      rest.map Event.message =
        ["[LEVEL UP] Mira: Lv3 → Lv4 (maxHp 60)", "[LEVEL UP] Mira: Lv4 → Lv5 (maxHp 70)"] := by
  intro hero risen grown
  have hrisen : (hero.gainExperience 210).map (fun r => (r.1, r.2.map Event.message)) =
      some (risen, ["[LEVEL UP] Mira: Lv1 → Lv2 (maxHp 40)",
        "[LEVEL UP] Mira: Lv2 → Lv3 (maxHp 50)"]) := by
    decide +kernel
  have hgrown : (risen.gainExperience 750).map (fun r => (r.1, r.2.map Event.message)) =
      some (grown, ["[LEVEL UP] Mira: Lv3 → Lv4 (maxHp 60)",
        "[LEVEL UP] Mira: Lv4 → Lv5 (maxHp 70)"]) := by
    decide +kernel
  obtain ⟨d, events, e, rest, hd, he, hall⟩ :=
    gainExperience_gainExperience (c := hero) (l := 1) (x := 90) (t := 90) (a := 210)
      (b := 750) rfl (by decide) rfl (by decide) rfl (by decide) (by decide) (by decide)
  change hero.gainExperience 210 = _ at hd
  rw [hd] at hrisen
  obtain ⟨rfl, hevents⟩ := Prod.mk.inj (Option.some.inj hrisen)
  change risen.gainExperience 750 = _ at he
  rw [he] at hgrown
  obtain ⟨rfl, hrest⟩ := Prod.mk.inj (Option.some.inj hgrown)
  exact ⟨events, rest, hd, he, hall, hevents, hrest⟩

end Adventure.Character
