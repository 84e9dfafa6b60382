import Adventure.Proofs.Number.Monotone
import Adventure.Proofs.Story.Climb
import Adventure.Proofs.Story.Experience
/-!
# Hit points

What a turn leaves of the hit points: a climb fills them up, then healing adds to them as far as the
maximum goes, and what the turn hurts is taken away last (`settled`). Nothing of it is made good by
the climb or the healing of the same turn, and nobody comes to more hit points than the maximum
(`hp_of_turns`).

All of this holds of rounded sums as it does of exact ones, since rounding keeps the order; and
what is small in the end was exact. Turns with small numbers always end: whoever cannot leave a level
has too little experience left for a climb that loses its levels.
-/

namespace Adventure.Character

open Number

variable {c d r : Character} {base most : Number} {z : Int} {k : Nat}

/-! ## The order of healing and damage -/

/-- Hit points after a change and damage: healing ends at the most hit points, damage at nothing. -/
def settled (base most change damage : Number) : Number :=
  (if 0 < change then Number.min most (base + change) else base + change) - damage

theorem min_zero (z : Int) : Number.min (.finite z) 0 = .finite (min z 0 : Int) := by
  exact_mod_cast min_intCast z 0

/-- **Damage is not made good**: with all hit points before it, no more would be left. -/
theorem settled_le (hle : base ≤ most) (hm : Held most) :
    settled base most (.finite z) (.finite k) ≤
      most + Number.min (.finite z) 0 - .finite k := by
  obtain ⟨hbase, hmost⟩ := ne_nan_of_le hle
  refine Number.add_le_add_right ?_ (-(k : Rat))
  rw [min_zero]
  split
  · rename_i hpos
    have hpos := zero_lt_intCast.1 hpos
    rw [Int.min_eq_right hpos.le, Int.cast_zero, hm.add_zero]
    exact Number.min_le_left hmost (add_finite_ne_nan hbase _)
  · rename_i hneg
    have hneg := mt zero_lt_intCast.2 hneg
    rw [Int.min_eq_left (by omega)]
    exact Number.add_le_add_right hle _

theorem settled_le_most (hle : base ≤ most) (hm : Held most) :
    settled base most (.finite z) (.finite k) ≤ most := by
  have hmost := (ne_nan_of_le hle).2
  have hhurt : most + .finite (min z 0 : Int) ≤ most :=
    hm.add_finite_le hmost (by exact_mod_cast min_le_right z 0)
  have hdamage : most - .finite k ≤ most := hm.add_finite_le hmost (by simp)
  have hboth := Number.add_le_add_right hhurt (-(k : Rat))
  exact Number.le_trans (min_zero z ▸ settled_le hle hm) (Number.le_trans hboth hdamage)

/-- Healing does not take anything away. -/
theorem le_settled (hle : base ≤ most) (hb : Held base) (hz : 0 < z) :
    base - .finite k ≤ settled base most (.finite z) (.finite k) := by
  have hmore : base ≤ base + .finite z :=
    hb.le_add_finite (ne_nan_of_le hle).1 (by exact_mod_cast hz.le)
  refine Number.add_le_add_right ?_ (-(k : Rat))
  rw [if_pos (zero_lt_intCast.2 hz)]
  exact Number.le_min hle hmore

/-- What a change hurts comes after all that heals. -/
theorem settled_eq (hb : Held base) (hm : Held most) :
    settled base most (.finite z) (.finite k) =
      settled base most (if 0 < Number.finite z then .finite z else 0) 0 +
        Number.min (.finite z) 0 - .finite k := by
  have nothing {x : Number} (hx : Held x) : x - 0 = x := hx.add_zero
  have unhurt {x : Number} (hx : Held x) : x + .finite ((0 : Int) : Rat) = x := by
    rw [Int.cast_zero, hx.add_zero]
  unfold settled
  rw [min_zero]
  by_cases hz : 0 < z
  · have hheld : Held (Number.min most (base + .finite z)) := hm.min (held_add_finite base z)
    rw [if_pos (zero_lt_intCast.2 hz), if_pos (zero_lt_intCast.2 hz), if_pos (zero_lt_intCast.2 hz),
      Int.min_eq_right hz.le, nothing hheld, unhurt hheld]
  · have hneg := mt zero_lt_intCast.1 hz
    have hsame : base + 0 = base := hb.add_zero
    rw [if_neg hneg, if_neg hneg, if_neg (by decide), Int.min_eq_left (by omega), hsame,
      nothing hb]

/-- **Small hit points are exact.** -/
theorem settled_intCast {b m : Int} (hb : b.natAbs < 2 ^ 53) (hm : m.natAbs < 2 ^ 53)
    (hz : z.natAbs < 2 ^ 53)
    (hsmall : (settled (.finite b) (.finite m) (.finite z) (.finite k)).isSmall) :
    settled (.finite b) (.finite m) (.finite z) (.finite k) =
      .finite ((if 0 < z then min m (b + z) else b + z) - k : Int) := by
  have hsum : Number.finite b + .finite z = ofRat ((b + z : Int) : Rat) := by
    rw [Int.cast_add]
    rfl
  have hchange : (if (0 : Number) < .finite z then Number.min (.finite m) (.finite b + .finite z)
      else .finite b + .finite z) = .finite ((if 0 < z then min m (b + z) else b + z) : Int) := by
    by_cases hpos : 0 < z
    · rw [if_pos (zero_lt_intCast.2 hpos), if_pos hpos]
      by_cases hover : b + z ≤ 2 ^ 53
      · rw [add_intCast (by omega), min_intCast]
      · -- Wherever the sum is rounded to, the maximum is less.
        have hle : Number.finite m ≤ .finite b + .finite z := by
          rw [hsum]
          refine Number.le_trans ?_ (exactBound_le_ofRat (by exact_mod_cast (not_le.1 hover).le))
          exact finite_le_finite.2 (by rw [cast_exactBound]; exact_mod_cast (by omega : m ≤ 2 ^ 53))
        rw [Number.min_eq_left hle, Int.min_eq_left (by omega)]
    · rw [if_neg (mt zero_lt_intCast.1 hpos), if_neg hpos]
      by_cases hunder : -2 ^ 53 ≤ b + z
      · exact add_intCast (by omega)
      · -- From so far below, damage does not lead back.
        refine absurd hsmall (not_isSmall_of_le ?_)
        have hlow := hsum ▸ ofRat_le_of_le (z := b + z) (by omega)
        unfold settled
        rw [if_neg (mt zero_lt_intCast.1 hpos)]
        refine Number.le_trans ?_ hlow
        exact (held_add_finite _ _).add_finite_le (add_finite_ne_nan (by simp) _) (by simp)
  unfold settled at hsmall ⊢
  have hrest (a : Int) : Number.finite a - .finite k = ofRat ((a - k : Int) : Rat) := by
    rw [sub_finite, Int.cast_sub, Int.cast_natCast]
  rw [hchange, hrest] at hsmall ⊢
  exact ofRat_eq_of_isSmall hsmall

/-! ## The stages of a turn -/

theorem hp_changeHp (h : Held c.hp) :
    (c.changeHp (.finite z)).hp =
      if (0 : Number) < .finite z then Number.min c.maxHp (c.hp + .finite z)
      else c.hp + .finite z := by
  unfold changeHp
  split
  · rfl
  · rename_i hpos
    split
    · change c.hp + - -Number.finite z = _
      rw [Number.neg_neg]
    · rename_i hneg
      -- Nothing is changed.
      have hzero : z = 0 := by
        have hpos := mt zero_lt_intCast.2 hpos
        have hneg := mt intCast_lt_zero.2 hneg
        omega
      rw [hzero, Int.cast_zero, h.add_zero]

theorem hp_sufferDamage (h : Held c.hp) (k : Nat) :
    (c.sufferDamage (.finite k)).hp = c.hp - .finite k := by
  unfold sufferDamage
  split
  · rfl
  · rename_i hpos
    have hzero : k = 0 := by
      have hpos := mt (zero_lt_intCast (z := k)).2 hpos
      omega
    rw [hzero, Nat.cast_zero]
    exact h.add_zero.symm

/-- What comes after a climb settles the hit points, and leaves the other counts as they are. -/
theorem apply_of_advance {changes : Changes} {events : List Event} (hw : changes.WellFormed)
    (hr : c.advance changes.experienceGained = some (r, events)) (hhp : Held r.hp)
    (hmax : Held r.maxHp) (k : Nat) :
    ∃ d, c.apply changes (.number (.finite k)) = .done (d, events) ∧ d.counts = r.counts ∧
      d.hp = settled r.hp r.maxHp changes.hpChange (.finite k) := by
  obtain ⟨z, hz⟩ := isInteger_iff.1 hw.hpChange
  have hdamage : checkSelfDamage (.number (.finite k)) = .ok (.finite k) := by
    exact_mod_cast checkSelfDamage_intCast (n := k) (by positivity)
  have hheld : Held (r.changeHp changes.hpChange).hp := by
    rw [hz, hp_changeHp hhp]
    split
    · exact hmax.min (held_add_finite _ _)
    · exact held_add_finite _ _
  refine ⟨_, apply_eq_done.2 ⟨.finite k, r, hdamage, hr, rfl⟩, by simp, ?_⟩
  change ((r.changeHp changes.hpChange).sufferDamage (.finite k)).hp = _
  rw [hp_sufferDamage hheld, hz, hp_changeHp hhp]
  rfl

/-! ## The climb -/

/-- A level that a climb can go on from, and hit points that rounding keeps, no more than the most
there are. -/
structure Fit (c : Character) : Prop where
  level : c.LevelFrom 1
  hp : Held c.hp
  maxHp : Held c.maxHp
  capped : c.hp ≤ c.maxHp

/-- A climb that left no level has changed no hit points; one that did has filled them up, to a
maximum that is not lower. -/
def Refills (c r : Character) : Prop :=
  (r.level = c.level ∧ r.hp = c.hp ∧ r.maxHp = c.maxHp) ∨
    (c.maxHp ≤ r.maxHp ∧ r.hp = r.maxHp ∧
      ∀ z : Int, 1 ≤ z → z < 2 ^ 53 → c.level = .finite z → r.LevelFrom (z + 1))

theorem Fit.leaveLevel (h : c.Fit) : c.leaveLevel.Fit where
  level := (h.level.leaveLevel le_rfl).mono (by omega)
  hp := held_add_finite _ _
  maxHp := held_add_finite _ _
  capped := Number.le_refl (add_finite_ne_nan (ne_nan_of_le h.capped).2 _)

theorem Refills.leaveLevel (hr : r.Fit) (h : c.Refills r) : c.Refills r.leaveLevel := by
  have hmore : r.maxHp ≤ r.maxHp + .finite (10 : Nat) :=
    hr.maxHp.le_add_finite (ne_nan_of_le hr.capped).2 (by norm_num)
  rcases h with ⟨hlevel, -, hmax⟩ | ⟨hmax, -, hlevel⟩
  · refine .inr ⟨hmax ▸ hmore, rfl, fun z hz hz' hc => ?_⟩
    have hfrom : r.LevelFrom z := ⟨z, le_rfl, hz'.le, hlevel.trans hc⟩
    exact (hfrom.leaveLevel hz).mono (by omega)
  · refine .inr ⟨Number.le_trans hmax hmore, rfl, fun z hz hz' hc => ?_⟩
    exact ((hlevel z hz hz' hc).leaveLevel (by omega)).mono (by omega)

theorem Fit.refills (h : c.Fit) {amount : Number} {events : List Event}
    (hr : c.advance amount = some (r, events)) : r.Fit ∧ c.Refills r :=
  advance_keeps (P := fun r => r.Fit ∧ c.Refills r) (fun _ h => ⟨h.1.leaveLevel, h.2.leaveLevel h.1⟩)
    (fun _ _ h => ⟨⟨h.1.level, h.1.hp, h.1.maxHp, h.1.capped⟩, h.2⟩) hr
    ⟨h, .inl ⟨rfl, rfl, rfl⟩⟩

/-! ## Turns with small numbers end -/

theorem LevelFrom.climber (h : c.LevelFrom 1) (hx : Unsigned c.currentExperience) :
    c.Climber ∧ c.OnLevel := by
  obtain ⟨z, hz, hz', hlevel⟩ := h
  have hheld : Held (.finite z) := ofRat_intCast (by omega)
  exact ⟨⟨hlevel ▸ unsigned_intCast (by omega) hheld, hx⟩, .inr ⟨z, hz, hlevel⟩⟩

theorem unsigned_depth : Unsigned (.finite depth) :=
  ⟨(Binary64.two_zpow_pos 113).le, Binary64.kept_zpow (by omega),
    zpow_lt_zpow_right₀ (by norm_num) (by norm_num)⟩

/-- Who cannot leave a level has no more experience than the highest level takes. -/
theorem LevelFrom.le_toll (h : c.LevelFrom 1) (hvalue : c.currentExperience ≠ .nan)
    (hstay : ¬ c.canLeave) : c.currentExperience ≤ .finite toll := by
  obtain ⟨t, ht, -, htoll⟩ := h.exists_toll
  unfold canLeave at hstay
  rw [ht, decide_eq_true_iff] at hstay
  have hless := (not_le_iff_lt (by simp) hvalue).1 hstay
  exact Number.le_trans (Number.le_of_lt hless) (finite_le_finite.2 htoll)

/-- A climb ends that begins with a small gain. -/
theorem LevelFrom.exists_climb? (h : c.LevelFrom 1) (hx : c.currentExperience ≤ .finite toll)
    {g : Nat} (hg : g < 2 ^ 53) :
    ∃ p, climb? longestClimb (c.addExperience (.finite g)) = some p := by
  by_cases hleave : (c.addExperience (.finite g)).canLeave
  · obtain ⟨t, ht, ht0, -⟩ := h.exists_toll
    have hreached : Number.finite t ≤ c.currentExperience + .finite g :=
      ht ▸ of_decide_eq_true hleave
    have hunsigned : Unsigned (c.addExperience (.finite g)).currentExperience :=
      (held_add_finite _ _).unsigned ht0 hreached
    have hshallow : c.currentExperience + .finite g ≤ .finite depth := by
      refine Number.le_trans (Number.add_le_add_right hx g) ?_
      refine ofRat_le_finite unsigned_depth (add_nonneg unsigned_toll.1 (by positivity)) ?_
      have hgained : (g : Rat) ≤ (2 : Rat) ^ (61 : Int) := by
        refine le_trans ?_ (Binary64.two_zpow_le (by omega : (53 : Int) ≤ 61))
        exact_mod_cast hg.le
      have hdepth : (2 : Rat) ^ (62 : Int) ≤ depth := Binary64.two_zpow_le (by omega)
      have hdouble : (2 : Rat) ^ (62 : Int) = 2 * (2 : Rat) ^ (61 : Int) := by norm_num
      linarith [toll_bounds.2]
    obtain ⟨hclimber, hl⟩ := LevelFrom.climber (c := c.addExperience (.finite g)) h hunsigned
    exact hclimber.exists_climb? hl hshallow
  · exact ⟨_, climb?_of_not_canLeave hleave longestClimb⟩

theorem LevelFrom.exists_advance (h : c.LevelFrom 1) (hx : c.currentExperience ≤ .finite toll)
    {g : Nat} (hg : g < 2 ^ 53) :
    ∃ r events, c.advance (.finite g) = some (r, events) ∧ r.currentExperience ≤ .finite toll := by
  unfold advance
  split
  · obtain ⟨⟨r, events⟩, hr⟩ := h.exists_climb? hx hg
    have hstep : ∀ d : Character, d.canLeave → d.LevelFrom 1 ∧ d.currentExperience ≠ .nan →
        d.leaveLevel.LevelFrom 1 ∧ d.leaveLevel.currentExperience ≠ .nan := by
      rintro d - ⟨hd, hvalue⟩
      obtain ⟨t, ht, -⟩ := hd.exists_toll
      refine ⟨(hd.leaveLevel le_rfl).mono (by omega), ?_⟩
      change d.currentExperience - experienceToLeave d.level ≠ .nan
      rw [ht]
      exact sub_finite_ne_nan hvalue t
    have hstart : (c.addExperience (.finite g)).currentExperience ≠ .nan :=
      add_finite_ne_nan (ne_nan_of_le hx).1 g
    obtain ⟨hlevel, hvalue⟩ := climb?_keeps hstep longestClimb hr ⟨h, hstart⟩
    exact ⟨r, events, hr, hlevel.le_toll hvalue (climb?_stops longestClimb hr)⟩
  · exact ⟨c, [], rfl, hx⟩

/-- **A turn** with a small gain ends: a climb, and what the hit points are settled to. -/
theorem Fit.apply (h : c.Fit) (hx : c.currentExperience ≤ .finite toll) {changes : Changes}
    (hw : changes.WellFormed) (hsmall : changes.experienceGained.isSmall) (k : Nat) :
    ∃ r d events, c.advance changes.experienceGained = some (r, events) ∧
      c.apply changes (.number (.finite k)) = .done (d, events) ∧ d.counts = r.counts ∧
      d.hp = settled r.hp r.maxHp changes.hpChange (.finite k) ∧ d.Fit ∧
      d.currentExperience ≤ .finite toll := by
  obtain ⟨g, hg, hg0⟩ := (isIntegerFrom_iff (n := 0)).1 hw.experienceGained
  obtain ⟨n, rfl⟩ := Int.eq_ofNat_of_zero_le (by exact_mod_cast hg0 : 0 ≤ g)
  have hless : n < 2 ^ 53 := by
    rw [hg, isSmall_intCast] at hsmall
    exact hsmall
  obtain ⟨r, events, hr, htoll⟩ := h.level.exists_advance hx hless
  have hgained : changes.experienceGained = .finite n := by exact_mod_cast hg
  rw [← hgained] at hr
  obtain ⟨hfit, -⟩ := h.refills hr
  obtain ⟨d, hd, hcounts, hhp⟩ := apply_of_advance hw hr hfit.hp hfit.maxHp k
  obtain ⟨z, hz⟩ := isInteger_iff.1 hw.hpChange
  have hcounts' := hcounts
  simp only [counts, Prod.mk.injEq] at hcounts'
  obtain ⟨hlevel, hmax, -, hcurrent⟩ := hcounts'
  refine ⟨r, d, events, hr, hd, hcounts, hhp, ⟨?_, ?_, hmax ▸ hfit.maxHp, ?_⟩, hcurrent ▸ htoll⟩
  · obtain ⟨w, hw1, hw2, hw3⟩ := hfit.level
    exact ⟨w, hw1, hw2, hlevel.trans hw3⟩
  · rw [hhp]
    exact held_add_finite _ _
  · rw [hhp, hmax, hz]
    exact settled_le_most hfit.capped hfit.maxHp

/-! ## Hit points after a turn -/

/-- A character as it is stored: integers below `2 ^ 53`, a level, and no more hit points than the
most there are. Hit points may be used up, and beyond. -/
structure Sturdy (c : Character) : Prop where
  level : c.level.isIntegerFrom 1
  hp : c.hp.isInteger
  maxHp : c.maxHp.isInteger
  currentExperience : c.currentExperience.isInteger
  small : c.level.isSmall ∧ c.hp.isSmall ∧ c.maxHp.isSmall ∧ c.currentExperience.isSmall
  capped : c.hp ≤ c.maxHp

/-- The hit points that a turn begins to settle: all of them, if a level was left. -/
def refilled (c d : Character) : Number := if c.level < d.level then d.maxHp else c.hp

/-- What a turn with a change of hit points and damage makes of them. -/
structure SettlesHp (c d : Character) (change damage : Number) : Prop where
  hp : d.hp = settled (c.refilled d) d.maxHp change damage
  bound : d.hp ≤ d.maxHp + Number.min change 0 - damage
  capped : d.hp ≤ d.maxHp
  healed : 0 < change → c.refilled d - damage ≤ d.hp ∧ c.hp - damage ≤ d.hp
  exact : d.hp.isSmall → d.maxHp.isSmall → ∃ (h m z : Int) (k : Nat),
    c.hp = .finite h ∧ d.maxHp = .finite m ∧ change = .finite z ∧ damage = .finite k ∧
      let b := if c.level < d.level then m else h
      d.hp = .finite ((if 0 < z then min m (b + z) else b + z) - k : Int)

theorem Sturdy.fit (h : c.Sturdy) : c.Fit := by
  obtain ⟨l, hl, hl1⟩ := (isIntegerFrom_iff (n := 1)).1 h.level
  have held {x : Number} (hi : x.isInteger) (hx : x.isSmall) : Held x := by
    obtain ⟨z, rfl⟩ := isInteger_iff.1 hi
    exact ofRat_intCast (isSmall_intCast.1 hx).le
  obtain ⟨hlevel, hhp, hmax, -⟩ := h.small
  rw [hl, isSmall_intCast] at hlevel
  exact ⟨⟨l, hl1, by omega, hl⟩, held h.hp hhp, held h.maxHp hmax, h.capped⟩

theorem Sturdy.le_toll (h : c.Sturdy) : c.currentExperience ≤ .finite toll := by
  obtain ⟨x, hx⟩ := isInteger_iff.1 h.currentExperience
  have hsmall := h.small.2.2.2
  rw [hx, isSmall_intCast] at hsmall
  rw [hx, toll_eq]
  exact intCast_le_intCast.2 (by omega)

theorem Refills.refilled_eq (h : c.Refills r) (hc : c.Sturdy) (hd : d.counts = r.counts) :
    c.refilled d = r.hp ∧ c.hp ≤ c.refilled d := by
  simp only [counts, Prod.mk.injEq] at hd
  obtain ⟨hlevel, hmax, -⟩ := hd
  obtain ⟨l, hl, hl1⟩ := (isIntegerFrom_iff (n := 1)).1 hc.level
  have hsmall := hc.small.1
  rw [hl, isSmall_intCast] at hsmall
  unfold refilled
  rw [hlevel, hmax]
  rcases h with ⟨hsame, hhp, -⟩ | ⟨hmore, hhp, hup⟩
  · have hno : ¬ c.level < r.level := by
      rw [hsame, hl, intCast_lt_intCast]
      exact lt_irrefl l
    rw [if_neg hno]
    exact ⟨hhp.symm, Number.le_refl (ne_nan_of_le hc.capped).1⟩
  · have hless : c.level < r.level := by
      obtain ⟨w, hw, -, hr⟩ := hup l hl1 (by omega) hl
      rw [hl, hr, intCast_lt_intCast]
      omega
    rw [if_pos hless]
    exact ⟨hhp.symm, Number.le_trans hc.capped hmore⟩

/-- A climb adds to the most hit points, ten for each level. -/
theorem tracks_maxHp {amount : Number} {events : List Event} {n : Int}
    (h : c.advance amount = some (r, events)) (hn : -2 ^ 53 ≤ n) (hc : c.maxHp = .finite n) :
    ∃ m, r.maxHp.Tracks m := by
  obtain ⟨m, -, hm⟩ := advance_keeps (P := fun d => ∃ m : Int, n ≤ m ∧ d.maxHp.Tracks m)
    (fun d ⟨m, hm, hd⟩ => ⟨m + 10, by omega, hd.add (by omega) (by omega : (0 : Int) ≤ 10)⟩)
    (fun _ _ hd => hd) h ⟨n, le_rfl, .inl hc⟩
  exact ⟨m, hm⟩

theorem Moment.Proper.wellFormed {m : Moment} (h : m.Proper) : m.1.WellFormed := by
  obtain ⟨report, flag, proposed, out, remarks, hok, hout⟩ := h.changes
  refine ⟨hout ▸ Reconciled.hpChange_isInteger hok, ?_⟩
  rw [h.experienceGained]
  exact (isIntegerFrom_iff (n := 0)).2 ⟨m.gain, by norm_cast, by positivity⟩

/-- The damage of a turn. -/
def Moment.damage (m : Moment) : Number := m.2.toNumber

/-- Whether the numbers of a turn are small. -/
def Moment.isSmall (m : Moment) : Bool :=
  m.1.hpChange.isSmall && m.1.experienceGained.isSmall && m.damage.isSmall

/-- The same turn, but that nothing hurts. -/
def Moment.unhurt (m : Moment) : Moment :=
  ({ m.1 with hpChange := if 0 < m.1.hpChange then m.1.hpChange else 0 }, .number 0)

theorem Moment.wellFormed_unhurt {m : Moment} (h : m.1.WellFormed) : m.unhurt.1.WellFormed := by
  refine ⟨?_, h.experienceGained⟩
  change (if 0 < m.1.hpChange then m.1.hpChange else 0).isInteger
  split
  · exact h.hpChange
  · decide

/-- A turn settles the hit points that the climb left. -/
theorem SettlesHp.of_climb (hc : c.Sturdy) (hr : r.Fit) (hrefills : c.Refills r)
    (htracks : ∃ m, r.maxHp.Tracks m) (hd : d.counts = r.counts) (hz : z.natAbs < 2 ^ 53)
    (hhp : d.hp = settled r.hp r.maxHp (.finite z) (.finite k)) :
    c.SettlesHp d (.finite z) (.finite k) := by
  obtain ⟨hfilled, hmore⟩ := hrefills.refilled_eq hc hd
  have hmax : d.maxHp = r.maxHp := by
    simp only [counts, Prod.mk.injEq] at hd
    exact hd.2.1
  rw [← hfilled, ← hmax] at hhp
  have hle : c.refilled d ≤ d.maxHp := by
    rw [hfilled, hmax]
    exact hr.capped
  have hheld : Held (c.refilled d) := hfilled ▸ hr.hp
  have hheld' : Held d.maxHp := hmax ▸ hr.maxHp
  refine ⟨hhp, hhp ▸ settled_le hle hheld', hhp ▸ settled_le_most hle hheld', fun hpos => ?_, ?_⟩
  · have hbase := hhp ▸ le_settled (k := k) hle hheld (zero_lt_intCast.1 hpos)
    exact ⟨hbase, Number.le_trans (Number.add_le_add_right hmore (-(k : Rat))) hbase⟩
  · intro hsmall hsmall'
    obtain ⟨h, hh⟩ := isInteger_iff.1 hc.hp
    obtain ⟨m, hm⟩ := htracks
    have hm : d.maxHp = .finite m := hm.eq (hmax ▸ hsmall') ▸ hmax
    have hexact : c.refilled d = .finite (if c.level < d.level then m else h : Int) := by
      unfold refilled
      split
      · exact hm
      · exact hh
    have hh' := hc.small.2.1
    rw [hh, isSmall_intCast] at hh'
    rw [hm, isSmall_intCast] at hsmall'
    refine ⟨h, m, z, k, hh, hm, rfl, rfl, ?_⟩
    rw [hhp, hexact, hm] at hsmall ⊢
    exact settled_intCast (by split <;> assumption) hsmall' hz hsmall

/-- Through any number of turns nobody comes to more hit points than the most there are. -/
theorem Fit.live (h : c.Fit) (hx : c.currentExperience ≤ .finite toll) {ms : List Moment}
    (hms : ∀ m ∈ ms, m.Proper ∧ m.isSmall) :
    ∃ e, c.live ms = .done e ∧ e.hp ≤ e.maxHp := by
  induction ms generalizing c with
  | nil => exact ⟨c, rfl, h.capped⟩
  | cons m rest ih =>
    obtain ⟨hm, hsmall⟩ := hms m List.mem_cons_self
    simp only [Moment.isSmall, Bool.and_eq_true] at hsmall
    obtain ⟨k, hk⟩ := hm.damage
    obtain ⟨-, d, events, -, hd, -, -, hfit, htoll⟩ := h.apply hx hm.wellFormed hsmall.1.2 k
    rw [← hk] at hd
    obtain ⟨e, he, hcapped⟩ := ih hfit htoll fun m hm => hms m (List.mem_cons_of_mem _ hm)
    exact ⟨e, by rw [Character.live, hd]; exact he, hcapped⟩

/-- **Hit points after a turn.** A turn whose bundle was reconciled and whose damage is an integer
that is not negative ends. It fills the hit points up if a level was left, heals them as far as the
maximum goes or takes from them, and takes the damage last, all of it exactly if the hit points are
small in the end; healing lowers nothing. Without what hurts, the same turn would have ended with just
so much more. And through any number of turns the maximum is not passed. -/
theorem hp_of_turns (hc : c.Sturdy) :
    (∀ m : Moment, m.Proper → m.isSmall →
      ∃ d events, c.apply m.1 m.2 = .done (d, events) ∧ c.SettlesHp d m.1.hpChange m.damage ∧
        ∃ e events, c.apply m.unhurt.1 m.unhurt.2 = .done (e, events) ∧
          d.hp = e.hp + Number.min m.1.hpChange 0 - m.damage) ∧
    ∀ ms : List Moment, (∀ m ∈ ms, m.Proper ∧ m.isSmall) →
      ∃ e, c.live ms = .done e ∧ e.hp ≤ e.maxHp := by
  refine ⟨fun m hm hsmall => ?_, fun ms hms => hc.fit.live hc.le_toll hms⟩
  simp only [Moment.isSmall, Bool.and_eq_true] at hsmall
  obtain ⟨⟨hchange, hgained⟩, -⟩ := hsmall
  obtain ⟨k, hk⟩ := hm.damage
  have hdamage : m.damage = .finite k := by rw [Moment.damage, hk]; rfl
  obtain ⟨r, d, events, hr, hd, hcounts, hhp, -⟩ :=
    hc.fit.apply hc.le_toll hm.wellFormed hgained k
  obtain ⟨hfit, hrefills⟩ := hc.fit.refills hr
  obtain ⟨n, hn⟩ := isInteger_iff.1 hc.maxHp
  have hlow := hc.small.2.2.1
  rw [hn, isSmall_intCast] at hlow
  obtain ⟨z, hz⟩ := isInteger_iff.1 hm.wellFormed.hpChange
  rw [hz, isSmall_intCast] at hchange
  obtain ⟨e, he, -, hunhurt⟩ :=
    apply_of_advance (Moment.wellFormed_unhurt hm.wellFormed) hr hfit.hp hfit.maxHp 0
  rw [hk, hdamage, hz]
  rw [hz] at hhp
  refine ⟨d, events, hd, ?_, e, events, he, ?_⟩
  · exact .of_climb hc hfit hrefills (tracks_maxHp hr (by omega) hn) hcounts hchange hhp
  · have hsame : m.unhurt.1.hpChange = if 0 < Number.finite z then .finite z else 0 := by
      rw [Moment.unhurt, hz]
    rw [hhp, hunhurt, hsame]
    exact settled_eq hfit.hp hfit.maxHp

/-- A level is left in the turn that also hurts, by a wound and by a fumble, a character that lies
there with less than no hit points; then it heals by more than it lacks, with another fumble. -/
theorem hp_of_turns_of_a_climb_among_wounds :
    let hero : Character := ⟨"c1", "Mira", 1, -2, 20, 90, 90, ["torch"]⟩
    let raid : Moment := (⟨-7, 120, [], [], none, [], []⟩, .number 5)
    let rest : Moment := (⟨40, 0, [], [], none, [], []⟩, .number 3)
    let wounded : Character := ⟨"c1", "Mira", 2, 18, 30, 210, 110, ["torch"]⟩
    hero.Sturdy ∧ raid.Proper ∧ raid.isSmall ∧
      (∃ events, hero.apply raid.1 raid.2 = .done (wounded, events)) ∧
      hero.SettlesHp wounded (-7) 5 ∧
      ∃ e, hero.live [raid, rest] = .done e ∧ e.hp = 27 ∧ e.hp ≤ e.maxHp := by
  intro hero raid rest wounded
  have hhero : hero.Sturdy :=
    ⟨by decide, by decide, by decide, by decide, by decide +kernel, by decide⟩
  have hraid : raid.Proper := Moment.proper_of_wellFormed ⟨by decide, by decide⟩ 5
  have hrest : rest.Proper := Moment.proper_of_wellFormed ⟨by decide, by decide⟩ 3
  have hsmall : raid.isSmall ∧ rest.isSmall := by decide +kernel
  obtain ⟨hturn, hturns⟩ := hp_of_turns hhero
  obtain ⟨d, events, hd, hsettles, -⟩ := hturn raid hraid hsmall.1
  obtain ⟨e, he, hcapped⟩ := hturns [raid, rest] (by
    rw [List.forall_mem_cons, List.forall_mem_singleton]
    exact ⟨⟨hraid, hsmall.1⟩, hrest, hsmall.2⟩)
  have hwounded : hero.live [raid] = .done wounded := by decide +kernel
  have hhealed : hero.live [raid, rest] = .done { wounded with hp := 27 } := by decide +kernel
  rw [Character.live, hd] at hwounded
  obtain rfl : d = wounded := Outcome.done.inj hwounded
  rw [he] at hhealed
  obtain rfl := Outcome.done.inj hhealed
  exact ⟨hhero, hraid, hsmall.1, ⟨events, hd⟩, hsettles, _, he, rfl, hcapped⟩

end Adventure.Character
