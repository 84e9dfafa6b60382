import Adventure.Proofs.Number.Exact
import Adventure.Proofs.Story.Proposal
import Mathlib.Tactic.Ring
/-!
# The lifetime of a character

Every level takes a hundred times its number of experience, so a character of level `l` has left
`50 * l * (l - 1)` behind it. What it has gained in all, less what it has gained on its level, stays
as far from this sum as it was in the beginning, through any climb and any number of turns
(`lifetime`). The climb is followed level by level (`Nears.leaveLevel`) while the experience and
the level are exact; hit points need not be until the turn is over, since what has left the exact
integers on the way cannot be among them in the end.
-/

namespace Adventure

/-- What a character counts, in integers. -/
structure Tally where
  level : Int
  maxHp : Int
  experience : Int
  currentExperience : Int

namespace Tally

/-- On a level, and not yet able to leave it. -/
structure Proper (t : Tally) : Prop where
  level : 1 ≤ t.level
  low : 0 ≤ t.currentExperience
  high : t.currentExperience < 100 * t.level

/-- The experience that is neither gained on the level nor left behind with the levels below. -/
def balance (t : Tally) : Int :=
  t.experience - t.currentExperience - 50 * t.level * (t.level - 1)

/-- Growth by an amount of experience: levels are only gained, no experience is lost or counted
twice, and the hit points follow the level. -/
structure Grows (t u : Tally) (gained : Int) : Prop where
  level : t.level ≤ u.level
  experience : u.experience = t.experience + gained
  balance : u.balance = t.balance
  maxHp : u.maxHp - 10 * u.level = t.maxHp - 10 * t.level

theorem Grows.refl (t : Tally) : t.Grows t 0 := ⟨le_rfl, (add_zero _).symm, rfl, rfl⟩

theorem Grows.trans {t u v : Tally} {g h : Int} (htu : t.Grows u g) (huv : u.Grows v h) :
    t.Grows v (g + h) where
  level := htu.level.trans huv.level
  experience := by rw [huv.experience, htu.experience, add_assoc]
  balance := huv.balance.trans htu.balance
  maxHp := huv.maxHp.trans htu.maxHp

/-- One level further. -/
def next (t : Tally) : Tally :=
  ⟨t.level + 1, t.maxHp + 10, t.experience, t.currentExperience - 100 * t.level⟩

theorem grows_next (t : Tally) : t.Grows t.next 0 where
  level := by simp [next]
  experience := by simp [next]
  balance := by
    simp only [balance, next]
    ring
  maxHp := by
    simp only [next]
    ring

/-- With more experience, before any level is left. -/
def gain (t : Tally) (amount : Int) : Tally :=
  { t with
    experience := t.experience + amount
    currentExperience := t.currentExperience + amount }

theorem grows_gain (t : Tally) (amount : Int) : t.Grows (t.gain amount) amount where
  level := le_rfl
  experience := rfl
  balance := by
    simp only [balance, gain]
    ring
  maxHp := rfl

end Tally

namespace Character

variable {c d : Character} {t u : Tally}

/-! ## Counts -/

/-- What a character counts. -/
def counts (c : Character) : Number × Number × Number × Number :=
  (c.level, c.maxHp, c.experience, c.currentExperience)

@[simp] theorem counts_changeHp (c : Character) (change : Number) :
    (c.changeHp change).counts = c.counts := by
  unfold changeHp
  split
  · rfl
  · split <;> rfl

@[simp] theorem counts_sufferDamage (c : Character) (damage : Number) :
    (c.sufferDamage damage).counts = c.counts := by
  unfold sufferDamage
  split <;> rfl

@[simp] theorem counts_changeItems (c : Character) (changes : Changes) :
    (c.changeItems changes).counts = c.counts := rfl

/-- The counts of a character are these integers. -/
def Tallies (c : Character) (t : Tally) : Prop :=
  c.counts =
    (.finite t.level, .finite t.maxHp, .finite t.experience, .finite t.currentExperience)

/-- All counts of a character are small. -/
def isSmall (c : Character) : Bool :=
  c.level.isSmall && c.maxHp.isSmall && c.experience.isSmall && c.currentExperience.isSmall

/-! ## One climb -/

/-- A character stands on a level with some experience gained on it, both of them integers, and the
experience small. -/
structure Stands (c : Character) (level current : Int) : Prop where
  level_eq : c.level = .finite level
  current_eq : c.currentExperience = .finite current
  level_pos : 1 ≤ level
  low : 0 ≤ current
  small : current < 2 ^ 53

/-- What a climb uses up. -/
def reserve (c : Character) : Nat := c.currentExperience.toNat?.getD 0

namespace Stands

variable {level current : Int}

theorem experienceToLeave_eq (h : c.Stands level current) (hl : 100 * level ≤ current) :
    experienceToLeave c.level = .finite (100 * level : Int) := by
  have hsmall := h.small
  have hpos := h.level_pos
  rw [h.level_eq, mul_comm (100 : Int)]
  exact Number.mul_intCast (b := 100) (by omega)

theorem canLeave_iff (h : c.Stands level current) : c.canLeave ↔ 100 * level ≤ current := by
  have hpos := h.level_pos
  unfold canLeave
  rw [h.current_eq, decide_eq_true_iff]
  by_cases hl : 100 * level ≤ current
  · refine iff_of_true ?_ hl
    rw [h.experienceToLeave_eq hl]
    exact Number.intCast_le_intCast.2 hl
  · -- The threshold may have been rounded, but not to within reach.
    refine iff_of_false ?_ hl
    have hthreshold : (experienceToLeave c.level).Tracks (level * 100) := by
      have heq : experienceToLeave c.level = Number.ofRat ((level * 100 : Int) : Rat) := by
        rw [h.level_eq, Int.cast_mul]
        rfl
      rw [heq]
      exact Number.tracks_ofRat (by omega)
    exact hthreshold.not_le (by omega) h.small

theorem leaveLevel (h : c.Stands level current) (hc : c.canLeave) :
    c.leaveLevel.Stands (level + 1) (current - 100 * level) := by
  have hl := h.canLeave_iff.1 hc
  have hpos := h.level_pos
  have hsmall := h.small
  refine ⟨?_, ?_, by omega, by omega, by omega⟩
  · change c.level + 1 = _
    rw [h.level_eq]
    exact Number.add_intCast (b := 1) (by omega)
  · change c.currentExperience - experienceToLeave c.level = _
    rw [h.experienceToLeave_eq hl, h.current_eq]
    exact Number.sub_intCast (by omega)

theorem reserve_eq (h : c.Stands level current) : (c.reserve : Int) = current := by
  have hlow := h.low
  unfold reserve
  rw [h.current_eq]
  simp [Number.toNat?, hlow]

/-- Every level takes at least a hundred of the experience, so the climb ends. -/
theorem exists_climb? (h : c.Stands level current) :
    ∃ d events, climb? longestClimb c = some (d, events) := by
  let Standing (d : Character) : Prop := ∃ l x, d.Stands l x
  have hstep : ∀ d, d.canLeave → Standing d →
      Standing d.leaveLevel ∧ d.leaveLevel.reserve < d.reserve := by
    rintro d hd ⟨l, x, hstands⟩
    have hpos := hstands.level_pos
    have hbefore := hstands.reserve_eq
    have hafter := (hstands.leaveLevel hd).reserve_eq
    exact ⟨⟨_, _, hstands.leaveLevel hd⟩, by omega⟩
  have hfuel : c.reserve ≤ longestClimb := by
    have hreserve := h.reserve_eq
    have hsmall := h.small
    have hlong : 2 ^ 53 ≤ longestClimb := Nat.pow_le_pow_right (by omega) (by omega)
    omega
  exact Character.exists_climb? hstep ⟨_, _, h⟩ hfuel

end Stands

/-- The counts of a character are these integers, but that its hit points may have left the exact
ones upwards. -/
structure Nears (c : Character) (t : Tally) : Prop where
  level : c.level = .finite t.level
  maxHp : c.maxHp.Tracks t.maxHp
  experience : c.experience = .finite t.experience
  currentExperience : c.currentExperience = .finite t.currentExperience
  level_pos : 1 ≤ t.level
  maxHp_low : -2 ^ 53 ≤ t.maxHp
  low : 0 ≤ t.currentExperience
  small : t.currentExperience < 2 ^ 53

namespace Nears

theorem congr (h : c.Nears t) (hd : d.counts = c.counts) : d.Nears t := by
  simp only [counts, Prod.mk.injEq] at hd
  obtain ⟨hlevel, hmax, hexperience, hcurrent⟩ := hd
  exact ⟨hlevel.trans h.level, hmax ▸ h.maxHp, hexperience.trans h.experience,
    hcurrent.trans h.currentExperience, h.level_pos, h.maxHp_low, h.low, h.small⟩

theorem stands (h : c.Nears t) : c.Stands t.level t.currentExperience :=
  ⟨h.level, h.currentExperience, h.level_pos, h.low, h.small⟩

theorem leaveLevel (h : c.Nears t) (hc : c.canLeave) : c.leaveLevel.Nears t.next := by
  have hlow := h.maxHp_low
  have hnext := h.stands.leaveLevel hc
  refine ⟨hnext.level_eq, h.maxHp.add hlow (by omega : (0 : Int) ≤ 10), h.experience,
    hnext.current_eq, hnext.level_pos, ?_, hnext.low, hnext.small⟩
  simp only [Tally.next]
  omega

end Nears

/-- **A climb** ends on the level that the experience is enough for. -/
theorem Nears.climb (h : c.Nears t) :
    ∃ d events u, climb? longestClimb c = some (d, events) ∧ d.Nears u ∧ t.Grows u 0 ∧
      u.Proper := by
  let Climbing (d : Character) : Prop := ∃ u, d.Nears u ∧ t.Grows u 0
  have hstep : ∀ d, d.canLeave → Climbing d → Climbing d.leaveLevel := by
    rintro d hd ⟨u, hu, hgrows⟩
    exact ⟨u.next, hu.leaveLevel hd, hgrows.trans u.grows_next⟩
  have hstart : Climbing c := ⟨t, h, .refl t⟩
  obtain ⟨d, events, hd⟩ := h.stands.exists_climb?
  obtain ⟨u, hu, hgrows⟩ := climb?_keeps hstep longestClimb hd hstart
  have hstay := mt hu.stands.canLeave_iff.2 (climb?_stops longestClimb hd)
  exact ⟨d, events, u, hd, hu, hgrows, hu.level_pos, hu.low, by omega⟩

/-! ## One turn -/

theorem isSmall_iff (h : c.Tallies t) :
    c.isSmall ↔ t.level.natAbs < 2 ^ 53 ∧ t.maxHp.natAbs < 2 ^ 53 ∧
      t.experience.natAbs < 2 ^ 53 ∧ t.currentExperience.natAbs < 2 ^ 53 := by
  simp only [Tallies, counts, Prod.mk.injEq] at h
  obtain ⟨hlevel, hmax, hexperience, hcurrent⟩ := h
  simp only [isSmall, hlevel, hmax, hexperience, hcurrent, Bool.and_eq_true,
    Number.isSmall_intCast, and_assoc]

theorem Tallies.nears (h : c.Tallies t) (hsmall : c.isSmall) (hlevel : 1 ≤ t.level)
    (hlow : 0 ≤ t.currentExperience) : c.Nears t := by
  obtain ⟨-, hmax, -, hcurrent⟩ := (isSmall_iff h).1 hsmall
  simp only [Tallies, counts, Prod.mk.injEq] at h
  obtain ⟨h₁, h₂, h₃, h₄⟩ := h
  exact ⟨h₁, .inl h₂, h₃, h₄, hlevel, by omega, hlow, by omega⟩

/-- What is small in the end has been exact on the way. -/
theorem Nears.tallies (h : c.Nears t) (hsmall : c.isSmall) : c.Tallies t := by
  simp only [isSmall, Bool.and_eq_true] at hsmall
  obtain ⟨⟨⟨-, hmax⟩, -⟩, -⟩ := hsmall
  simp only [Tallies, counts, h.level, h.maxHp.eq hmax, h.experience, h.currentExperience]

theorem Tallies.addExperience (h : c.Tallies t) (hc : c.isSmall) {n : Nat}
    (hsmall : (c.addExperience (.finite n)).isSmall) :
    (c.addExperience (.finite n)).Tallies (t.gain n) := by
  obtain ⟨-, -, hexperience, hcurrent⟩ := (isSmall_iff h).1 hc
  simp only [isSmall, Bool.and_eq_true] at hsmall
  obtain ⟨⟨-, hsum⟩, hsum'⟩ := hsmall
  simp only [Tallies, counts, Prod.mk.injEq] at h ⊢
  obtain ⟨h₁, h₂, h₃, h₄⟩ := h
  have hadd : ∀ {x : Number} {z : Int}, x = .finite z → z.natAbs < 2 ^ 53 →
      (x + .finite n).isSmall → x + .finite n = .finite (z + n : Int) := by
    rintro _ z rfl hz hx
    have htracks : Number.Tracks (.finite z) z := .inl rfl
    exact (htracks.add (w := n) (by omega) (by omega)).eq hx
  exact ⟨h₁, h₂, hadd h₃ hexperience hsum, hadd h₄ hcurrent hsum'⟩

/-- **Gaining experience** climbs to the level that all of it is enough for. -/
theorem Tallies.advance (h : c.Tallies t) (ht : t.Proper) (hc : c.isSmall) {n : Nat}
    (hsmall : (c.addExperience (.finite n)).isSmall) :
    ∃ d events u, c.advance (.finite n) = some (d, events) ∧ d.Nears u ∧ t.Grows u n ∧
      u.Proper := by
  have hpositive : (0 : Number) < .finite n ↔ 0 < n := by
    exact_mod_cast Number.zero_lt_intCast (z := n)
  unfold Character.advance
  by_cases hn : 0 < n
  · rw [if_pos (hpositive.2 hn)]
    have hlow := ht.low
    have hgained := (h.addExperience hc hsmall).nears hsmall ht.level (by
      simp only [Tally.gain]
      omega)
    obtain ⟨d, events, u, hd, hu, hgrows, hproper⟩ := hgained.climb
    have hall := (t.grows_gain n).trans hgrows
    rw [add_zero] at hall
    exact ⟨d, events, u, hd, hu, hall, hproper⟩
  · rw [if_neg (mt hpositive.1 hn)]
    obtain rfl : n = 0 := by omega
    exact ⟨c, [], t, rfl, h.nears hc ht.level ht.low, .refl t, ht⟩

/-- A turn of a character's life: the changes and the damage that are applied to it. -/
abbrev Moment := Changes × Value

/-- What the turns of the game apply: a bundle that was reconciled, and damage that is an integer
and not negative. -/
structure Moment.Proper (m : Moment) : Prop where
  changes : ∃ (report : Resolution) (flag proposed : Value) (out : Reconciled Resolution)
    (remarks : List Event), reconcile report flag proposed = .ok (out, remarks) ∧ out.changes = m.1
  damage : ∃ n : Nat, m.2 = .number (.finite n)

/-- The experience that a bundle gains. -/
def Moment.gain (m : Moment) : Nat := m.1.experienceGained.toNat?.getD 0

theorem Moment.Proper.experienceGained {m : Moment} (h : m.Proper) :
    m.1.experienceGained = .finite m.gain := by
  obtain ⟨report, flag, proposed, out, remarks, hok, hout⟩ := h.changes
  obtain ⟨n, hn⟩ := Reconciled.exists_experienceGained hok
  rw [hout] at hn
  unfold Moment.gain
  rw [hn]
  simp [Number.toNat?]

/-- **A turn** gains its experience, and takes nothing else from the counts. -/
theorem Tallies.apply (h : c.Tallies t) (ht : t.Proper) (hc : c.isSmall) {m : Moment}
    (hm : m.Proper) (hsmall : (c.addExperience m.1.experienceGained).isSmall) :
    ∃ d events u, c.apply m.1 m.2 = .done (d, events) ∧ d.Nears u ∧ t.Grows u m.gain ∧
      u.Proper := by
  rw [hm.experienceGained] at hsmall
  obtain ⟨risen, events, u, hrisen, hu, hgrows, hproper⟩ := h.advance ht hc hsmall
  obtain ⟨n, hn⟩ := hm.damage
  have hdamage : checkSelfDamage m.2 = .ok (.finite n) := by
    rw [hn]
    exact_mod_cast checkSelfDamage_intCast (n := n) (by positivity)
  have hdone := apply_eq_done.2 ⟨.finite n, risen, hdamage, hm.experienceGained ▸ hrisen, rfl⟩
  exact ⟨_, events, u, hdone, hu.congr (by simp), hgrows, hproper⟩

/-! ## All turns -/

/-- A character after turns, one after the other. -/
def live : Character → List Moment → Outcome Character
  | c, [] => .done c
  | c, m :: rest =>
    match c.apply m.1 m.2 with
    | .done (d, _) => live d rest
    | .failed f => .failed f
    | .endless => .endless

/-- Whether all counts are small on the way through turns: before each of them, with the experience
that it gains, and after the last. -/
def staysSmall : Character → List Moment → Bool
  | c, [] => c.isSmall
  | c, m :: rest =>
    c.isSmall && (c.addExperience m.1.experienceGained).isSmall &&
      match c.apply m.1 m.2 with
      | .done (d, _) => staysSmall d rest
      | _ => true

theorem isSmall_of_staysSmall {ms : List Moment} (h : c.staysSmall ms) : c.isSmall := by
  cases ms with
  | nil => exact h
  | cons m rest =>
    simp only [staysSmall, Bool.and_eq_true] at h
    exact h.1.1

/-- The experience that turns gain, taken together. -/
def gains (ms : List Moment) : Nat := (ms.map Moment.gain).sum

theorem Tallies.live (h : c.Tallies t) (ht : t.Proper) {ms : List Moment}
    (hms : ∀ m ∈ ms, m.Proper) (hsmall : c.staysSmall ms) :
    ∃ d u, c.live ms = .done d ∧ d.Tallies u ∧ u.Proper ∧ t.Grows u (gains ms) := by
  induction ms generalizing c t with
  | nil => exact ⟨c, t, rfl, h, ht, .refl t⟩
  | cons m rest ih =>
    simp only [staysSmall, Bool.and_eq_true] at hsmall
    obtain ⟨⟨hc, hgained⟩, hrest⟩ := hsmall
    obtain ⟨d, events, u, hd, hu, hgrows, hproper⟩ :=
      h.apply ht hc (hms m List.mem_cons_self) hgained
    rw [hd] at hrest
    have htallies := hu.tallies (isSmall_of_staysSmall hrest)
    obtain ⟨e, v, he, hv, hproper', hgrows'⟩ :=
      ih htallies hproper (fun m hm => hms m (List.mem_cons_of_mem _ hm)) hrest
    refine ⟨e, v, ?_, hv, hproper', ?_⟩
    · rw [Character.live, hd]
      exact he
    · have hall := hgrows.trans hgrows'
      rw [gains, List.map_cons, List.sum_cons, Nat.cast_add]
      exact hall

theorem staysSmall_append {earlier later : List Moment} (h : c.staysSmall (earlier ++ later)) :
    c.staysSmall earlier ∧ ∀ d, c.live earlier = .done d → d.staysSmall later := by
  induction earlier generalizing c with
  | nil =>
    refine ⟨isSmall_of_staysSmall h, ?_⟩
    rintro d hd
    cases hd
    exact h
  | cons m rest ih =>
    simp only [List.cons_append, staysSmall, Bool.and_eq_true] at h ⊢
    obtain ⟨hsmall, hrest⟩ := h
    unfold Character.live
    cases hm : c.apply m.1 m.2 with
    | done r =>
      rw [hm] at hrest
      obtain ⟨hearlier, hlater⟩ := ih hrest
      exact ⟨⟨hsmall, hearlier⟩, hlater⟩
    | failed f => exact ⟨⟨hsmall, rfl⟩, fun d hd => by cases hd⟩
    | endless => exact ⟨⟨hsmall, rfl⟩, fun d hd => by cases hd⟩

/-- **The lifetime of a character.** Turns whose bundles were reconciled and whose damage is an
integer that is not negative, and which leave all counts small, come to an end one after the other.
At any moment the character is on a level that it cannot leave yet. From the beginning to this
moment, and from there on to any later one, the level has not fallen, the experience has grown by
exactly what the turns gained, none of it was lost or counted twice, and the most hit points have
followed the level. -/
theorem lifetime (hc : c.Tallies t) (ht : t.Proper) {earlier later : List Moment}
    (hms : ∀ m ∈ earlier ++ later, m.Proper) (hsmall : c.staysSmall (earlier ++ later)) :
    ∃ d u e v, c.live earlier = .done d ∧ d.live later = .done e ∧
      d.Tallies u ∧ u.Proper ∧ t.Grows u (gains earlier) ∧
      e.Tallies v ∧ v.Proper ∧ u.Grows v (gains later) := by
  obtain ⟨hearlier, hlater⟩ := staysSmall_append hsmall
  obtain ⟨d, u, hd, hu, hproper, hgrows⟩ :=
    hc.live ht (fun m hm => hms m (List.mem_append_left _ hm)) hearlier
  obtain ⟨e, v, he, hv, hproper', hgrows'⟩ :=
    hu.live hproper (fun m hm => hms m (List.mem_append_right _ hm)) (hlater d hd)
  exact ⟨d, u, e, v, hd, he, hu, hproper, hgrows, hv, hproper', hgrows'⟩

/-- A well-formed bundle is reconciled with a check that it does not use. -/
theorem Moment.proper_of_wellFormed {changes : Changes} (h : changes.WellFormed) (n : Nat) :
    Moment.Proper (changes, .number (.finite n)) := by
  let report : Resolution := .ofParts 10 2 8 .combat none
  have hunused : Value.null.isTrue = false := rfl
  have hok := reconcile_of_unused hunused report changes.toValue
  rw [Changes.ofValue?_toValue h] at hok
  exact ⟨⟨report, .null, changes.toValue, _, _, hok, rfl⟩, n, rfl⟩

/-- Two levels at once, a rest, and two levels more. -/
theorem lifetime_of_two_climbs :
    let hero : Character := ⟨"c1", "Mira", 1, 40, 100, 70, 70, ["torch"]⟩
    let raid : Moment := (⟨-5, 350, ["torch", "sword"], [], none, [], []⟩, .number 3)
    let rest : Moment := (⟨4, 0, [], ["torch"], none, [], []⟩, .number 0)
    let siege : Moment := (⟨0, 1000, [], [], none, [], []⟩, .number 0)
    let climbed : Character := ⟨"c1", "Mira", 3, 112, 120, 420, 120, ["torch", "sword"]⟩
    let grown : Character := ⟨"c1", "Mira", 5, 140, 140, 1420, 420, ["sword"]⟩
    hero.live [raid] = .done climbed ∧ climbed.live [rest, siege] = .done grown ∧
      ∃ u v, climbed.Tallies u ∧ u.Proper ∧ Tally.Grows ⟨1, 100, 70, 70⟩ u 350 ∧
        grown.Tallies v ∧ v.Proper ∧ u.Grows v 1000 := by
  intro hero raid rest siege climbed grown
  have hproper : ∀ m ∈ [raid] ++ [rest, siege], m.Proper := by
    simp only [List.cons_append, List.nil_append, List.forall_mem_cons]
    refine ⟨?_, ?_, ?_, by simp⟩
    · exact Moment.proper_of_wellFormed ⟨by decide, by decide⟩ 3
    · exact Moment.proper_of_wellFormed ⟨by decide, by decide⟩ 0
    · exact Moment.proper_of_wellFormed ⟨by decide, by decide⟩ 0
  have hsmall : hero.staysSmall ([raid] ++ [rest, siege]) := by decide +kernel
  have hclimbed : hero.live [raid] = .done climbed := by decide +kernel
  have hgrown : climbed.live [rest, siege] = .done grown := by decide +kernel
  obtain ⟨d, u, e, v, hd, he, hu⟩ := lifetime (c := hero) (t := ⟨1, 100, 70, 70⟩) rfl
    ⟨by decide, by decide, by decide⟩ hproper hsmall
  obtain rfl : climbed = d := Outcome.done.inj (hclimbed.symm.trans hd)
  obtain rfl : grown = e := Outcome.done.inj (hgrown.symm.trans he)
  exact ⟨hclimbed, hgrown, u, v, hu⟩

end Character

end Adventure
