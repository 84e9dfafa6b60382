import Adventure.Proofs.Check.Perform
import Adventure.Proofs.Story.Climb
import Adventure.Proofs.Turn.Agreement
import Adventure.Proofs.Turn.Unbroken
/-!
# Dice that are not used do not leak

A check is made in every turn, and where the narration does without it, nobody may learn how it came
out. Two turns that differ in their dice only then go from stage to stage together
(`advance_withDice`), and so they end in one way and with one store (`dice_do_not_leak`). The one way
in which a turn does not end has nothing to do with dice either (`run_endless`); that there is one at
all is the only thing that keeps the two turns from both resolving or both failing
(`dragon_hunt_never_ends`).

There are two ways for dice to leak that the flag of the narration does not close. A check can fail
before anything is narrated; whether it does is not up to the dice. And a narrator is told of the
check; so it has to be heedless of it.
-/

namespace Adventure

variable {σ τ : Type}

/-- The same table with other dice. -/
def Table.withDice (table : Table σ) (dice : τ) : Table τ :=
  ⟨table.defaultDifficulty, dice, table.narrator, table.now⟩

/-- A narrator who answers the same whatever the check was. -/
def Heedless (narrator : Narrator) : Prop :=
  ∀ q resolution, narrator { q with resolution := resolution } = narrator q

/-- A narrator who never says that it used the check: anything but `true` says that it did not. -/
def LeavesAside (narrator : Narrator) : Prop :=
  ∀ q narration, (narrator q).answer = .ok narration → narration.mechanicsApplied ≠ .bool true

theorem Value.isTrue_eq_false {v : Value} (h : v ≠ .bool true) : v.isTrue = false := by
  cases v with
  | bool b => cases b <;> simp_all [isTrue]
  | _ => rfl

namespace Turn

/-! ## What is settled without the check -/

theorem settle_of_unused {narration : Narration} (h : narration.mechanicsApplied.isTrue = false)
    (scene : Scene) (a b : Resolution) : settle scene a narration = settle scene b narration := by
  unfold settle
  rw [reconcile_of_unused h a, reconcile_of_unused h b]

variable [DiceSource σ] [DiceSource τ]

/-- A commit that is settled without the check is made of the proposal alone. -/
theorem Settles.of_unused {table : Table σ} {scene : Scene} {q : NarrativeRequest} {c : TurnCommit}
    {r : TurnResult} {narration : Narration} (h : Settles table scene q c r)
    (told : (table.narrator q).answer = .ok narration)
    (unused : narration.mechanicsApplied.isTrue = false) :
    r.verdict = .nonMechanical ∧ r.resolution = none ∧
      Changes.ofValue? narration.changes = .ok r.changes ∧
      ∃ climbs, scene.character.apply r.changes (.number 0) = .done (c.character, climbs) := by
  obtain ⟨_, told', judged, lived⟩ := h
  cases told.symm.trans told'
  rw [reconcile_of_unused unused] at judged
  cases hp : Changes.ofValue? narration.changes with
  | error issues =>
    rw [hp] at judged
    cases judged
  | ok p =>
    rw [hp] at judged
    cases judged
    exact ⟨rfl, rfl, rfl, _, lived⟩

/-! ## Two turns with one table but for the dice -/

variable {table : Table σ} {dice : τ}

theorem play_of_fails {table : Table σ} {scene : Scene} {f : Fault}
    (h : (check table.defaultDifficulty scene).Fails table.dice f) (s : Store) :
    (play table scene s).1 = (refuse f, s) := by
  unfold play
  rcases hr : (check table.defaultDifficulty scene).run table.dice with ⟨x, d⟩
  have hx : x = .error f := (congrArg Prod.fst hr).symm.trans h
  subst hx
  rfl

/-- **Playing a scene** leads to one stage and one store, whatever is rolled. -/
theorem play_withDice (fair : Fair table.dice) (fair' : Fair dice)
    (heedless : Heedless table.narrator) (aside : LeavesAside table.narrator) (scene : Scene)
    (s : Store) :
    (play (table.withDice dice) scene s).1.1.stage = (play table scene s).1.1.stage ∧
      (play (table.withDice dice) scene s).1.2 = (play table scene s).1.2 := by
  rcases performCheck_cases (.number scene.character.level)
    (difficulty table.defaultDifficulty scene) (category scene) with ⟨f, hf⟩ | hg
  · -- The check fails with both dice.
    have hone : (check table.defaultDifficulty scene).Fails table.dice f := hf table.dice fair
    have hother : (check (table.withDice dice).defaultDifficulty scene).Fails
        (table.withDice dice).dice f := hf dice fair'
    rw [play_of_fails hone, play_of_fails hother]
    exact ⟨rfl, rfl⟩
  · obtain ⟨a, d, ha⟩ := hg table.dice fair
    obtain ⟨b, d', hb⟩ := hg dice fair'
    have ha : (check table.defaultDifficulty scene).run table.dice = (.ok a, d) := ha
    have hb : (check table.defaultDifficulty scene).run dice = (.ok b, d') := hb
    have htold : table.narrator (requestOf scene b) = table.narrator (requestOf scene a) :=
      heedless (requestOf scene a) b
    unfold play
    simp only [Table.withDice, ha, hb, htold]
    cases hn : (table.narrator (requestOf scene a)).answer with
    | error f => exact ⟨rfl, rfl⟩
    | ok narration =>
      have hsettle := settle_of_unused (Value.isTrue_eq_false (aside _ _ hn)) scene b a
      exact ⟨congrArg (fun o => stageOf o.1) hsettle, rfl⟩

/-- **A step of both turns** leads from one stage to one stage. -/
theorem advance_withDice (fair : Fair table.dice) (fair' : Fair dice)
    (heedless : Heedless table.narrator) (aside : LeavesAside table.narrator) {t t' : Turn}
    (h : t'.stage = t.stage) (s : Store) :
    (t'.advance (table.withDice dice) s).1.stage = (t.advance table s).1.stage ∧
      (t'.advance (table.withDice dice) s).2 = (t.advance table s).2 := by
  unfold advance
  rw [h]
  cases t.stage with
  | opened v => cases locate s v <;> exact ⟨rfl, rfl⟩
  | located input session => cases findCharacter s session <;> exact ⟨rfl, rfl⟩
  | cast input session character => exact ⟨rfl, rfl⟩
  | framed scene => exact play_withDice fair fair' heedless aside scene s
  | settled c r =>
    simp only [Table.withDice]
    cases s.commit c table.now <;> exact ⟨rfl, rfl⟩
  | closed o => exact ⟨h, rfl⟩

theorem advanceBy_withDice (fair : Fair table.dice) (fair' : Fair dice)
    (heedless : Heedless table.narrator) (aside : LeavesAside table.narrator) (n : Nat) {t t' : Turn}
    (h : t'.stage = t.stage) (s : Store) :
    (advanceBy (table.withDice dice) n t' s).1.stage = (advanceBy table n t s).1.stage ∧
      (advanceBy (table.withDice dice) n t' s).2 = (advanceBy table n t s).2 := by
  induction n generalizing t t' s with
  | zero => exact ⟨h, rfl⟩
  | succ n ih =>
    obtain ⟨hstage, hstore⟩ := advance_withDice fair fair' heedless aside h s
    unfold advanceBy
    dsimp only
    rw [hstore]
    exact ih hstage (t.advance table s).2

/-! ## Turns that do not end -/

/-- The narrator of a turn has proposed experience with which the climb of the hero never ends. -/
def ClimbsForever (table : Table σ) (t : Turn) : Prop :=
  ∃ q narration changes, t.request = some q ∧ (table.narrator q).answer = .ok narration ∧
    Changes.ofValue? narration.changes = .ok changes ∧
    q.character.advance changes.experienceGained = none

theorem settle_endless {scene : Scene} {resolution : Resolution} {narration : Narration}
    (h : (settle scene resolution narration).1 = .endless) :
    ∃ changes, Changes.ofValue? narration.changes = .ok changes ∧
      scene.character.advance changes.experienceGained = none := by
  unfold settle at h
  split at h
  · cases h
  · rename_i reconciled remarks hr
    obtain ⟨p, hp, -, hchanges, -⟩ := reconcile_eq_ok.1 hr
    have hgained : reconciled.changes.experienceGained = p.experienceGained := by
      rw [hchanges]
      split <;> rfl
    split at h
    · cases h
    · rename_i hlived
      exact ⟨p, hp, hgained ▸ Character.apply_eq_endless hlived⟩
    · cases h

theorem play_endless {scene : Scene} {s : Store}
    (h : (play table scene s).1.1.stage = .closed .endless) :
    ClimbsForever table (play table scene s).1.1 := by
  unfold play at h ⊢
  split at h
  · cases h
  · rename_i resolution d hcheck
    dsimp only at h ⊢
    cases hn : (table.narrator (requestOf scene resolution)).answer with
    | error f =>
      rw [hn] at h
      cases h
    | ok narration =>
      rw [hn] at h
      have h : stageOf (settle scene resolution narration).1 = .closed .endless := h
      have hendless : (settle scene resolution narration).1 = .endless := by
        rcases ho : (settle scene resolution narration).1 with ⟨c, r⟩ | f | _
        · rw [ho] at h
          cases h
        · rw [ho] at h
          cases h
        · rfl
      obtain ⟨p, hp, hgained⟩ := settle_endless hendless
      exact ⟨_, narration, p, rfl, hn, hp, hgained⟩

/-- Only the step that plays the scene can fail to end. -/
theorem advance_endless {t : Turn} {s : Store}
    (ht : t.stage = .closed .endless → ClimbsForever table t)
    (h : (t.advance table s).1.stage = .closed .endless) :
    ClimbsForever table (t.advance table s).1 := by
  unfold advance at h ⊢
  cases hstage : t.stage with
  | opened v =>
    simp only [hstage] at h
    cases hl : locate s v <;> rw [hl] at h <;> cases h
  | located input session =>
    simp only [hstage] at h
    cases hf : findCharacter s session <;> rw [hf] at h <;> cases h
  | cast input session character =>
    simp only [hstage] at h
    cases h
  | framed scene =>
    simp only [hstage] at h
    exact play_endless h
  | settled c r =>
    simp only [hstage] at h
    cases hc : s.commit c table.now <;> rw [hc] at h <;> cases h
  | closed o =>
    simp only [hstage] at h
    exact ht (hstage.trans h)

/-- **A turn that does not end is one whose hero climbs for ever.** -/
theorem run_endless {v : Value} {s : Store} (h : outcome? (run table v s).1 = some .endless) :
    ClimbsForever table (run table v s).1 := by
  have hall (n : Nat) : (advanceBy table n (start v) s).1.stage = .closed .endless →
      ClimbsForever table (advanceBy table n (start v) s).1 := by
    induction n with
    | zero =>
      intro hn
      cases hn
    | succ n ih =>
      intro hn
      rw [advanceBy_succ] at hn ⊢
      exact advance_endless ih hn
  exact hall stepCount (outcome?_eq_some.1 h)

/-- Conversely, a narration that does without the check and makes the hero climb for ever is never
settled. -/
theorem settle_endless_of_unused {scene : Scene} {narration : Narration} {changes : Changes}
    (unused : narration.mechanicsApplied.isTrue = false)
    (proposed : Changes.ofValue? narration.changes = .ok changes)
    (climbs : scene.character.advance changes.experienceGained = none) (resolution : Resolution) :
    (settle scene resolution narration).1 = .endless := by
  have hzero : Character.checkSelfDamage (.number 0) = .ok 0 := rfl
  simp only [settle, reconcile_of_unused unused, proposed, Except.mapError, Except.map,
    Character.apply, hzero, climbs]

/-- A turn never ends if it comes to its check, whatever is rolled, and is narrated like that. -/
theorem run_endless_of_unused {scene : Scene} {v : Value} {s : Store} {resolution : Resolution}
    {left : σ} {narration : Narration} {changes : Changes}
    (read : scene.From (fun _ u => u = s) v)
    (checked : (check table.defaultDifficulty scene).Gives table.dice resolution left)
    (told : (table.narrator (requestOf scene resolution)).answer = .ok narration)
    (unused : narration.mechanicsApplied.isTrue = false)
    (proposed : Changes.ofValue? narration.changes = .ok changes)
    (climbs : scene.character.advance changes.experienceGained = none) :
    outcome? (run table v s).1 = some .endless := by
  have hplay : (play table scene s).1.1.stage = .closed .endless := by
    unfold Draw.Gives at checked
    simp only [play, checked, told, settle_endless_of_unused unused proposed climbs, stageOf]
  rw [run_eq_of_from read]
  refine outcome?_eq_some.2 ?_
  simp only [advanceBy, advance, reached]
  rw [hplay]
  exact hplay

/-! ## The whole turn -/

/-- **Dice cannot leak into a turn that does without them.** Two runs of a turn whose dice are fair,
and whose narrator minds no check and never says that it used one, leave one store and come to one
end: both resolve, and the player is told the same and shown no check; or both fail with the same
failure; or neither comes to an end, since the experience that the narrator gives, the same in both,
makes the hero climb for ever. -/
theorem dice_do_not_leak (fair : Fair table.dice) (fair' : Fair dice)
    (heedless : Heedless table.narrator) (aside : LeavesAside table.narrator) (v : Value)
    (s : Store) :
    (run (table.withDice dice) v s).2 = (run table v s).2 ∧
    ((∃ r, outcome? (run table v s).1 = some (.done r) ∧
        outcome? (run (table.withDice dice) v s).1 = some (.done r) ∧
        r.resolution = none ∧ r.shownCheck = .null) ∨
      (∃ f, outcome? (run table v s).1 = some (.failed f) ∧
        outcome? (run (table.withDice dice) v s).1 = some (.failed f)) ∨
      (outcome? (run table v s).1 = some .endless ∧
        outcome? (run (table.withDice dice) v s).1 = some .endless ∧
        ClimbsForever table (run table v s).1)) := by
  obtain ⟨hstage, hstore⟩ := advanceBy_withDice fair fair' heedless aside stepCount
    (rfl : (start v).stage = (start v).stage) s
  refine ⟨hstore, ?_⟩
  obtain ⟨o, ho⟩ := run_closed table v s
  have ho' : outcome? (run (table.withDice dice) v s).1 = some o :=
    outcome?_eq_some.2 (hstage.trans (outcome?_eq_some.1 ho))
  cases o with
  | done r =>
    obtain ⟨c, ⟨scene, q, -, hsettles, -⟩, -⟩ := run_done ho
    obtain ⟨narration, htold, -⟩ := hsettles.relays
    obtain ⟨hverdict, hresolution, -⟩ :=
      hsettles.of_unused htold (Value.isTrue_eq_false (aside _ _ htold))
    refine .inl ⟨r, ho, ho', hresolution, ?_⟩
    rw [TurnResult.shownCheck, hresolution]
    rfl
  | failed f => exact .inr (.inl ⟨f, ho, ho'⟩)
  | endless => exact .inr (.inr ⟨ho, ho', run_endless ho⟩)

/-- Dice that always show the highest face. -/
structure Lifted where

instance : DiceSource Lifted where
  range low high := match high with
    | .number face => pure face
    | _ => throw (.invalidRange low high)

theorem fair_lifted (d : Lifted) : Fair d :=
  ⟨fun _ => True, trivial, fun d _ _ high hr =>
    ⟨high, d, Draw.gives_pure _ d, hr.ordered, Int.le_refl high, trivial⟩⟩

/-- A fumble and a critical hit, and a narrator who says "true" in a text: the same wound and the
same sword, and nothing of the dice. -/
theorem dice_do_not_leak_from_the_outermost_rolls :
    let changes : Changes := { Changes.nothing with hpChange := -3, itemsGained := ["sword"] }
    let narrator : Narrator := fun _ =>
      ⟨.ok ⟨.string "The door opens.", .array [], changes.toValue, .string "true"⟩, [], []⟩
    let table : Table Loaded := ⟨.hard, ⟨⟩, narrator, 7⟩
    let low := run table SmallGame.input SmallGame.store
    let high := run (table.withDice (⟨⟩ : Lifted)) SmallGame.input SmallGame.store
    low.1.request.map (fun q => q.resolution.roll) = some 1 ∧
    high.1.request.map (fun q => q.resolution.roll) = some 20 ∧
    high.2 = low.2 ∧ ∃ r, outcome? low.1 = some (.done r) ∧ outcome? high.1 = some (.done r) ∧
      r.resolution = none := by
  intro changes narrator table low high
  have hlow : low.1.request.map (fun q => q.resolution.roll) = some 1 := by decide +kernel
  have hhigh : high.1.request.map (fun q => q.resolution.roll) = some 20 := by decide +kernel
  have hdone : (result? low.1).isSome = true := by decide +kernel
  obtain ⟨r, hr⟩ := Option.isSome_iff_exists.1 hdone
  have h := result?_eq_some.1 hr
  have haside : LeavesAside table.narrator := by
    intro q narration ht
    cases ht
    simp
  obtain ⟨hstore, hends⟩ := dice_do_not_leak (fair_loaded _) (fair_lifted ⟨⟩) (fun _ _ => rfl) haside
    SmallGame.input SmallGame.store
  refine ⟨hlow, hhigh, hstore, ?_⟩
  rcases hends with ⟨r', hone, hother, hnone, -⟩ | ⟨f, hone, -⟩ | ⟨hone, -⟩
  · exact ⟨r', hone, hother, hnone⟩
  · cases h.symm.trans hone
  · cases h.symm.trans hone

/-! ## A turn without end

A hero on the first level, and a narrator who gives `1e300` for a dragon: a turn that neither resolves
nor fails. -/

namespace DragonHunt

def changes : Changes := { Changes.nothing with experienceGained := Decimal.toNumber ⟨1, 300⟩ }

def narrator : Narrator := fun _ =>
  ⟨.ok ⟨.string "The dragon falls.", .array [], changes.toValue, .bool false⟩, [], []⟩

def scene : Scene :=
  ⟨⟨SmallGame.id, "open the door", none⟩, ⟨SmallGame.id, "hero", "crypt", .active, "gate", .empty⟩,
    SmallGame.hero, none⟩

theorem scene_read : scene.From (fun _ u => u = SmallGame.store) SmallGame.input :=
  Scene.from_iff.2 ⟨by decide +kernel, rfl, rfl⟩

theorem climbs : SmallGame.hero.advance changes.experienceGained = none :=
  (Character.lost_of_first_level rfl rfl).advance_eq_none (by decide +kernel)

theorem leavesAside : LeavesAside narrator := by
  intro q narration ht
  cases ht
  simp

/-- No fair dice bring the turn to an end. -/
theorem never_ends {dice : τ} (fair : Fair dice) :
    outcome? (run ⟨.hard, dice, narrator, 7⟩ SmallGame.input SmallGame.store).1 =
      some .endless := by
  have hlevel : Progression.isLevel scene.character.level := by decide
  have hheld : scene.character.level.Held := Number.ofRat_intCast (n := 1) (by decide)
  have hproposed : Changes.ofValue? changes.toValue = .ok changes := by decide +kernel
  obtain ⟨roll, damage, left, hchecked, -⟩ :=
    gives_performCheck fair hlevel hheld .hard (category scene)
  exact run_endless_of_unused scene_read hchecked rfl rfl hproposed climbs

end DragonHunt

/-- The lowest and the highest dice: the check is left aside, and neither turn resolves or fails. -/
theorem dragon_hunt_never_ends :
    let table : Table Loaded := ⟨.hard, ⟨⟩, DragonHunt.narrator, 7⟩
    let low := outcome? (run table SmallGame.input SmallGame.store).1
    let high := outcome? (run (table.withDice (⟨⟩ : Lifted)) SmallGame.input SmallGame.store).1
    Heedless table.narrator ∧ LeavesAside table.narrator ∧
      Fair table.dice ∧ Fair (⟨⟩ : Lifted) ∧
      ¬ ((∃ r, low = some (.done r) ∧ high = some (.done r)) ∨
        ∃ f, low = some (.failed f) ∧ high = some (.failed f)) ∧
      low = some .endless ∧ high = some .endless := by
  intro table low high
  have hlow : low = some .endless := DragonHunt.never_ends (fair_loaded _)
  have hhigh : high = some .endless := DragonHunt.never_ends (fair_lifted _)
  refine ⟨fun _ _ => rfl, DragonHunt.leavesAside, fair_loaded _, fair_lifted _, ?_, hlow, hhigh⟩
  rintro (⟨r, hr, -⟩ | ⟨f, hf, -⟩)
  · cases hlow.symm.trans hr
  · cases hlow.symm.trans hf

end Turn

end Adventure
