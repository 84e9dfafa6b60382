import Adventure.Proofs.Check.Perform
import Adventure.Proofs.Turn.Course
/-!
# Words and categories change no number

The category of a check is for narrators and players to read. Where the same is asked of the same
dice, a check of another category is the same check with that category put in
(`performCheck_under`): as many dice are drawn, and whatever fails, fails alike.

So a player's words, and the category that is named or that the words suggest, go through a turn
without leaving a trace in it. Two turns of one session that differ in nothing else go from stage to
stage together (`Reworded.advance`), if their narrator answers both alike.
-/

namespace Adventure

/-- The same resolution, of another category. -/
def Resolution.under (c : Category) (r : Resolution) : Resolution := { r with category := c }

/-- The same result, with another category on the check that it shows, if it shows one. -/
def TurnResult.under (c : Category) (r : TurnResult) : TurnResult :=
  { r with resolution := r.resolution.map (Resolution.under c) }

/-! ## The check -/

/-- The category is taken over as it is, and looked at for nothing else. -/
theorem Resolution.create_under (roll modifier target damage : Value) (c c' : Category) :
    create ⟨roll, modifier, target, .string c'.name, damage⟩ =
      (create ⟨roll, modifier, target, .string c.name, damage⟩).map (under c') := by
  unfold create
  simp only [checkCategory_name]
  cases checkRoll roll with
  | error f => rfl
  | ok roll =>
    cases checkModifier modifier with
    | error f => rfl
    | ok modifier =>
      cases checkTarget target with
      | error f => rfl
      | ok target =>
        simp only [bind, Except.bind]
        cases checkDamage (labelOf roll (roll + modifier) target) roll damage <;> rfl

section
variable {σ : Type} [DiceSource σ]

/-- **A check of another category** is the same check with that category put in. -/
theorem performCheck_under (level tier : Value) (c c' : Category) :
    (performCheck level tier (.string c'.name) : Draw σ Resolution) =
      Resolution.under c' <$> performCheck level tier (.string c.name) := by
  unfold performCheck
  simp only [map_bind, Draw.map_lift, Resolution.create_under _ _ _ _ c c']

end

/-! ## What follows from it -/

/-- A check is reconciled without a look at its category. -/
theorem reconcile_under (c : Category) (r : Resolution) (flag proposed : Value) :
    reconcile (r.under c) flag proposed =
      (reconcile r flag proposed).map fun p =>
        ({ p.1 with shown := p.1.shown.map (Resolution.under c) }, p.2) := by
  unfold reconcile Reconciled.ofChanges
  cases Changes.ofValue? proposed with
  | error issues => rfl
  | ok changes =>
    have hverdict : Verdict.of (r.under c) flag.isTrue = Verdict.of r flag.isTrue := rfl
    have hforced (rule : VerdictRule) :
        Reconciled.forcedDamage rule (r.under c) = Reconciled.forcedDamage rule r := rfl
    have hshown (shows : Bool) : (if shows then some (r.under c) else none) =
        (if shows then some r else none).map (Resolution.under c) := by cases shows <;> rfl
    simp only [hverdict, hforced, hshown]
    cases Reconciled.forcedDamage (Verdict.of r flag.isTrue).rule r <;> rfl

/-- A narrator who tells the same story, in whatever words the action was put and whatever the
category of its check was. One with a fixed answer is such a narrator. -/
def DeafToWords (narrator : Narrator) : Prop :=
  ∀ (q : NarrativeRequest) (words : String) (c : Category),
    narrator { q with action := words, resolution := q.resolution.under c } = narrator q

namespace Turn

/-- The category of an input's action: the player's own, or the one that the words suggest. -/
def categoryOf (input : TurnInput) : Category := input.category.getD (.classify input.action)

/-- What is settled for a scene in other words. -/
theorem settle_under (scene : Scene) (j : TurnInput) (c : Category) (r : Resolution)
    (narration : Narration) :
    (settle { scene with input := j } (r.under c) narration).1 =
      (settle scene r narration).1.map fun p => (p.1, p.2.under c) := by
  unfold settle
  rw [reconcile_under]
  cases reconcile r narration.mechanicsApplied narration.changes with
  | error f => rfl
  | ok p =>
    obtain ⟨reconciled, remarks⟩ := p
    simp only [Except.map]
    cases scene.character.apply reconciled.changes reconciled.selfDamage <;> rfl

variable {σ : Type} [DiceSource σ]

/-- The check of a scene in other words draws what the check of the scene draws. -/
theorem run_check_under (default : Tier) (d : σ) (scene : Scene) (j : TurnInput) :
    (check default { scene with input := j }).run d =
      (((check default scene).run d).1.map (Resolution.under (categoryOf j)),
        ((check default scene).run d).2) := by
  rw [← Draw.run_map]
  exact congrArg (fun x : Draw σ Resolution => x.run d) (performCheck_under _ _ _ _)

/-! ## Two turns that differ in their words -/

/-- What a turn leaves of its dice in `n` steps: all of them, unless it plays its scene. -/
def diceAfter (table : Table σ) : Nat → Turn → Store → σ
  | 0, _, _ => table.dice
  | n + 1, t, s =>
    match t.stage with
    | .framed scene => (play table scene s).2
    | _ => diceAfter table n (t.advance table s).1 (t.advance table s).2

/-- Two stages of turns with the inputs `i` and `j`, given by the values `v` and `w`, that are alike
in everything else. -/
inductive Reworded (v w : Value) (i j : TurnInput) : Stage → Stage → Prop
  | opened : Reworded v w i j (.opened v) (.opened w)
  | located (session) : Reworded v w i j (.located i session) (.located j session)
  | cast (session character) :
      Reworded v w i j (.cast i session character) (.cast j session character)
  | framed (session character scenario) :
      Reworded v w i j (.framed ⟨i, session, character, scenario⟩)
        (.framed ⟨j, session, character, scenario⟩)
  | settled (c r) : Reworded v w i j (.settled c r) (.settled c (r.under (categoryOf j)))
  | closed (o) :
      Reworded v w i j (.closed o) (.closed (o.map (TurnResult.under (categoryOf j))))

variable {table : Table σ} {v w : Value} {i j : TurnInput}

theorem locate_reworded (hv : TurnInput.ofValue? v = .ok i) (hw : TurnInput.ofValue? w = .ok j)
    (hid : i.sessionId = j.sessionId) (s : Store) :
    locate s w = (locate s v).map fun p => (j, p.2) := by
  unfold locate
  simp only [hv, hw, ← hid]
  cases s.session? i.sessionId with
  | none => rfl
  | some session =>
    dsimp only
    split <;> rfl

theorem reworded_stageOf (o : Outcome (TurnCommit × TurnResult)) :
    Reworded v w i j (stageOf o) (stageOf (o.map fun p => (p.1, p.2.under (categoryOf j)))) := by
  cases o with
  | done p => exact .settled p.1 p.2
  | failed f => exact .closed (.failed f)
  | endless => exact .closed .endless

/-- **Playing a scene in other words** leads to the same store and draws the same dice. -/
theorem play_reworded (hdeaf : DeafToWords table.narrator) (scene : Scene) (s : Store) :
    Reworded v w scene.input j (play table scene s).1.1.stage
        (play table { scene with input := j } s).1.1.stage ∧
      (play table { scene with input := j } s).1.2 = (play table scene s).1.2 ∧
      (play table { scene with input := j } s).2 = (play table scene s).2 := by
  have hcheck := run_check_under table.defaultDifficulty table.dice scene j
  unfold play
  rcases hrun : (check table.defaultDifficulty scene).run table.dice with ⟨x, dice⟩
  rw [hrun] at hcheck
  cases x with
  | error f =>
    rw [hcheck]
    exact ⟨.closed (.failed (.fault f)), rfl, rfl⟩
  | ok resolution =>
    have htold : table.narrator
          (requestOf { scene with input := j } (resolution.under (categoryOf j))) =
        table.narrator (requestOf scene resolution) :=
      hdeaf (requestOf scene resolution) j.action (categoryOf j)
    simp only [hcheck, Except.map, htold]
    cases (table.narrator (requestOf scene resolution)).answer with
    | error f => exact ⟨.closed (.failed f), rfl, rfl⟩
    | ok narration =>
      refine ⟨?_, rfl, rfl⟩
      dsimp only
      rw [settle_under]
      exact reworded_stageOf _

/-- **A step of both turns** leads to stages that are alike again, and to the same store. -/
theorem Reworded.advance (hdeaf : DeafToWords table.narrator)
    (hv : TurnInput.ofValue? v = .ok i) (hw : TurnInput.ofValue? w = .ok j)
    (hid : i.sessionId = j.sessionId) {t t' : Turn} (h : Reworded v w i j t.stage t'.stage)
    (s : Store) :
    Reworded v w i j (t.advance table s).1.stage (t'.advance table s).1.stage ∧
      (t'.advance table s).2 = (t.advance table s).2 := by
  obtain ⟨stage, q, e⟩ := t
  obtain ⟨stage', q', e'⟩ := t'
  dsimp only at h
  cases h with
  | opened =>
    simp only [Turn.advance, locate_reworded hv hw hid s]
    cases hl : locate s v with
    | error f => exact ⟨.closed (.failed (.fault f)), rfl⟩
    | ok p =>
      obtain ⟨input, session⟩ := p
      obtain ⟨hread, -⟩ := locate_eq_ok.1 hl
      cases hv.symm.trans hread
      exact ⟨.located session, rfl⟩
  | located session =>
    simp only [Turn.advance]
    cases findCharacter s session with
    | error f => exact ⟨.closed (.failed (.fault f)), rfl⟩
    | ok character => exact ⟨.cast session character, rfl⟩
  | cast session character =>
    exact ⟨.framed session character (s.scenario? session.scenarioId), rfl⟩
  | framed session character scenario =>
    obtain ⟨hstage, hstore, -⟩ := play_reworded hdeaf ⟨i, session, character, scenario⟩ s
    exact ⟨hstage, hstore⟩
  | settled c r =>
    simp only [Turn.advance]
    cases s.commit c table.now with
    | error f => exact ⟨.closed (.failed (.fault f)), rfl⟩
    | ok s' => exact ⟨.closed (.done r), rfl⟩
  | closed o => exact ⟨.closed o, rfl⟩

/-- **Any number of steps** of both turns, which leave the same of the dice. -/
theorem Reworded.advanceBy (hdeaf : DeafToWords table.narrator)
    (hv : TurnInput.ofValue? v = .ok i) (hw : TurnInput.ofValue? w = .ok j)
    (hid : i.sessionId = j.sessionId) (n : Nat) {t t' : Turn}
    (h : Reworded v w i j t.stage t'.stage) (s : Store) :
    Reworded v w i j (advanceBy table n t s).1.stage (advanceBy table n t' s).1.stage ∧
      (advanceBy table n t' s).2 = (advanceBy table n t s).2 ∧
      diceAfter table n t' s = diceAfter table n t s := by
  induction n generalizing t t' s with
  | zero => exact ⟨h, rfl, rfl⟩
  | succ n ih =>
    obtain ⟨hstage, hstore⟩ := h.advance hdeaf hv hw hid s
    obtain ⟨hstages, hstores, hdice⟩ := ih hstage (t.advance table s).2
    unfold Turn.advanceBy diceAfter
    dsimp only
    rw [hstore]
    refine ⟨hstages, hstores, ?_⟩
    obtain ⟨stage, q, e⟩ := t
    obtain ⟨stage', q', e'⟩ := t'
    dsimp only at h
    cases h with
    | framed session character scenario =>
      obtain ⟨-, -, hdrawn⟩ := play_reworded (v := v) (w := w) (j := j) hdeaf
        ⟨i, session, character, scenario⟩ s
      exact hdrawn
    | _ => exact hdice

/-! ## The whole turn -/

/-- **Words and categories never influence the numbers.** Two runs of a turn whose inputs name one
session and may differ in the words of the action and in its category, named or suggested by the
words, leave one store and the same of their dice, which may be any source, also one that keeps a
record of all it gives out. And they come to one end: both resolve, and the two results are equal but
for the category of the check that they show; or both fail with the same failure; or neither comes
to an end. For a check alone, whatever is asked of it, the category is what differs, and nothing
else. -/
theorem wording_changes_no_number (hdeaf : DeafToWords table.narrator)
    (hv : TurnInput.ofValue? v = .ok i) (hw : TurnInput.ofValue? w = .ok j)
    (hid : i.sessionId = j.sessionId) (s : Store) :
    (run table w s).2 = (run table v s).2 ∧
    diceAfter table stepCount (start w) s = diceAfter table stepCount (start v) s ∧
    outcome? (run table w s).1 =
      (outcome? (run table v s).1).map (Outcome.map (TurnResult.under (categoryOf j))) ∧
    ∀ (level tier : Value) (c c' : Category) (d : σ),
      (performCheck level tier (.string c'.name)).run d =
        (((performCheck level tier (.string c.name)).run d).1.map (Resolution.under c'),
          ((performCheck level tier (.string c.name)).run d).2) := by
  have hstart : Reworded v w i j (start v).stage (start w).stage := .opened
  obtain ⟨hstage, hstore, hdice⟩ := hstart.advanceBy hdeaf hv hw hid stepCount s
  refine ⟨hstore, hdice, ?_, ?_⟩
  · obtain ⟨o, ho⟩ := run_closed table v s
    have hclosed : (run table v s).1.stage = .closed o := outcome?_eq_some.1 ho
    change Reworded v w i j (run table v s).1.stage (run table w s).1.stage at hstage
    generalize hother : (run table w s).1.stage = stage at hstage
    rw [hclosed] at hstage
    cases hstage with
    | closed =>
      rw [ho]
      exact outcome?_eq_some.2 hother
  · intro level tier c c' d
    rw [performCheck_under level tier c c', Draw.run_map]

/-- A fight and a talk with the same door, of which the second is said to be social: the same fumble
of three, and the same hero in the end. -/
theorem wording_changes_no_number_in_a_fumble :
    let narrator := SmallGame.narrator { Changes.nothing with hpChange := -2 } true []
    let table : Table Scripted := ⟨.hard, .ofValues [.number 1, .number 3, .number 7], narrator, 7⟩
    let fight : Value :=
      .object [("sessionId", .string SmallGame.id), ("action", .string "Attack the door")]
    let talk : Value :=
      .object [("sessionId", .string SmallGame.id), ("action", .string " 설득한다 "),
        ("category", .string "SOCIAL")]
    let fought := run table fight SmallGame.store
    let talked := run table talk SmallGame.store
    talked.2 = fought.2 ∧
    diceAfter table stepCount (start fight) SmallGame.store = ⟨[.number 7], 2⟩ ∧
    diceAfter table stepCount (start talk) SmallGame.store = ⟨[.number 7], 2⟩ ∧
    ∃ r, outcome? fought.1 = some (.done r) ∧ outcome? talked.1 = some (.done (r.under .social)) ∧
      r.resolution.map Resolution.category = some .combat ∧ r.character.hp = 15 := by
  intro narrator table fight talk fought talked
  have hfight : TurnInput.ofValue? fight = .ok ⟨SmallGame.id, "Attack the door", none⟩ := by
    decide +kernel
  have htalk : TurnInput.ofValue? talk = .ok ⟨SmallGame.id, "설득한다", some .social⟩ := by
    decide +kernel
  have hdeaf : DeafToWords table.narrator := fun _ _ _ => rfl
  obtain ⟨hstore, hdice, hends, -⟩ :=
    wording_changes_no_number hdeaf hfight htalk rfl SmallGame.store
  have hdrawn : diceAfter table stepCount (start fight) SmallGame.store = ⟨[.number 7], 2⟩ := by
    decide +kernel
  have hshown : (result? fought.1).map (fun r =>
      (r.resolution.map Resolution.category, r.character.hp)) = some (some .combat, 15) := by
    decide +kernel
  obtain ⟨r, hr, hparts⟩ := Option.map_eq_some_iff.1 hshown
  obtain ⟨hcategory, hhp⟩ := Prod.mk.inj hparts
  have hdone := result?_eq_some.1 hr
  refine ⟨hstore, hdrawn, hdice.trans hdrawn, r, hdone, ?_, hcategory, hhp⟩
  have hother : outcome? talked.1 = (outcome? fought.1).map (Outcome.map (TurnResult.under .social)) :=
    hends
  rw [hother, hdone]
  rfl

end Turn

end Adventure
