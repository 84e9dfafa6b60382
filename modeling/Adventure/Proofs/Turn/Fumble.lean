import Adventure.Proofs.Turn.Unused
/-!
# A fumble costs its damage

A fumble is a failure that hurts. Two turns that differ in their dice only, of which one rolls a
fumble and the other one misses its target, leave the same behind but for the damage
(`fumble_costs_its_damage`). It comes last: after the climb, which restores all hit points, and after
the narrator's own change, which healing caps, so neither makes up for it.

The damage is taken by one subtraction, which is rounded like every operation. Among integers that
are exact it is what it says; beyond them it can be lost (`fumble_is_lost_among_inexact_integers`).
-/

namespace Adventure

/-- The row of a character who has taken damage; the rows of others stay as they are. -/
def CharacterRow.wound (id : String) (damage : Number) (row : CharacterRow) : CharacterRow :=
  if row.character.id = id then { row with character := row.character.takeDamage damage } else row

/-- The row of a session that ended in defeat, if its hero has fallen; other rows stay as they
are. -/
def SessionRow.fall (id : String) (fallen : Bool) (row : SessionRow) : SessionRow :=
  if fallen && row.isOpen id then { row with status := .completed, ending := some .defeat } else row

/-! ## Two commits to one store -/

namespace Store

variable {c c' : TurnCommit}

/-- Damage in the character that is committed shows in its rows and nowhere else. -/
theorem characters_write_wound {damage : Number}
    (h : c.character = c'.character.takeDamage damage) (s : Store) (now : Instant) :
    (s.write c now).characters =
      (s.write c' now).characters.map (CharacterRow.wound c'.character.id damage) := by
  rw [write, write, List.map_map]
  refine List.map_congr_left fun row _ => ?_
  have hid : c.character.id = c'.character.id := by rw [h, Character.takeDamage]
  rw [Function.comp_apply]
  unfold CharacterRow.touch CharacterRow.wound
  by_cases hr : row.character.id = c'.character.id
  · rw [if_pos (hr.trans hid.symm), if_pos hr, if_pos (by exact hr), CharacterRow.update, h]
    rfl
  · rw [if_neg (hid ▸ hr), if_neg hr, if_neg hr]

/-- A commit that ends its session is one that does not, and then the session ends. -/
theorem sessions_write_fall {fallen : Bool} (h : c.ending = if fallen then some .defeat else none)
    (s : Store) (now : Instant) :
    (s.write c now).sessions =
      (s.write { c with ending := none } now).sessions.map (SessionRow.fall c.sessionId fallen) := by
  rw [write, write, List.map_map]
  refine List.map_congr_left fun row _ => ?_
  rw [Function.comp_apply]
  by_cases ho : row.isOpen c.sessionId
  · have hopen : (row.update { c with ending := none } now).isOpen c.sessionId = true := by
      simpa [SessionRow.isOpen, SessionRow.update] using ho
    rw [SessionRow.touch, SessionRow.touch, if_pos ho, if_pos (by exact ho), SessionRow.fall, hopen]
    cases fallen <;> simp [SessionRow.update, h]
  · rw [SessionRow.touch_of_not_open ho, SessionRow.touch_of_not_open (by exact ho),
      SessionRow.fall, if_neg (by simp [ho])]

/-- The rows of sessions take over nothing of the character that is committed. -/
theorem sessions_write_going (hid : c.sessionId = c'.sessionId)
    (hplace : c.currentLocation = c'.currentLocation) (hchronicle : c.chronicle = c'.chronicle)
    (s : Store) (now : Instant) :
    (s.write { c with ending := none } now).sessions =
      (s.write { c' with ending := none } now).sessions := by
  simp only [write, SessionRow.touch, SessionRow.update, hid, hplace, hchronicle]

/-- A commit that does not end its session leaves it open. -/
theorem exists_isOpen_write_going {s : Store} (now : Instant) (h : s.isOpen c.sessionId = true) :
    ∃ row ∈ (s.write { c with ending := none } now).sessions, row.isOpen c.sessionId := by
  obtain ⟨row, hrow, ho⟩ := List.any_eq_true.1 h
  refine ⟨_, List.mem_map_of_mem hrow, ?_⟩
  rw [SessionRow.touch, if_pos (by exact ho)]
  simpa [SessionRow.isOpen, SessionRow.update] using ho

/-- Two commits of one session that tell the same story leave the same rows, up to the endings. -/
theorem sessions_write_pair {id : String} {fallen fallen' : Bool} (hid : c.sessionId = id)
    (hid' : c'.sessionId = id) (hplace : c.currentLocation = c'.currentLocation)
    (hchronicle : c.chronicle = c'.chronicle)
    (hending : c.ending = if fallen then some .defeat else none)
    (hending' : c'.ending = if fallen' then some .defeat else none) {s : Store} (now : Instant)
    (hopen : s.isOpen id = true) : ∃ rows : List SessionRow, (∃ row ∈ rows, row.isOpen id) ∧
      (s.write c now).sessions = rows.map (SessionRow.fall id fallen) ∧
      (s.write c' now).sessions = rows.map (SessionRow.fall id fallen') := by
  subst hid
  refine ⟨(s.write { c with ending := none } now).sessions, exists_isOpen_write_going now hopen,
    sessions_write_fall hending s now, ?_⟩
  rw [sessions_write_going hid'.symm hplace hchronicle, ← hid']
  exact sessions_write_fall hending' s now

end Store

/-! ## The two checks -/

namespace Reconciled

variable {r : Resolution} {proposed : Value} {out : Reconciled Resolution} {remarks : List Event}

/-- A check that was used and failed blocks progress, and its verdict says whether it hurts. -/
theorem of_failed (h : reconcile r (.bool true) proposed = .ok (out, remarks))
    (hsuccess : r.isSuccess = false) : ∃ p, Changes.ofValue? proposed = .ok p ∧
      out.changes = p.blocked ∧
      forcedDamage (if r.isFumble then Verdict.fumble else .failure).rule r =
        .ok out.selfDamage := by
  obtain ⟨p, hp, hc⟩ := changes_of_failed h rfl hsuccess
  obtain ⟨-, -, hv, -, -, hforced, -⟩ := reconcile_eq_ok.1 h
  have hverdict : out.verdict = if r.isFumble then .fumble else .failure := by
    simp [hv, Verdict.of, Value.isTrue, CheckReport.isSuccess, CheckReport.isFumble, hsuccess]
  exact ⟨p, hp, hc, hverdict ▸ hforced⟩

/-- A fumble blocks progress, and its damage is suffered. -/
theorem of_fumble (h : reconcile r (.bool true) proposed = .ok (out, remarks))
    (hsuccess : r.isSuccess = false) (hfumble : r.isFumble = true) {x : Number}
    (hdamage : r.damage = some x) : ∃ p, Changes.ofValue? proposed = .ok p ∧
      out.changes = p.blocked ∧ out.selfDamage = .number x := by
  obtain ⟨p, hp, hc, hforced⟩ := of_failed h hsuccess
  rw [if_pos hfumble] at hforced
  simp only [forcedDamage, Verdict.rule, if_true, CheckReport.damage, hdamage,
    Value.ofNumber?] at hforced
  exact ⟨p, hp, hc, (Except.ok.inj hforced).symm⟩

/-- Any other failure blocks progress and hurts nobody. -/
theorem of_miss (h : reconcile r (.bool true) proposed = .ok (out, remarks))
    (hsuccess : r.isSuccess = false) (hfumble : r.isFumble = false) :
    ∃ p, Changes.ofValue? proposed = .ok p ∧ out.changes = p.blocked ∧
      out.selfDamage = .number 0 := by
  obtain ⟨p, hp, hc, hforced⟩ := of_failed h hsuccess
  rw [if_neg (by rw [hfumble]; decide)] at hforced
  exact ⟨p, hp, hc, (Except.ok.inj hforced).symm⟩

end Reconciled

/-- **The damage comes last**: a turn with damage is the turn without it, and then the damage. -/
theorem Character.apply_takeDamage {c after spared : Character} {changes : Changes} {n : Int}
    {events events' : List Event} (hn : 0 < n)
    (h : c.apply changes (.number (.finite n)) = .done (after, events))
    (h' : c.apply changes (.number 0) = .done (spared, events')) :
    after = spared.takeDamage (.finite n) := by
  obtain ⟨damage, risen, hd, hr, rfl⟩ := apply_eq_done.1 h
  obtain ⟨none, risen', hd', hr', rfl⟩ := apply_eq_done.1 h'
  obtain ⟨rfl, -⟩ := Prod.mk.inj (Option.some.inj (hr.symm.trans hr'))
  obtain rfl : Number.finite n = damage := Value.number.inj (checkSelfDamage_eq_ok.1 hd).1
  obtain rfl : 0 = none := Value.number.inj (checkSelfDamage_eq_ok.1 hd').1
  have hpos : (0 : Number) < .finite n := decide_eq_true (by exact_mod_cast hn)
  have hzero : ¬ (0 : Number) < 0 := by decide
  rw [sufferDamage, if_pos hpos, sufferDamage, if_neg hzero]
  rfl

/-- Among integers that are exact, damage is what it says. -/
theorem Character.takeDamage_hp {c : Character} {z n : Int} (hz : c.hp = .finite z)
    (h : (z - n).natAbs ≤ 2 ^ 53) : (c.takeDamage (.finite n)).hp = .finite (z - n : Int) := by
  rw [takeDamage, hz]
  change Number.ofRat ((z : Rat) + -(n : Rat)) = _
  rw [← sub_eq_add_neg, ← Int.cast_sub]
  exact Number.ofRat_intCast h

/-- What is read from one store for one input is one scene. -/
theorem Scene.from_unique {s : Store} {v : Value} {scene scene' : Scene}
    (h : scene.From (fun _ u => u = s) v) (h' : scene'.From (fun _ u => u = s) v) :
    scene' = scene := by
  obtain ⟨input, session, character, scenario⟩ := scene
  obtain ⟨input', session', character', scenario'⟩ := scene'
  obtain ⟨hlocate, hfind, hscenario⟩ := Scene.from_iff.1 h
  obtain ⟨hlocate', hfind', hscenario'⟩ := Scene.from_iff.1 h'
  dsimp only at hlocate hlocate' hfind hfind' hscenario hscenario'
  cases hlocate.symm.trans hlocate'
  cases hfind.symm.trans hfind'
  rw [hscenario, hscenario']

namespace Turn

variable {σ τ : Type} [DiceSource σ] [DiceSource τ] {table : Table σ} {dice : τ}

/-- One scene, settled after a fumble and after a miss. -/
theorem Settles.of_fumble_and_miss (honest : Honest table.dice) (heedless : Heedless table.narrator)
    {scene : Scene} {q q' : NarrativeRequest} {c c' : TurnCommit} {r r' : TurnResult}
    {narration : Narration} (h : Settles table scene q c r)
    (h' : Settles (table.withDice dice) scene q' c' r')
    (told : (table.narrator q).answer = .ok narration)
    (used : narration.mechanicsApplied = .bool true)
    (fumbled : q.resolution.roll = Resolution.fumbleRoll)
    (low : q'.resolution.roll ≠ Resolution.fumbleRoll)
    (high : q'.resolution.roll ≠ Resolution.criticalRoll)
    (missed : ¬ q'.resolution.target ≤ q'.resolution.total) :
    table.narrator q' = table.narrator q ∧ r.changes = r'.changes ∧
      ∃ d : Int, 1 ≤ d ∧ d ≤ 4 ∧ q.resolution.damage = some (.finite d) ∧
        c.character = c'.character.takeDamage (.finite d) := by
  obtain ⟨checked, told₁, judged, lived⟩ := h
  obtain ⟨checked', told₂, judged', lived'⟩ := h'
  rename_i resolution _ reconciled _ _ _ resolution' _ reconciled' _ _ _
  have hsame : table.narrator (requestOf scene resolution') =
      table.narrator (requestOf scene resolution) := heedless (requestOf scene resolution) resolution'
  cases told.symm.trans told₁
  cases (hsame ▸ told).symm.trans told₂
  rw [used] at judged judged'
  have hfumble : (check table.defaultDifficulty scene).Gives table.dice resolution
      ((check table.defaultDifficulty scene).run table.dice).2 := Prod.ext checked rfl
  have hmiss : (check table.defaultDifficulty scene).Gives dice resolution'
      ((check table.defaultDifficulty scene).run dice).2 := Prod.ext checked' rfl
  obtain ⟨hs, hf, d, hone, hfour, hd⟩ := of_gives_fumble honest hfumble fumbled
  obtain ⟨hs', hf'⟩ := of_gives_miss hmiss low high missed
  obtain ⟨p, hp, hchanges, hdamage⟩ := Reconciled.of_fumble judged hs hf hd
  obtain ⟨p', hp', hchanges', hdamage'⟩ := Reconciled.of_miss judged' hs' hf'
  obtain rfl := Except.ok.inj (hp.symm.trans hp')
  rw [hchanges, hdamage] at lived
  rw [hchanges', hdamage'] at lived'
  refine ⟨hsame, hchanges.trans hchanges'.symm, d, hone, hfour, hd, ?_⟩
  exact Character.apply_takeDamage (by omega) lived lived'

/-- **A fumble costs its damage and nothing else.** Two runs of a turn, which differ in their dice
only, resolve; the narrator answers both alike and says that it used the check. The one run shows a
one, with honest dice, and the other shows two to nineteen and misses its target. Then the fumble
hurts by one to four. The bundles are the same; the character is the other one with this damage
taken, which is exact as long as the result is an integer up to `2 ^ 53`; and the stores are the same
but for the damage in the rows of the character, and for the defeat in the row of the session, where
the hero of a run has no hit points left. -/
theorem fumble_costs_its_damage {v : Value} {s : Store} {r r' : TurnResult} {q q' : NarrativeRequest}
    {narration : Narration} (honest : Honest table.dice) (heedless : Heedless table.narrator)
    (h : outcome? (run table v s).1 = some (.done r))
    (h' : outcome? (run (table.withDice dice) v s).1 = some (.done r'))
    (asked : (run table v s).1.request = some q)
    (asked' : (run (table.withDice dice) v s).1.request = some q')
    (told : (table.narrator q).answer = .ok narration)
    (used : narration.mechanicsApplied = .bool true)
    (fumbled : q.resolution.roll = 1) (low : 2 ≤ q'.resolution.roll)
    (high : q'.resolution.roll ≤ 19) (missed : ¬ q'.resolution.target ≤ q'.resolution.total) :
    ∃ d : Int, 1 ≤ d ∧ d ≤ 4 ∧ q.resolution.damage = some (.finite d) ∧
      r.changes = r'.changes ∧ r.character = r'.character.takeDamage (.finite d) ∧
      (∀ z : Int, r'.character.hp = .finite z → (z - d).natAbs ≤ 2 ^ 53 →
        r.character.hp = .finite (z - d : Int)) ∧
      (r.isTerminated = true ↔ r.character.hp ≤ 0) ∧
      (r'.isTerminated = true ↔ r'.character.hp ≤ 0) ∧
      (run table v s).2.scenarios = (run (table.withDice dice) v s).2.scenarios ∧
      (run table v s).2.characters = (run (table.withDice dice) v s).2.characters.map
        (CharacterRow.wound q.character.id (.finite d)) ∧
      ∃ rows : List SessionRow, (∃ row ∈ rows, row.isOpen q.session.id) ∧
        (run table v s).2.sessions = rows.map (SessionRow.fall q.session.id r.isTerminated) ∧
        (run (table.withDice dice) v s).2.sessions =
          rows.map (SessionRow.fall q.session.id r'.isTerminated) := by
  obtain ⟨c, ⟨scene, _, hfrom, hsettles, hq⟩, hcommit⟩ := run_done h
  obtain ⟨c', ⟨scene', _, hfrom', hsettles', hq'⟩, hcommit'⟩ := run_done h'
  cases asked.symm.trans hq
  cases asked'.symm.trans hq'
  obtain rfl := Scene.from_unique hfrom hfrom'
  have hlow : q'.resolution.roll ≠ Resolution.fumbleRoll := by
    intro he
    rw [he] at low
    exact absurd low (by decide)
  have hhigh : q'.resolution.roll ≠ Resolution.criticalRoll := by
    intro he
    rw [he] at high
    exact absurd high (by decide)
  obtain ⟨hsame, hchanges, d, hone, hfour, hd, hcharacter⟩ :=
    hsettles.of_fumble_and_miss honest heedless hsettles' told used fumbled hlow hhigh missed
  obtain ⟨hafter, -, hdead⟩ := hsettles.character_eq
  obtain ⟨hafter', -, hdead'⟩ := hsettles'.character_eq
  have hwounded : r.character = r'.character.takeDamage (.finite d) := by
    rw [hafter, hafter', hcharacter]
  obtain ⟨hqs, hqc⟩ := hsettles.asks
  have hstore := (Store.commit_eq_ok.1 hcommit).2
  have hstore' := (Store.commit_eq_ok.1 hcommit').2
  have hleft : aside (table.withDice dice) (some q') s = aside table (some q) s := by
    change s.completeAll (table.narrator q').completed = _
    rw [hsame]
    rfl
  rw [asked] at hstore
  rw [asked', hleft] at hstore'
  refine ⟨d, hone, hfour, hd, hchanges, hwounded, ?_, hdead, hdead', ?_, ?_, ?_⟩
  · intro z hz hexact
    rw [hwounded]
    exact Character.takeDamage_hp hz hexact
  · rw [hstore, hstore']
    rfl
  · rw [hstore, hstore', hqc, ← hsettles'.addressees.2]
    exact Store.characters_write_wound hcharacter _ table.now
  · have hplace : c.currentLocation = c'.currentLocation := by
      rw [hsettles.place_eq.1, hsettles'.place_eq.1, hchanges]
    have hchronicle : c.chronicle = c'.chronicle := by
      rw [hsettles.place_eq.2, hsettles'.place_eq.2, hchanges]
    have hid : c.sessionId = q.session.id := hsettles.addressees.1.trans (hqs ▸ rfl)
    have hid' : c'.sessionId = q.session.id := hsettles'.addressees.1.trans (hqs ▸ rfl)
    have hopen := (Store.commit_eq_ok.1 hcommit).1
    rw [asked] at hopen
    rw [hstore, hstore']
    exact Store.sessions_write_pair hid hid' hplace hchronicle hsettles.ending_eq
      hsettles'.ending_eq table.now (hid ▸ hopen)

/-- The narrator gives experience for a climb to the next level, and healing on top of it: after the
miss the hero has all of the thirty hit points, and after a fumble of three, twenty-seven. -/
theorem fumble_costs_its_damage_after_a_climb :
    let changes : Changes :=
      { Changes.nothing with
        hpChange := 5, experienceGained := 100, itemsGained := ["sword"], location := some "vault" }
    let table : Table Scripted :=
      ⟨.hard, .ofValues [.number 1, .number 3], SmallGame.narrator changes true [], 7⟩
    let fumble := run table SmallGame.input SmallGame.store
    let miss := run (table.withDice (Scripted.ofValues [.number 7])) SmallGame.input SmallGame.store
    ∃ r r', outcome? fumble.1 = some (.done r) ∧ outcome? miss.1 = some (.done r') ∧
      r.changes = r'.changes ∧ r'.character.hp = .finite (30 : Int) ∧
      r.character.hp = .finite (30 - 3 : Int) ∧
      fumble.2.characters =
        miss.2.characters.map (CharacterRow.wound "hero" (.finite (3 : Int))) := by
  intro changes table fumble miss
  have hasked : fumble.1.request.map
      (fun q => (q.resolution.roll, q.resolution.damage, q.character.id)) =
        some (1, some (.finite (3 : Int)), "hero") := by decide +kernel
  have hasked' : miss.1.request.map
      (fun q => (q.resolution.roll, q.resolution.total, q.resolution.target)) =
        some (7, 9, 15) := by decide +kernel
  have hdone : (result? fumble.1).isSome = true := by decide +kernel
  have hdone' : (result? miss.1).map (fun r => r.character.hp) = some (.finite (30 : Int)) := by
    decide +kernel
  obtain ⟨q, hq, hfacts⟩ := Option.map_eq_some_iff.1 hasked
  obtain ⟨q', hq', hfacts'⟩ := Option.map_eq_some_iff.1 hasked'
  obtain ⟨r, hr⟩ := Option.isSome_iff_exists.1 hdone
  obtain ⟨r', hr', hhp⟩ := Option.map_eq_some_iff.1 hdone'
  simp only [Prod.mk.injEq] at hfacts hfacts'
  obtain ⟨hroll, hdamage, hid⟩ := hfacts
  obtain ⟨hroll', htotal, htarget⟩ := hfacts'
  have h := result?_eq_some.1 hr
  have h' := result?_eq_some.1 hr'
  obtain ⟨d, -, -, hd, hchanges, -, hexact, -, -, -, hcharacters, -⟩ :=
    fumble_costs_its_damage (Scripted.honest _) (fun _ _ => rfl) h h' hq hq' rfl rfl hroll
      (by rw [hroll']; decide) (by rw [hroll']; decide) (by rw [htotal, htarget]; decide)
  obtain rfl : d = 3 := by
    have hsame := Number.finite.inj (Option.some.inj (hd.symm.trans hdamage))
    exact_mod_cast hsame
  rw [hid] at hcharacters
  exact ⟨r, r', h, h', hchanges, hhp, hexact 30 hhp (by decide), hcharacters⟩

/-- **A fumble can hide** where integers are no longer exact: a wound so large that the hero is left
with `-2 ^ 53` hit points after the miss leaves as many after a fumble of one, instead of one
less. -/
theorem fumble_is_lost_among_inexact_integers :
    let changes : Changes := { Changes.nothing with hpChange := .finite (-(2 ^ 53 + 20)) }
    let table : Table Scripted :=
      ⟨.hard, .ofValues [.number 1, .number 1], SmallGame.narrator changes true [], 7⟩
    let fumble := run table SmallGame.input SmallGame.store
    let miss := run (table.withDice (Scripted.ofValues [.number 2])) SmallGame.input SmallGame.store
    ∃ r r' q q', outcome? fumble.1 = some (.done r) ∧ outcome? miss.1 = some (.done r') ∧
      fumble.1.request = some q ∧ q.resolution.roll = 1 ∧ q.resolution.damage = some 1 ∧
      miss.1.request = some q' ∧ q'.resolution.roll = 2 ∧
      q'.resolution.total < q'.resolution.target ∧
      r'.character.hp = .finite (-2 ^ 53) ∧ r.character.hp ≠ .finite (-2 ^ 53 - 1) ∧
      r.character.hp = r'.character.hp := by
  intro changes table fumble miss
  have hasked : fumble.1.request.map (fun q => (q.resolution.roll, q.resolution.damage)) =
      some (1, some 1) := by decide +kernel
  have hasked' : miss.1.request.map
      (fun q => (q.resolution.roll, decide (q.resolution.total < q.resolution.target))) =
        some (2, true) := by decide +kernel
  have hdone : (result? fumble.1).map (fun r => r.character.hp) = some (.finite (-2 ^ 53)) := by
    decide +kernel
  have hdone' : (result? miss.1).map (fun r => r.character.hp) = some (.finite (-2 ^ 53)) := by
    decide +kernel
  obtain ⟨q, hq, hfacts⟩ := Option.map_eq_some_iff.1 hasked
  obtain ⟨q', hq', hfacts'⟩ := Option.map_eq_some_iff.1 hasked'
  obtain ⟨r, hr, hhp⟩ := Option.map_eq_some_iff.1 hdone
  obtain ⟨r', hr', hhp'⟩ := Option.map_eq_some_iff.1 hdone'
  obtain ⟨hroll, hdamage⟩ := Prod.mk.inj hfacts
  obtain ⟨hroll', hmissed⟩ := Prod.mk.inj hfacts'
  refine ⟨r, r', q, q', result?_eq_some.1 hr, result?_eq_some.1 hr', hq, hroll, hdamage, hq',
    hroll', of_decide_eq_true hmissed, hhp', ?_, hhp.trans hhp'.symm⟩
  rw [hhp]
  decide +kernel

end Turn

end Adventure
