import Adventure.Proofs.Narrator.Answer
import Adventure.Proofs.Story.Proposal
import Adventure.Proofs.Turn.Quiet
/-!
# No model output breaks a turn

What a narrator's providers answer is text, and text can say anything. Still a turn that may act
comes through: its check does not fail with fair dice, every text is read as a proposal that passes,
and the damage of the check is one that can be suffered. What is left are providers that all fail,
and a session that others complete before the commit (`ends_unbroken`).

Between two of its steps the store may change in any way: `meet` follows a turn that finds a store
of its own at each step.
-/

namespace Adventure

/-- A scene whose check can be made: the level is one, as a number of the game, and the scenario
names no unknown difficulty. -/
structure Scene.Playable (scene : Scene) : Prop where
  isLevel : Progression.isLevel scene.character.level
  held : scene.character.level.Held
  difficulty : ∀ scenario, scene.scenario = some scenario →
    scenario.difficulty = .null ∨ ∃ t : Tier, scenario.difficulty = .string t.name

namespace Turn

variable {σ : Type} [DiceSource σ] {table : Table σ} {scene : Scene}

/-! ## The check and what follows -/

theorem difficulty_of_playable (h : scene.Playable) (default : Tier) :
    ∃ t : Tier, difficulty default scene = .string t.name := by
  unfold difficulty
  cases hs : scene.scenario with
  | none => exact ⟨default, rfl⟩
  | some scenario =>
    rcases h.difficulty scenario hs with hd | ⟨t, hd⟩
    · exact ⟨default, by simp [hd, Value.orElse, Value.isNothing]⟩
    · exact ⟨t, by simp [hd, Value.orElse, Value.isNothing]⟩

/-- The check of a playable scene does not fail, and a fumble comes with its damage. -/
theorem gives_check (hdice : Fair table.dice) (h : scene.Playable) :
    ∃ resolution dice, (check table.defaultDifficulty scene).Gives table.dice resolution dice ∧
      resolution.Payable := by
  obtain ⟨t, ht⟩ := difficulty_of_playable h table.defaultDifficulty
  obtain ⟨roll, damage, dice, hg, -, hhurts, -⟩ :=
    gives_performCheck hdice h.isLevel h.held t (category scene)
  exact ⟨_, dice, by rw [check, ht]; exact hg, Resolution.payable_ofParts hhurts⟩

/-- What is read from a text is settled, or the climb of the character has no end. -/
theorem settle_ne_failed {resolution : Resolution} (h : resolution.Payable) (scene : Scene)
    (text : String) (f : Failure) :
    (settle scene resolution (Response.ofText text).1.toNarration).1 ≠ .failed f := by
  obtain ⟨out, remarks, hr, n, hn, hself⟩ :=
    reconcile_of_wellFormed h (Response.wellFormed_ofText text)
      (.bool (Response.ofText text).1.mechanicsApplied)
  have happly := Character.apply_ne_failed hn scene.character out.changes
  unfold settle Response.toNarration
  dsimp only
  rw [hr]
  dsimp only
  rw [hself]
  split
  · rename_i g hg
    exact absurd hg (happly g)
  · simp
  · simp

/-- A narrator who reads texts, or is silent for a reason. -/
def Reads (narrator : Narrator) (reason : NarrativeRequest → Silence → Prop) : Prop :=
  ∀ q, (∃ text, (narrator q).answer = .ok (Response.ofText text).1.toNarration) ∨
    ∃ silence, (narrator q).answer = .error (.fault (.silence silence)) ∧ reason q silence

/-- **Playing a scene** leads to a commit, or to silence, or does not end. -/
theorem play_stage (hdice : Fair table.dice) (h : scene.Playable)
    {reason : NarrativeRequest → Silence → Prop} (hn : Reads table.narrator reason) (s : Store) :
    (∃ c r, (play table scene s).1.1.stage = .settled c r ∧ c.sessionId = scene.session.id) ∨
      (play table scene s).1.1.stage = .closed .endless ∨
      ∃ silence request,
        (play table scene s).1.1.stage = .closed (.failed (.fault (.silence silence))) ∧
          (play table scene s).1.1.request = some request ∧ reason request silence := by
  obtain ⟨resolution, dice, hcheck, hpayable⟩ := gives_check hdice h
  have hcheck : (check table.defaultDifficulty scene).run table.dice = (.ok resolution, dice) := hcheck
  unfold play
  rw [hcheck]
  dsimp only
  rcases hn (requestOf scene resolution) with ⟨text, ht⟩ | ⟨silence, hs, hsilent⟩
  · rw [ht]
    dsimp only
    have hne := settle_ne_failed hpayable scene text
    cases hset : settle scene resolution (Response.ofText text).1.toNarration with
    | mk o events =>
      rw [hset] at hne
      cases o with
      | done p =>
        obtain ⟨c, r⟩ := p
        obtain ⟨reconciled, -, after, -, -, -, rfl, -⟩ := settle_eq_done hset
        exact .inl ⟨_, _, rfl, rfl⟩
      | failed f => exact absurd rfl (hne f)
      | endless => exact .inr (.inl rfl)
  · rw [hs]
    exact .inr (.inr ⟨silence, _, rfl, rfl, hsilent⟩)

/-! ## The whole turn -/

/-- A turn after `n` steps, of which step `k` finds the store `found k`. -/
def meet (table : Table σ) (found : Nat → Store) (v : Value) : Nat → Turn
  | 0 => start v
  | n + 1 => ((meet table found v n).advance table (found n)).1

/-- A turn that runs alone finds at each step what it has left itself. -/
theorem advanceBy_eq_meet (table : Table σ) (v : Value) (s : Store) (n : Nat) :
    (advanceBy table n (start v) s).1 =
      meet table (fun k => (advanceBy table k (start v) s).2) v n := by
  induction n with
  | zero => rfl
  | succ n ih => rw [meet, ← ih, advanceBy_succ]

/-- A turn whose session, character and scenario are found comes to play its scene. -/
theorem meet_play (table : Table σ) {found : Nat → Store} {v : Value} {input : TurnInput} {session : Session}
    {character : Character} (hlocate : locate (found 0) v = .ok (input, session))
    (hcast : findCharacter (found 1) session = .ok character) :
    meet table found v 4 = (play table
      ⟨input, session, character, (found 2).scenario? session.scenarioId⟩ (found 3)).1.1 := by
  have hlocated : meet table found v 1 = .reached (.located input session) := by
    simp only [meet, start, advance, hlocate]
  have hfound : meet table found v 2 = .reached (.cast input session character) := by
    rw [meet, hlocated]
    simp only [advance, reached, hcast]
  have hframed : meet table found v 3 =
      .reached (.framed ⟨input, session, character, (found 2).scenario? session.scenarioId⟩) := by
    rw [meet, hfound]
    rfl
  rw [meet, hframed]
  rfl

/-- The commit is refused only if the session has no open row any more. -/
theorem outcome?_advance_of_settled (table : Table σ) {t : Turn} {c : TurnCommit} {r : TurnResult}
    (h : t.stage = .settled c r) (s : Store) :
    outcome? (t.advance table s).1 = some (.done r) ∨
      outcome? (t.advance table s).1 = some (.failed (.fault (.commitRefused c.sessionId))) ∧
        s.isOpen c.sessionId = false := by
  rw [advance, h]
  dsimp only
  rw [Store.commit_eq]
  cases hopen : s.isOpen c.sessionId with
  | true => exact .inl rfl
  | false => exact .inr ⟨rfl, rfl⟩

/-- **No model output breaks a turn**: if a turn fails, nobody has answered, or its session has been
closed meanwhile. It may also never end, where the experience that was proposed is never used up;
then the outcome is `endless`, of which nothing is said here. -/
theorem ends_unbroken (found : Nat → Store) {r : Registry} {settings : Settings} {p f : Provider}
    {v : Value} {input : TurnInput} {session : Session} {character : Character}
    (hdice : Fair table.dice) (hnarrator : table.narrator = r.narrator settings)
    (hprimary : r.primary settings = .ok p) (hfallback : r.fallback settings = .ok f)
    (hp : p.Articulate) (hf : f.Articulate) (hinput : TurnInput.ofValue? v = .ok input)
    (hsession : (found 0).session? input.sessionId = some session)
    (hactive : session.status = .active)
    (hcharacter : (found 1).character? session.characterId = some character)
    (hplayable : Scene.Playable
      ⟨input, session, character, (found 2).scenario? session.scenarioId⟩) :
    let t := meet table found v stepCount
    ∃ o, outcome? t = some o ∧ ∀ e, o = .failed e →
      ∃ fault, e = .fault fault ∧
        (fault.kind = .narrativeUnavailable ∧ (∃ silence request, fault = .silence silence ∧
            t.request = some request ∧ r.FallsSilent settings request silence) ∨
          fault.kind = .invalidInput ∧ fault = .commitRefused session.id ∧
            (found 4).isOpen session.id = false) := by
  intro t
  have hplay := meet_play table (locate_eq_ok.2 ⟨hinput, hsession, hactive⟩)
    (findCharacter_eq_ok.2 hcharacter)
  have hreads : Reads table.narrator (r.FallsSilent settings) := by
    rw [hnarrator]
    exact Registry.narrator_answer hprimary hfallback hp hf
  have hrest {o} (ho : (meet table found v 4).stage = .closed o) : t = meet table found v 4 := by
    change ((meet table found v 4).advance table (found 4)).1 = _
    rw [advance_of_closed ho]
  rcases play_stage hdice hplayable hreads (found 3) with
    ⟨c, result, hstage, hc⟩ | hstage | ⟨silence, request, hstage, hrequest, hsilent⟩
  all_goals rw [← hplay] at hstage
  · rcases outcome?_advance_of_settled table hstage (found 4) with hdone | ⟨hrefused, hopen⟩
    · exact ⟨_, hdone, fun e he => by cases he⟩
    · refine ⟨_, hrefused, ?_⟩
      intro e he
      cases he
      rw [hc] at hopen ⊢
      exact ⟨_, rfl, .inr ⟨rfl, rfl, hopen⟩⟩
  · refine ⟨.endless, ?_, fun e he => by cases he⟩
    rw [hrest hstage]
    exact outcome?_eq_some.2 hstage
  · refine ⟨.failed (.fault (.silence silence)), ?_, ?_⟩
    · rw [hrest hstage]
      exact outcome?_eq_some.2 hstage
    · intro e he
      cases he
      rw [← hplay] at hrequest
      exact ⟨_, rfl, .inl ⟨rfl, silence, request, rfl, by rw [hrest hstage, hrequest], hsilent⟩⟩

/-- Dice that always show the lowest face. -/
structure Loaded where

instance : DiceSource Loaded where
  range low high := match low with
    | .number face => pure face
    | _ => throw (.invalidRange low high)

theorem fair_loaded (d : Loaded) : Fair d :=
  ⟨fun _ => True, trivial, fun d _ low _ hr =>
    ⟨low, d, Draw.gives_pure _ d, Int.le_refl low, hr.ordered, trivial⟩⟩

/-- A fumble, narrated by a stand-in whose text is no JSON, in a session that is completed just before
the commit. -/
theorem ends_unbroken_of_a_fumble :
    let registry := Registry.Duo.registry (.value (.string "overloaded"))
    let table : Table Loaded := ⟨.hard, ⟨⟩, registry.narrator Registry.Duo.settings, 7⟩
    let found k := if k < 4 then SmallGame.store else SmallGame.store.complete SmallGame.id
    let t := meet table found SmallGame.input stepCount
    ∃ o, outcome? t = some o ∧ ∀ e, o = .failed e →
      ∃ fault, e = .fault fault ∧
        (fault.kind = .narrativeUnavailable ∧ (∃ silence request, fault = .silence silence ∧
            t.request = some request ∧
            registry.FallsSilent Registry.Duo.settings request silence) ∨
          fault.kind = .invalidInput ∧ fault = .commitRefused SmallGame.id ∧
            (found 4).isOpen SmallGame.id = false) := by
  intro registry table found
  have hinput : TurnInput.ofValue? SmallGame.input = .ok ⟨SmallGame.id, "open the door", none⟩ := by
    decide +kernel
  have hplayable : Scene.Playable ⟨⟨SmallGame.id, "open the door", none⟩,
      ⟨SmallGame.id, "hero", "crypt", .active, "gate", .empty⟩, SmallGame.hero, none⟩ :=
    ⟨by decide, (by decide +kernel : Number.ofRat 1 = .finite 1), fun scenario h => by cases h⟩
  have hprimary : (Registry.Duo.failing (.value (.string "overloaded"))).Articulate :=
    Provider.articulate_scripted (List.forall_mem_singleton.2 rfl)
  have hbackup : Registry.Duo.backup.Articulate :=
    Provider.articulate_scripted (List.forall_mem_singleton.2 ⟨"ok", rfl⟩)
  exact ends_unbroken found (fair_loaded _) rfl rfl rfl hprimary hbackup hinput rfl rfl rfl hplayable

end Turn

end Adventure
