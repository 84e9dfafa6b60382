import Adventure.Proofs.Store.Alive
import Adventure.Proofs.Story.Reconcile
import Adventure.Turn.Run
/-!
# What one step of a turn does

`Move` lists the ten things that a step can be, each with what the step found in the store and what
it did to it; `advance_move` says that every step is one of them. What a turn works out between its
last reading and its commit does not look at the store at all: that part is `Settles`.
-/

namespace Adventure

namespace Turn

variable {σ : Type}

/-- The sessions that the narrator completes on the side, if it is asked. -/
def completions (table : Table σ) : Option NarrativeRequest → List String
  | none => []
  | some request => (table.narrator request).completed

/-- The store after what the narrator does on the side. -/
def aside (table : Table σ) (request : Option NarrativeRequest) (s : Store) : Store :=
  s.completeAll (completions table request)

/-! ## Reading -/

theorem locate_eq_ok {s : Store} {v : Value} {input : TurnInput} {session : Session} :
    locate s v = .ok (input, session) ↔ TurnInput.ofValue? v = .ok input ∧
      s.session? input.sessionId = some session ∧ session.status = .active := by
  unfold locate
  cases TurnInput.ofValue? v with
  | error issues => simp
  | ok read =>
    simp only [Except.ok.injEq]
    cases hs : s.session? read.sessionId with
    | none =>
      simp only [reduceCtorEq, false_iff]
      rintro ⟨rfl, h, _⟩
      rw [hs] at h
      cases h
    | some found =>
      dsimp only
      split
      · rename_i ha
        simp only [Except.ok.injEq, Prod.mk.injEq]
        constructor
        · rintro ⟨rfl, rfl⟩
          exact ⟨rfl, hs, ha⟩
        · rintro ⟨rfl, h, _⟩
          rw [hs] at h
          cases h
          exact ⟨rfl, rfl⟩
      · rename_i ha
        simp only [reduceCtorEq, false_iff]
        rintro ⟨rfl, h, hc⟩
        rw [hs] at h
        cases h
        exact ha hc

theorem findCharacter_eq_ok {s : Store} {session : Session} {character : Character} :
    findCharacter s session = .ok character ↔
      s.character? session.characterId = some character := by
  unfold findCharacter
  cases s.character? session.characterId <;> simp

/-! ## Settling -/

variable [DiceSource σ]

/-- What a turn works out for a scene without looking at the store: the check, the narration, what
comes of it, and from these its commit and its result. -/
inductive Settles (table : Table σ) (scene : Scene) :
    NarrativeRequest → TurnCommit → TurnResult → Prop
  | intro {resolution : Resolution} {narration : Narration} {reconciled : Reconciled Resolution}
      {after : Character} {remarks climbs : List Event}
      (checked : ((check table.defaultDifficulty scene).run table.dice).1 = .ok resolution)
      (told : (table.narrator (requestOf scene resolution)).answer = .ok narration)
      (judged : reconcile resolution narration.mechanicsApplied narration.changes =
        .ok (reconciled, remarks))
      (lived : scene.character.apply reconciled.changes reconciled.selfDamage =
        .done (after, climbs)) :
      Settles table scene (requestOf scene resolution) (commitOf scene reconciled after)
        (resultOf narration reconciled after)

namespace Settles

variable {table : Table σ} {scene : Scene} {q : NarrativeRequest} {c : TurnCommit} {r : TurnResult}

/-- The narrator is asked about the session and the character of the scene. -/
theorem asks (h : Settles table scene q c r) :
    q.session = scene.session ∧ q.character = scene.character := by
  obtain ⟨_, _, _, _⟩ := h
  exact ⟨rfl, rfl⟩

/-- What is committed goes to the session and the character of the scene. -/
theorem addressees (h : Settles table scene q c r) :
    c.sessionId = scene.session.id ∧ c.character.id = scene.character.id := by
  obtain ⟨_, _, _, lived⟩ := h
  exact ⟨rfl, Character.apply_id lived⟩

/-- A turn ends its session just when it leaves the character depleted. -/
theorem isTerminated_eq (h : Settles table scene q c r) :
    r.isTerminated = c.character.isDepleted := by
  obtain ⟨_, _, _, _⟩ := h
  rfl

/-- The only ending that a turn can bring is defeat. -/
theorem ending_eq (h : Settles table scene q c r) :
    c.ending = if r.isTerminated then some .defeat else none := by
  obtain ⟨_, _, _, _⟩ := h
  rfl

/-- The place and the chronicle that are committed are those of the session that was read, changed
by the bundle that the player is told of. -/
theorem place_eq (h : Settles table scene q c r) :
    c.currentLocation = r.changes.location.getD scene.session.currentLocation ∧
      c.chronicle = scene.session.chronicle.apply r.changes := by
  obtain ⟨_, _, _, _⟩ := h
  exact ⟨rfl, rfl⟩

/-- A character whose hit points had a value is committed with hit points that have one. -/
theorem measured (h : Settles table scene q c r) (hm : scene.character.Measured) :
    c.character.Measured := by
  obtain ⟨_, _, judged, lived⟩ := h
  exact Character.apply_measured lived (Reconciled.hpChange_isInteger judged) hm

end Settles

theorem settle_eq_done {scene : Scene} {resolution : Resolution} {narration : Narration}
    {c : TurnCommit} {r : TurnResult} {events : List Event}
    (h : settle scene resolution narration = (.done (c, r), events)) :
    ∃ reconciled remarks after climbs,
      reconcile resolution narration.mechanicsApplied narration.changes =
        .ok (reconciled, remarks) ∧
      scene.character.apply reconciled.changes reconciled.selfDamage = .done (after, climbs) ∧
      c = commitOf scene reconciled after ∧ r = resultOf narration reconciled after := by
  unfold settle at h
  split at h
  · cases h
  · rename_i reconciled remarks hr
    split at h
    · cases h
    · cases h
    · rename_i after climbs ha
      cases h
      exact ⟨reconciled, remarks, after, climbs, hr, ha, rfl, rfl⟩

/-- What a scene settles is what a turn has worked out after playing it. -/
theorem play_of_settles {table : Table σ} {scene : Scene} {q : NarrativeRequest} {c : TurnCommit}
    {r : TurnResult} (h : Settles table scene q c r) (s : Store) :
    ∃ e, (play table scene s).1 = (⟨.settled c r, some q, e⟩, aside table (some q) s) := by
  obtain ⟨checked, told, judged, lived⟩ := h
  rcases hc : (check table.defaultDifficulty scene).run table.dice with ⟨x, dice⟩
  rw [hc] at checked
  dsimp only at checked
  subst checked
  simp only [play, hc, told, settle, judged, lived]
  exact ⟨_, rfl⟩

/-! ## The moves -/

/-- What a step can be, on a store `s`: the turn before it, the turn after it, the store after
it. -/
inductive Move (table : Table σ) (s : Store) : Turn → Turn → Store → Prop
  | located {v q e input session} (h : locate s v = .ok (input, session)) :
      Move table s ⟨.opened v, q, e⟩ (reached (.located input session)) s
  | unlocated {v q e f} (h : locate s v = .error f) : Move table s ⟨.opened v, q, e⟩ (refuse f) s
  | cast {input session q e character} (h : findCharacter s session = .ok character) :
      Move table s ⟨.located input session, q, e⟩ (reached (.cast input session character)) s
  | uncast {input session q e f} (h : findCharacter s session = .error f) :
      Move table s ⟨.located input session, q, e⟩ (refuse f) s
  | framed {input session character q e} :
      Move table s ⟨.cast input session character, q, e⟩
        (reached (.framed ⟨input, session, character, s.scenario? session.scenarioId⟩)) s
  | settled {scene q e request c r e'} (h : Settles table scene request c r) :
      Move table s ⟨.framed scene, q, e⟩ ⟨.settled c r, some request, e'⟩
        (aside table (some request) s)
  /-- The check, the narrator or what follows from the narration has failed. -/
  | unsettled {scene q e o request e'} (h : ∀ r, o ≠ .done r) :
      Move table s ⟨.framed scene, q, e⟩ ⟨.closed o, request, e'⟩ (aside table request s)
  | committed {c r q e s'} (h : s.commit c table.now = .ok s') :
      Move table s ⟨.settled c r, q, e⟩ ⟨.closed (.done r), q, e⟩ s'
  | refused {c r q e f} (h : s.commit c table.now = .error f) :
      Move table s ⟨.settled c r, q, e⟩ ⟨.closed (.failed (.fault f)), q, e⟩ s
  | rested {o q e} : Move table s ⟨.closed o, q, e⟩ ⟨.closed o, q, e⟩ s

theorem play_move (table : Table σ) (scene : Scene) (q : Option NarrativeRequest) (e : List Event)
    (s : Store) :
    Move table s ⟨.framed scene, q, e⟩ (play table scene s).1.1 (play table scene s).1.2 := by
  unfold play
  split
  · exact .unsettled (by simp)
  · rename_i resolution _ hc
    have hc := congrArg Prod.fst hc
    dsimp only
    split
    · exact .unsettled (by simp)
    · rename_i narration ht
      -- The narrator has answered: what is left is the outcome of settling.
      rcases hs : settle scene resolution narration with ⟨o, events⟩
      cases o with
      | done p =>
        obtain ⟨c, r⟩ := p
        obtain ⟨reconciled, remarks, after, climbs, hr, ha, rfl, rfl⟩ := settle_eq_done hs
        exact .settled (.intro hc ht hr ha)
      | failed f => exact .unsettled (by simp)
      | endless => exact .unsettled (by simp)

/-- **Every step is one of the moves.** -/
theorem advance_move (table : Table σ) (t : Turn) (s : Store) :
    Move table s t (t.advance table s).1 (t.advance table s).2 := by
  obtain ⟨stage, q, e⟩ := t
  cases stage with
  | opened v =>
    cases h : locate s v with
    | error f => simpa only [advance, h] using Move.unlocated h
    | ok r => simpa only [advance, h] using Move.located h
  | located input session =>
    cases h : findCharacter s session with
    | error f => simpa only [advance, h] using Move.uncast h
    | ok character => simpa only [advance, h] using Move.cast h
  | cast input session character => exact .framed
  | framed scene => exact play_move table scene q e s
  | settled c r =>
    cases h : s.commit c table.now with
    | error f => simpa only [advance, h] using Move.refused h
    | ok s' => simpa only [advance, h] using Move.committed h
  | closed o => exact .rested

end Turn

end Adventure
