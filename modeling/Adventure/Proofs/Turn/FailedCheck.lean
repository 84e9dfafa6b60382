import Adventure.Proofs.Turn.Course
/-!
# A failed check gains nothing

When the narrator has used the check and the check has failed, the game does not take the narrator's
word for progress: whatever the narration proposes, nobody moves and nothing is gained. What can
happen to the things a hero holds is that they get fewer.
-/

namespace Adventure

/-- The second list is what is left of the first one when things from `lost` are taken away. -/
def Collection.Pruned (lost old new : List String) : Prop :=
  new.Sublist old ∧ (Collection.lose old lost).Sublist new

theorem Collection.pruned_refl (lost things : List String) : Pruned lost things things :=
  ⟨.refl things, lose_sublist things lost⟩

theorem Collection.pruned_lose (lost things : List String) :
    Pruned lost things (lose things lost) :=
  ⟨lose_sublist things lost, .refl _⟩

namespace Turn

variable {σ : Type} [DiceSource σ]

/-- What is settled after a failed check: the proposal without its progress, and a commit that stays
in place and only takes things away. -/
theorem Settles.of_failed_check {table : Table σ} {scene : Scene} {request : NarrativeRequest}
    {c : TurnCommit} {r : TurnResult} {narration : Narration}
    (h : Settles table scene request c r)
    (told : (table.narrator request).answer = .ok narration)
    (used : narration.mechanicsApplied = .bool true)
    (failed : request.resolution.isSuccess = false) : ∃ p,
      Changes.ofValue? narration.changes = .ok p ∧ r.changes = p.blocked ∧
      c.currentLocation = scene.session.currentLocation ∧
      c.chronicle = scene.session.chronicle.apply p.blocked ∧
      c.character.inventory = Collection.lose scene.character.inventory p.itemsLost := by
  obtain ⟨_, told', judged, lived⟩ := h
  cases told.symm.trans told'
  have hused : narration.mechanicsApplied.isTrue = true := by
    rw [used]
    rfl
  obtain ⟨p, hp, hc⟩ := Reconciled.changes_of_failed judged hused failed
  refine ⟨p, hp, hc, ?_, ?_, ?_⟩
  · simp [commitOf, hc]
  · simp [commitOf, hc]
  · have hi := Character.apply_inventory lived
    rw [hc] at hi
    exact hi

/-- The session read after a commit that stays in place and only takes things away. -/
theorem after_of_failed_check {session : Session} {c : TurnCommit} {p : Changes}
    (hl : c.currentLocation = session.currentLocation)
    (hc : c.chronicle = session.chronicle.apply p.blocked) :
    (session.after c).currentLocation = session.currentLocation ∧
      (session.after c).chronicle.visitedLocations = session.chronicle.visitedLocations ∧
      Collection.Pruned p.itemsLost session.chronicle.items (session.after c).chronicle.items := by
  unfold Session.after
  split
  · refine ⟨hl, by simp [hc, Chronicle.apply, Chronicle.reached], ?_⟩
    have hi : c.chronicle.items = Collection.lose session.chronicle.items p.itemsLost := by
      simp [hc, Chronicle.apply]
    dsimp only
    rw [hi]
    exact Collection.pruned_lose p.itemsLost session.chronicle.items
  · exact ⟨rfl, rfl, Collection.pruned_refl p.itemsLost session.chronicle.items⟩

/-- **The game has the last word on a failed check.** A turn resolves whose check has failed and was
used by the narrator. Then its bundle has no place to go and nothing to gain, and loses what was
proposed to be lost. The session of the input is where it was and has visited what it had visited,
and of the things that the session and its hero held, only such as are on the list of losses are
gone. -/
theorem failed_check_gains_nothing {table : Table σ} {v : Value} {s : Store} {r : TurnResult}
    {request : NarrativeRequest} {narration : Narration}
    (h : outcome? (run table v s).1 = some (.done r))
    (asked : (run table v s).1.request = some request)
    (told : (table.narrator request).answer = .ok narration)
    (used : narration.mechanicsApplied = .bool true)
    (failed : request.resolution.isSuccess = false) :
    (∃ p, Changes.ofValue? narration.changes = .ok p ∧ r.changes.location = none ∧
      r.changes.itemsGained = [] ∧ r.changes.itemsLost = p.itemsLost) ∧
    (∃ input session, TurnInput.ofValue? v = .ok input ∧
      s.session? input.sessionId = some request.session ∧
      (run table v s).2.session? input.sessionId = some session ∧
      session.currentLocation = request.session.currentLocation ∧
      session.chronicle.visitedLocations = request.session.chronicle.visitedLocations ∧
      Collection.Pruned r.changes.itemsLost request.session.chronicle.items
        session.chronicle.items) ∧
    ∃ character, s.character? request.session.characterId = some request.character ∧
      (run table v s).2.character? request.session.characterId = some character ∧
      Collection.Pruned r.changes.itemsLost request.character.inventory character.inventory := by
  obtain ⟨c, ⟨scene, q, hfrom, hsettles, hq⟩, hcommit⟩ := run_done h
  cases asked.symm.trans hq
  obtain ⟨hlocate, hfind, -⟩ := Scene.from_iff.1 hfrom
  obtain ⟨hv, hsession, -⟩ := locate_eq_ok.1 hlocate
  have hcharacter := findCharacter_eq_ok.1 hfind
  obtain ⟨p, hp, hr, hplace, hchronicle, hinventory⟩ := hsettles.of_failed_check told used failed
  obtain ⟨hqs, hqc⟩ := hsettles.asks
  obtain ⟨-, hwrite⟩ := Store.commit_eq_ok.1 hcommit
  have hsession' := Store.session?_write (aside table (some request) s) c table.now
    scene.input.sessionId
  have hcharacter' := Store.character?_write (aside table (some request) s) c table.now
    scene.session.characterId
  rw [aside, Store.session?_completeAll, hsession] at hsession'
  rw [aside, Store.character?_completeAll, hcharacter] at hcharacter'
  rw [hwrite, asked, hqs, hqc, hr]
  refine ⟨⟨p, hp, rfl, rfl, rfl⟩, ⟨scene.input, _, hv, hsession, hsession', ?_⟩,
    ⟨_, hcharacter, hcharacter', ?_⟩⟩
  · -- The narrator may have completed the session on the side: then only its status differs.
    dsimp only
    split
    · exact after_of_failed_check hplace hchronicle
    · exact after_of_failed_check hplace hchronicle
  · have hi : (scene.character.after c).inventory = c.character.inventory := by
      rw [Character.after, if_pos hsettles.addressees.2.symm]
    rw [hi, hinventory]
    exact Collection.pruned_lose p.itemsLost scene.character.inventory

/-- A narrator who gives a sword and leads to the vault although the door has stayed shut: the hero
stays at the gate without a sword, and only the torch, which the narrator took, may be gone. -/
theorem failed_check_gains_nothing_despite_offers :
    let table := SmallGame.table
      (SmallGame.narrator ⟨-1, 5, ["sword"], ["torch"], some "vault", [], []⟩ true [])
    let out := run table SmallGame.input SmallGame.store
    out.1.request = some SmallGame.request ∧ ∃ r, outcome? out.1 = some (.done r) ∧
      r.changes.location = none ∧ r.changes.itemsGained = [] ∧
      ∃ character, out.2.character? "hero" = some character ∧
        Collection.Pruned r.changes.itemsLost ["torch"] character.inventory := by
  intro table out
  have hasked : out.1.request = some SmallGame.request := by decide +kernel
  have hdone : (result? out.1).isSome = true := by decide +kernel
  obtain ⟨r, hr⟩ := Option.isSome_iff_exists.1 hdone
  have h := result?_eq_some.1 hr
  obtain ⟨⟨p, -, hl, hg, -⟩, -, character, -, hc, hi⟩ :=
    failed_check_gains_nothing h hasked rfl rfl rfl
  exact ⟨hasked, r, h, hl, hg, character, hc, hi⟩

end Turn

end Adventure
