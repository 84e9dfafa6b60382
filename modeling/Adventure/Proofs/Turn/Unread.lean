import Adventure.Proofs.Narrative.Noise
import Adventure.Proofs.Story.Proposal
import Adventure.Proofs.Turn.Unused
/-!
# A text that cannot be read changes nothing

Where no part of a narrator's text is a response, the text is told to the player as it is, and the
game goes on as if nothing had happened: the character and the session are written back as they were
read, whatever was rolled (`unread_changes_nothing`). A turn ends in death then only if the hero was
depleted before it.
-/

namespace Adventure

theorem Chronicle.apply_nothing (c : Chronicle) : c.apply .nothing = c := by
  simp [Chronicle.apply, Changes.nothing, Chronicle.reached]

/-- A commit that stays in place and adds nothing leaves a session where it is. -/
theorem Session.after_in_place {session : Session} {c : TurnCommit}
    (hl : c.currentLocation = session.currentLocation) (hc : c.chronicle = session.chronicle) :
    (session.after c).currentLocation = session.currentLocation ∧
      (session.after c).chronicle = session.chronicle := by
  unfold Session.after
  split
  · exact ⟨hl, hc⟩
  · exact ⟨rfl, rfl⟩

/-- Without changes and without damage a character stays as it is. -/
theorem Character.apply_nothing (c : Character) :
    c.apply .nothing (.number 0) = .done (c, []) := by
  have hzero : ¬ (0 : Number) < 0 := by decide
  refine apply_eq_done.2 ⟨0, c, rfl, if_neg hzero, ?_⟩
  have hchange : c.changeHp Changes.nothing.hpChange = c := by
    rw [changeHp, Changes.nothing, if_neg hzero, if_neg hzero]
  rw [hchange, sufferDamage, if_neg hzero]
  simp [changeItems, Changes.nothing]

/-- A text that has no response in it is the narration itself. -/
theorem Response.ofText_of_unstructured {text : String} (h : (ofText text).1.structured = false) :
    (ofText text).1 = plain text.toList := by
  unfold ofText at h ⊢
  dsimp only at h ⊢
  split
  · rename_i r hr
    obtain ⟨part, -, haccepted⟩ := List.exists_of_findSome?_eq_some hr
    rw [hr] at h
    exact absurd ((structured_of_accepted haccepted).symm.trans h) (by decide)
  · rfl

namespace Turn

variable {σ : Type} [DiceSource σ]

/-- What is settled then is what was read. -/
theorem Settles.of_unread {table : Table σ} {scene : Scene} {q : NarrativeRequest} {c : TurnCommit}
    {r : TurnResult} {text : String} (h : Settles table scene q c r)
    (told : (table.narrator q).answer = .ok (Response.ofText text).1.toNarration)
    (unread : (Response.ofText text).1.structured = false) :
    c = ⟨scene.session.id, scene.character, scene.session.currentLocation, scene.session.chronicle,
        if scene.character.hp ≤ 0 then some .defeat else none⟩ ∧
      r.verdict = .nonMechanical ∧ r.resolution = none ∧ r.changes = .nothing := by
  rw [Response.ofText_of_unstructured unread] at told
  obtain ⟨hverdict, hresolution, hp, _, lived⟩ := h.of_unused told rfl
  have hnothing : r.changes = .nothing := by
    have hproposed : Changes.ofValue? (Response.plain text.toList).toNarration.changes = .ok .nothing :=
      Changes.ofValue?_toValue Changes.wellFormed_nothing
    exact (Except.ok.inj (hproposed.symm.trans hp)).symm
  rw [hnothing, Character.apply_nothing] at lived
  have hcharacter : scene.character = c.character := congrArg Prod.fst (Outcome.done.inj lived)
  obtain ⟨hplace, hchronicle⟩ := h.place_eq
  rw [hnothing] at hplace hchronicle
  rw [Chronicle.apply_nothing] at hchronicle
  refine ⟨?_, hverdict, hresolution, hnothing⟩
  have hending := h.ending_eq
  rw [h.isTerminated_eq, ← hcharacter] at hending
  calc c = ⟨c.sessionId, c.character, c.currentLocation, c.chronicle, c.ending⟩ := rfl
    _ = _ := by
      rw [h.addressees.1, hplace, hchronicle, hending, ← hcharacter]
      simp [Changes.nothing, Character.isDepleted]

/-- **A text that cannot be read never touches the game.** A turn resolves whose narrator answered
with a text in which there is no response. Then the check is of no account, whatever was rolled; the
commit puts the character, the place and the chronicle back as they were read; and the session ends
just when its hero had no hit points left before. -/
theorem unread_changes_nothing {table : Table σ} {v : Value} {s : Store} {r : TurnResult}
    {q : NarrativeRequest} {text : String} (h : outcome? (run table v s).1 = some (.done r))
    (asked : (run table v s).1.request = some q)
    (told : (table.narrator q).answer = .ok (Response.ofText text).1.toNarration)
    (unread : (Response.ofText text).1.structured = false) :
    r.verdict = .nonMechanical ∧ r.resolution = none ∧ r.changes = .nothing ∧
    r.character = q.character ∧ (r.isTerminated = true ↔ q.character.hp ≤ 0) ∧
    ∃ input session, TurnInput.ofValue? v = .ok input ∧
      s.session? input.sessionId = some q.session ∧
      s.character? q.session.characterId = some q.character ∧
      (run table v s).2 = (aside table (some q) s).write
        ⟨q.session.id, q.character, q.session.currentLocation, q.session.chronicle,
          if q.character.hp ≤ 0 then some .defeat else none⟩ table.now ∧
      (run table v s).2.character? q.session.characterId = some q.character ∧
      (run table v s).2.session? input.sessionId = some session ∧
      session.currentLocation = q.session.currentLocation ∧
      session.chronicle = q.session.chronicle := by
  obtain ⟨c, ⟨scene, q', hfrom, hsettles, hq⟩, hcommit⟩ := run_done h
  cases asked.symm.trans hq
  obtain ⟨hlocate, hfind, -⟩ := Scene.from_iff.1 hfrom
  obtain ⟨hv, hsession, -⟩ := locate_eq_ok.1 hlocate
  have hcharacter := findCharacter_eq_ok.1 hfind
  obtain ⟨hc, hverdict, hresolution, hchanges⟩ := hsettles.of_unread told unread
  obtain ⟨hsame, -, hdead⟩ := hsettles.character_eq
  obtain ⟨hqs, hqc⟩ := hsettles.asks
  obtain ⟨-, hwrite⟩ := Store.commit_eq_ok.1 hcommit
  rw [asked] at hwrite
  have hsession' := Store.session?_write (aside table (some q) s) c table.now
    scene.input.sessionId
  have hcharacter' := Store.character?_write (aside table (some q) s) c table.now
    scene.session.characterId
  rw [aside, Store.session?_completeAll, hsession] at hsession'
  rw [aside, Store.character?_completeAll, hcharacter] at hcharacter'
  have hkept : scene.character.after c = scene.character := by
    rw [hc, Character.after, if_pos rfl]
  rw [Option.map_some, hkept] at hcharacter'
  rw [hqs, hqc, ← hc, hwrite]
  have hafter : r.character = scene.character := by rw [hsame, hc]
  refine ⟨hverdict, hresolution, hchanges, hafter, hafter ▸ hdead, scene.input, _, hv, hsession,
    hcharacter, rfl, hcharacter', hsession', ?_⟩
  -- The narrator may have completed the session on the side: then only its status differs.
  split
  · exact Session.after_in_place (by rw [hc]) (by rw [hc])
  · exact Session.after_in_place (by rw [hc]) (by rw [hc])

/-- A fumble of three, and a text that offers choices in lines: the hero, who had no hit points left
and holds two torches, is written back as it was, and the session ends. -/
theorem unread_changes_nothing_after_a_fumble :
    let text := "The door stays shut.\n1. Knock \x7bagain\x7d\n- Leave"
    let hero : Character := { SmallGame.hero with hp := 0, inventory := ["torch", "torch"] }
    let narrator : Narrator := fun _ => ⟨.ok (Response.ofText text).1.toNarration, [], []⟩
    let table : Table Scripted := ⟨.hard, .ofValues [.number 1, .number 3], narrator, 7⟩
    let store : Store := { SmallGame.store with characters := [⟨hero, true, none⟩] }
    let out := run table SmallGame.input store
    ∃ r, outcome? out.1 = some (.done r) ∧ r.verdict = .nonMechanical ∧ r.resolution = none ∧
      r.character = hero ∧ r.isTerminated = true ∧ out.2.character? "hero" = some hero := by
  intro text hero narrator table store out
  have hdone : (result? out.1).isSome = true := by decide +kernel
  have hunread : (Response.ofText text).1.structured = false := by decide +kernel
  have hasked : (out.1.request.map fun q => (q.session.characterId, q.character)) =
      some ("hero", hero) := by decide +kernel
  obtain ⟨r, hr⟩ := Option.isSome_iff_exists.1 hdone
  obtain ⟨q, hq, hqs⟩ := Option.map_eq_some_iff.1 hasked
  obtain ⟨hid, hcharacter⟩ := Prod.mk.inj hqs
  have h := result?_eq_some.1 hr
  obtain ⟨hverdict, hresolution, -, hafter, hdead, _, _, -, -, -, -, hread, -⟩ :=
    unread_changes_nothing h hq rfl hunread
  rw [hid, hcharacter] at hread
  rw [hcharacter] at hafter hdead
  exact ⟨r, h, hverdict, hresolution, hafter, hdead.2 (by decide), hread⟩

end Turn

end Adventure
