import Adventure.Proofs.Turn.Course
/-!
# The player is told what is stored

A turn builds the answer to the player and the commit to the store separately, from the same few
values. They agree: with the result of a turn and the rows before it, the rows after it are fixed
(`SessionRow.told`, `CharacterRow.told`), and no other row differs. What the player reads besides,
the narration, the options and the check, is what the narrator gave and what was rolled, but for the
last words of a turn that ends in death.
-/

namespace Adventure

/-! ## Rows after a turn -/

/-- The session row after a turn of which the player was told `r`. -/
def SessionRow.told (row : SessionRow) (r : TurnResult) (now : Instant) : SessionRow :=
  { row with
    currentLocation := r.changes.location.getD row.currentLocation
    chronicle := some ((row.chronicle.getD .empty).apply r.changes)
    lastActivityAt := some now
    status := if r.isTerminated then .completed else row.status
    ending := if r.isTerminated then some .defeat else row.ending }

/-- The character row after a turn of which the player was told `r`. -/
def CharacterRow.told (row : CharacterRow) (r : TurnResult) (now : Instant) : CharacterRow :=
  { row with
    character := { r.character with id := row.character.id, name := row.character.name }
    updatedAt := some now }

/-- A change that reaches the things with one key only is a change in one place, if no key comes
twice. -/
theorem map_eq_set {α κ : Type} {key : α → κ} {f : α → α} {things : List α}
    (hn : (things.map key).Nodup) {i : Nat} {a : α} (hi : things[i]? = some a)
    (hf : ∀ b ∈ things, key b ≠ key a → f b = b) : things.map f = things.set i (f a) := by
  induction things generalizing i with
  | nil => cases hi
  | cons b rest ih =>
    obtain ⟨hb, hrest⟩ := List.nodup_cons.1 hn
    cases i with
    | zero =>
      cases hi
      have hsame : ∀ d ∈ rest, f d = d := fun d hd =>
        hf d (List.mem_cons_of_mem _ hd) fun e => hb (e ▸ List.mem_map_of_mem hd)
      rw [List.map_cons, List.set_cons_zero, List.map_congr_left hsame, List.map_id']
    | succ i =>
      have hne : key b ≠ key a := fun e => hb (e ▸ List.mem_map_of_mem (List.mem_of_getElem? hi))
      rw [List.map_cons, List.set_cons_succ, hf b List.mem_cons_self hne,
        ih hrest hi fun d hd => hf d (List.mem_cons_of_mem _ hd)]

namespace Store

/-- Where a session that is read has its row. -/
theorem row_of_session? {s : Store} {id : String} {session : Session}
    (h : s.session? id = some session) :
    ∃ (i : Nat) (row : SessionRow),
      s.sessions[i]? = some row ∧ row.id = id ∧ row.snapshot = session := by
  obtain ⟨row, hr, hs⟩ := Option.map_eq_some_iff.1 h
  obtain ⟨i, hi⟩ := List.mem_iff_getElem?.1 (List.mem_of_find?_eq_some hr)
  exact ⟨i, row, hi, by simpa using List.find?_some hr, hs⟩

/-- Where a character that is read has its row. -/
theorem row_of_character? {s : Store} {id : String} {character : Character}
    (h : s.character? id = some character) :
    ∃ (i : Nat) (row : CharacterRow),
      s.characters[i]? = some row ∧ row.isActive = true ∧ row.character = character := by
  unfold character? at h
  split at h
  · rename_i row hr
    obtain ⟨i, hi⟩ := List.mem_iff_getElem?.1 (List.mem_of_find?_eq_some hr)
    split at h
    · rename_i ha
      cases h
      exact ⟨i, row, hi, ha, rfl⟩
    · cases h
  · cases h

/-- Where ids are unique, a commit rewrites one row of a session and one of a character. -/
theorem write_eq_set {s : Store} (sessionIds : (s.sessions.map fun row => row.id).Nodup)
    (characterIds : (s.characters.map fun row => row.character.id).Nodup) (c : TurnCommit)
    (now : Instant) {i j : Nat} {row : SessionRow} {player : CharacterRow}
    (hrow : s.sessions[i]? = some row) (hid : row.id = c.sessionId)
    (hplayer : s.characters[j]? = some player) (hcid : player.character.id = c.character.id) :
    s.write c now =
      { s with
        sessions := s.sessions.set i (row.touch c now)
        characters := s.characters.set j (player.touch c now) } := by
  have hs : s.sessions.map (fun row => row.touch c now) = s.sessions.set i (row.touch c now) := by
    apply map_eq_set sessionIds hrow
    intro other _ hne
    apply SessionRow.touch_of_not_open
    intro ho
    exact hne ((SessionRow.isOpen_iff.1 ho).1.trans hid.symm)
  have hc : s.characters.map (fun row => row.touch c now) =
      s.characters.set j (player.touch c now) := by
    apply map_eq_set characterIds hplayer
    intro other _ hne
    exact if_neg fun e => hne (e.trans hcid.symm)
  rw [write, hs, hc]

end Store

/-! ## What the player reads -/

/-- What the player reads in `r` is what the narrator gave, unless the turn ended in death: then the
epilogue is added, and there is nothing left to choose. -/
structure TurnResult.Relays (r : TurnResult) (narration : Narration) : Prop where
  ended : r.isTerminated = true ↔
    r.options = .array [] ∧ r.narrative = .string (narration.narrative.text ++ Turn.epilogue)
  going : r.isTerminated = false →
    r.options = narration.options ∧ r.narrative = narration.narrative

namespace Turn

/-- No narration is its own text with the epilogue. -/
theorem ne_with_epilogue (v : Value) : v ≠ .string (v.text ++ epilogue) := by
  cases v with
  | string s =>
    intro h
    have he : epilogue = "" := String.append_eq_left_iff.1 (Value.string.inj h).symm
    exact absurd he (by decide +kernel)
  | _ => simp

theorem resultOf_relays (narration : Narration) (reconciled : Reconciled Resolution)
    (after : Character) : (resultOf narration reconciled after).Relays narration := by
  unfold resultOf
  constructor
  · by_cases h : after.isDepleted
    · simp [h]
    · simp only [h, Bool.false_eq_true, if_false, false_iff, not_and]
      exact fun _ => ne_with_epilogue narration.narrative
  · intro h
    have h : after.isDepleted = false := h
    simp [h]

/-- The player is shown a check just when the verdict says that the narration used it. -/
theorem showsCheck_iff (verdict : Verdict) :
    verdict.rule.showsCheck = true ↔ verdict ≠ .nonMechanical := by
  cases verdict <;> simp [Verdict.rule]

variable {σ : Type} [DiceSource σ]

theorem Settles.relays {table : Table σ} {scene : Scene} {q : NarrativeRequest} {c : TurnCommit}
    {r : TurnResult} (h : Settles table scene q c r) : ∃ narration,
      (table.narrator q).answer = .ok narration ∧ r.Relays narration := by
  obtain ⟨_, told, _, _⟩ := h
  exact ⟨_, told, resultOf_relays _ _ _⟩

/-- The check that the player is shown is the one that the narrator was told of. -/
theorem Settles.shownCheck {table : Table σ} {scene : Scene} {q : NarrativeRequest}
    {c : TurnCommit} {r : TurnResult} (h : Settles table scene q c r) :
    r.shownCheck = if r.verdict = .nonMechanical then .null else q.resolution.payload := by
  cases h with
  | @intro resolution narration reconciled after remarks climbs checked told judged lived =>
    obtain ⟨_, -, -, -, hshown, -, -⟩ := reconcile_eq_ok.1 judged
    by_cases hv : reconciled.verdict = .nonMechanical
    · simp [TurnResult.shownCheck, resultOf, hshown, hv, Verdict.rule]
    · simp [TurnResult.shownCheck, resultOf, requestOf, hshown, hv, (showsCheck_iff _).2 hv]

/-- A turn leaves a character its name, and tells the player of the character that it commits. -/
theorem Settles.character_eq {table : Table σ} {scene : Scene} {q : NarrativeRequest}
    {c : TurnCommit} {r : TurnResult} (h : Settles table scene q c r) :
    r.character = c.character ∧ c.character.name = scene.character.name ∧
      (r.isTerminated = true ↔ r.character.hp ≤ 0) := by
  obtain ⟨_, _, _, lived⟩ := h
  refine ⟨rfl, ?_, ?_⟩
  · exact congrArg (fun b => b.2.1) (Character.apply_belongings lived)
  · simp [resultOf, Character.isDepleted]

/-! ## The rows -/

/-- What a turn commits to an open row of its session is what it tells the player. -/
theorem Settles.touch_session {table : Table σ} {scene : Scene} {q : NarrativeRequest}
    {c : TurnCommit} {r : TurnResult} (h : Settles table scene q c r) {row : SessionRow}
    (hrow : row.snapshot = scene.session) (ho : row.status = .active) (now : Instant) :
    row.touch c now = row.told r now := by
  obtain ⟨hplace, hchronicle⟩ := h.place_eq
  have hopen : row.isOpen c.sessionId = true :=
    SessionRow.isOpen_iff.2 ⟨by rw [h.addressees.1, ← hrow]; rfl, ho⟩
  rw [SessionRow.touch, if_pos hopen]
  unfold SessionRow.update SessionRow.told
  rw [hplace, hchronicle, h.ending_eq, ← hrow]
  cases r.isTerminated <;> rfl

theorem Settles.touch_character {table : Table σ} {scene : Scene} {q : NarrativeRequest}
    {c : TurnCommit} {r : TurnResult} (h : Settles table scene q c r) {row : CharacterRow}
    (hrow : row.character = scene.character) (now : Instant) :
    row.touch c now = row.told r now := by
  have hid : row.character.id = c.character.id := by rw [hrow, h.addressees.2]
  rw [CharacterRow.touch, if_pos hid]
  unfold CharacterRow.update CharacterRow.told
  rw [h.character_eq.1]

/-- **What the player is told is what is stored.** In a store with unique ids, with nothing else
being written, a turn resolves. Then just two rows are written, those of the input's session and of
its character, and they hold what the result says. The turn is terminated just when its character
has no hit points left, which is just when the session is now completed in defeat; and the player
reads the narrator's words, options and check. -/
theorem told_is_stored {table : Table σ} {v : Value} {s : Store} {r : TurnResult}
    (sessionIds : (s.sessions.map fun row => row.id).Nodup)
    (characterIds : (s.characters.map fun row => row.character.id).Nodup)
    (alone : completions table (run table v s).1.request = [])
    (h : outcome? (run table v s).1 = some (.done r)) :
    ∃ (input : TurnInput) (request : NarrativeRequest) (narration : Narration) (i j : Nat)
      (row : SessionRow) (player : CharacterRow),
      TurnInput.ofValue? v = .ok input ∧
      (run table v s).1.request = some request ∧
      (table.narrator request).answer = .ok narration ∧
      s.sessions[i]? = some row ∧ row.id = input.sessionId ∧
      s.characters[j]? = some player ∧ player.character.id = row.characterId ∧
      (run table v s).2 =
        { s with
          sessions := s.sessions.set i (row.told r table.now)
          characters := s.characters.set j (player.told r table.now) } ∧
      r.character.id = player.character.id ∧ r.character.name = player.character.name ∧
      (r.isTerminated = true ↔ r.character.hp ≤ 0) ∧
      (r.isTerminated = true ↔ (row.told r table.now).status = .completed ∧
        (row.told r table.now).ending = some .defeat) ∧
      r.Relays narration ∧
      (r.shownCheck = .null ↔ r.verdict = .nonMechanical) ∧
      (r.verdict ≠ .nonMechanical → r.shownCheck = request.resolution.payload) := by
  obtain ⟨c, ⟨scene, q, hfrom, hsettles, hq⟩, hcommit⟩ := run_done h
  obtain ⟨hlocate, hfind, -⟩ := Scene.from_iff.1 hfrom
  obtain ⟨hv, hsession, hactive⟩ := locate_eq_ok.1 hlocate
  have hcharacter := findCharacter_eq_ok.1 hfind
  obtain ⟨i, row, hrow, hid, hsnapshot⟩ := Store.row_of_session? hsession
  obtain ⟨j, player, hplayer, -, hplays⟩ := Store.row_of_character? hcharacter
  have hstatus : row.status = .active := by
    rw [← hsnapshot] at hactive
    exact hactive
  have hcid : player.character.id = scene.session.characterId := by
    rw [hplays, Store.character?_id hcharacter]
  obtain ⟨narration, htold, hrelays⟩ := hsettles.relays
  obtain ⟨hsame, hname, hdead⟩ := hsettles.character_eq
  have hsessionId : row.id = c.sessionId := by
    rw [hsettles.addressees.1, ← hsnapshot]
    rfl
  have hcharacterId : player.character.id = c.character.id := by
    rw [hsettles.addressees.2, hplays]
  -- Nobody completed a session on the side, so the commit went to `s` itself.
  have hwrite : (run table v s).2 = s.write c table.now := by
    rw [aside, alone, Store.completeAll_nil] at hcommit
    exact (Store.commit_eq_ok.1 hcommit).2
  rw [Store.write_eq_set sessionIds characterIds c table.now hrow hsessionId hplayer hcharacterId,
    hsettles.touch_session hsnapshot hstatus, hsettles.touch_character hplays] at hwrite
  refine ⟨scene.input, q, narration, i, j, row, player, hv, hq, htold, hrow, hid, hplayer, ?_,
    hwrite, ?_, ?_, hdead, ?_, hrelays, ?_, ?_⟩
  · rw [hcid, ← hsnapshot]
    rfl
  · rw [hsame, hcharacterId]
  · rw [hsame, hname, hplays]
  · cases hd : r.isTerminated <;> simp [SessionRow.told, hd, hstatus]
  · rw [hsettles.shownCheck]
    split
    · simpa
    · simpa [Resolution.payload]
  · intro hv
    rw [hsettles.shownCheck, if_neg hv]

/-- A deadly wound behind the door: of two sessions and two heroes, one of each is written. -/
theorem told_is_stored_of_a_death :
    let table := SmallGame.table (SmallGame.narrator { Changes.nothing with hpChange := -30 } true [])
    let other : SessionRow := ⟨"other", "friend", "crypt", .active, "hall", none, none, none⟩
    let friend : CharacterRow := ⟨{ SmallGame.hero with id := "friend" }, true, none⟩
    let store : Store :=
      ⟨friend :: SmallGame.store.characters, other :: SmallGame.store.sessions, []⟩
    let out := run table SmallGame.input store
    ∃ r, outcome? out.1 = some (.done r) ∧ r.options = .array [] ∧
      ∃ (i j : Nat) (row : SessionRow) (player : CharacterRow),
        store.sessions[i]? = some row ∧ row.id = SmallGame.id ∧
        store.characters[j]? = some player ∧ player.character.id = row.characterId ∧
        out.2.sessions = store.sessions.set i (row.told r 7) ∧
        out.2.characters = store.characters.set j (player.told r 7) ∧
        (row.told r 7).status = .completed ∧ (row.told r 7).ending = some .defeat := by
  intro table other friend store out
  have hdone : (result? out.1).map (fun r => r.isTerminated) = some true := by decide +kernel
  obtain ⟨r, hr, hd⟩ := Option.map_eq_some_iff.1 hdone
  have h := result?_eq_some.1 hr
  have hinput : TurnInput.ofValue? SmallGame.input = .ok ⟨SmallGame.id, "open the door", none⟩ := by
    decide +kernel
  have halone : completions table out.1.request = [] := by
    cases out.1.request <;> rfl
  obtain ⟨input, _, _, i, j, row, player, hv, -, -, hrow, hid, hplayer, hcid, hstore, -, -, -,
    hended, hrelays, -⟩ := told_is_stored (by decide) (by decide) halone h
  cases hv.symm.trans hinput
  exact ⟨r, h, (hrelays.ended.1 hd).1, i, j, row, player, hrow, hid, hplayer, hcid,
    congrArg Store.sessions hstore, congrArg Store.characters hstore, hended.1 hd⟩

end Turn

end Adventure
