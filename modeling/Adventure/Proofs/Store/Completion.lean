import Adventure.Proofs.Store.Commit
/-!
# Sessions that are over

Two things happen to a store while turns run: narrators complete sessions (`completeAll`) and
commits are written (`write`). Neither changes the roster, the list of who plays which session. In a
tidy store, where the roster repeats no session and no character, neither reaches a completed
session or its character (`Keeps`).
-/

namespace Adventure.Store

/-- The sessions with their characters. -/
def roster (s : Store) : List (String × String) :=
  s.sessions.map fun row => (row.id, row.characterId)

/-- The store after some sessions have been completed from outside of a turn. -/
def completeAll (s : Store) (ids : List String) : Store := ids.foldl complete s

theorem mem_roster {s : Store} {id owner : String} :
    (id, owner) ∈ s.roster ↔ ∃ row ∈ s.sessions, row.id = id ∧ row.characterId = owner := by
  simp [roster]

@[simp] theorem roster_write (s : Store) (c : TurnCommit) (now : Instant) :
    (s.write c now).roster = s.roster := by
  simp [roster, write, Function.comp_def]

/-! ## Completing from outside -/

/-- Completing reaches one row at most, and there it sets the status and nothing else. -/
theorem getElem?_completeFirst (id : String) (rows : List SessionRow) (i : Nat) :
    (completeFirst id rows)[i]? = rows[i]? ∨ ∃ row, rows[i]? = some row ∧ row.id = id ∧
      (completeFirst id rows)[i]? = some { row with status := .completed } := by
  induction rows generalizing i with
  | nil => exact .inl rfl
  | cons row rest ih =>
    unfold completeFirst
    split
    · rename_i h
      cases i with
      | zero => exact .inr ⟨row, rfl, h, rfl⟩
      | succ i => exact .inl rfl
    · cases i with
      | zero => exact .inl rfl
      | succ i => simpa using ih i

theorem map_completeFirst {α : Type} (f : SessionRow → α)
    (hf : ∀ row : SessionRow, f { row with status := .completed } = f row) (id : String)
    (rows : List SessionRow) : (completeFirst id rows).map f = rows.map f := by
  induction rows with
  | nil => rfl
  | cons row rest ih =>
    unfold completeFirst
    split
    · simp [hf]
    · simp [ih]

@[simp] theorem completeAll_nil (s : Store) : s.completeAll [] = s := rfl

@[simp] theorem completeAll_cons (s : Store) (id : String) (ids : List String) :
    s.completeAll (id :: ids) = (s.complete id).completeAll ids := rfl

@[simp] theorem roster_completeAll (s : Store) (ids : List String) :
    (s.completeAll ids).roster = s.roster := by
  induction ids generalizing s with
  | nil => rfl
  | cons id ids ih =>
    rw [completeAll_cons, ih]
    exact map_completeFirst (fun row => (row.id, row.characterId)) (fun _ => rfl) id s.sessions

@[simp] theorem characters_completeAll (s : Store) (ids : List String) :
    (s.completeAll ids).characters = s.characters := by
  induction ids generalizing s with
  | nil => rfl
  | cons id ids ih =>
    rw [completeAll_cons, ih]
    rfl

@[simp] theorem character?_completeAll (s : Store) (ids : List String) (id : String) :
    (s.completeAll ids).character? id = s.character? id := by
  rw [character?, character?, characters_completeAll]

/-- **Completing from outside changes nothing but the status** of rows whose session was named. -/
theorem getElem?_completeAll (s : Store) (ids : List String) (i : Nat) :
    (s.completeAll ids).sessions[i]? = s.sessions[i]? ∨
      ∃ row, s.sessions[i]? = some row ∧ row.id ∈ ids ∧
        (s.completeAll ids).sessions[i]? = some { row with status := .completed } := by
  induction ids generalizing s with
  | nil => exact .inl rfl
  | cons id ids ih =>
    rw [completeAll_cons]
    rcases getElem?_completeFirst id s.sessions i with h | ⟨row, hr, hid, h⟩
    · rcases ih (s.complete id) with h' | ⟨row, hr, hid, h'⟩
      · exact .inl (h'.trans h)
      · exact .inr ⟨row, h ▸ hr, List.mem_cons_of_mem _ hid, h'⟩
    · refine .inr ⟨row, hr, hid ▸ List.mem_cons_self, ?_⟩
      rcases ih (s.complete id) with h' | ⟨row', hr', _, h'⟩
      · exact h'.trans h
      · cases (show some { row with status := .completed } = some row' from h.symm.trans hr')
        exact h'

/-- The first row of an id is the one that is read, and the one that is completed. -/
theorem find?_completeFirst (named id : String) (rows : List SessionRow) :
    (completeFirst named rows).find? (fun row => row.id = id) =
      (rows.find? fun row => row.id = id).map fun row =>
        if id = named then { row with status := .completed } else row := by
  induction rows with
  | nil => rfl
  | cons row rest ih =>
    unfold completeFirst
    by_cases hi : row.id = id
    · subst hi
      by_cases hn : row.id = named
      · simp [hn]
      · simp [hn]
    · by_cases hn : row.id = named
      · have hin : ¬ id = named := fun e => hi (hn.trans e.symm)
        rw [if_pos hn, List.find?_cons_of_neg (by simpa using hi),
          List.find?_cons_of_neg (by simpa using hi)]
        simp [hin]
      · rw [if_neg hn, List.find?_cons_of_neg (by simpa using hi),
          List.find?_cons_of_neg (by simpa using hi), ih]

theorem session?_complete (s : Store) (named id : String) :
    (s.complete named).session? id = (s.session? id).map fun session =>
      if id = named then { session with status := .completed } else session := by
  simp only [session?, complete, find?_completeFirst, Option.map_map, Function.comp_def]
  split
  · rfl
  · rfl

/-- **A session that was completed from outside is otherwise read as before.** -/
theorem session?_completeAll (s : Store) (ids : List String) (id : String) :
    (s.completeAll ids).session? id = (s.session? id).map fun session =>
      if id ∈ ids then { session with status := .completed } else session := by
  induction ids generalizing s with
  | nil => simp
  | cons named ids ih =>
    rw [completeAll_cons, ih, session?_complete, Option.map_map]
    congr 1
    funext session
    by_cases hn : id = named
    · simp [hn]
    · simp [hn]

/-! ## Tidy stores -/

/-- Session ids are unique, and no two sessions share a character. -/
structure Tidy (s : Store) : Prop where
  ids : (s.sessions.map fun row => row.id).Nodup
  owners : (s.sessions.map fun row => row.characterId).Nodup

theorem Tidy.of_roster_eq {s s' : Store} (h : s.Tidy) (hr : s'.roster = s.roster) : s'.Tidy := by
  have hi := congrArg (List.map Prod.fst) hr
  have ho := congrArg (List.map Prod.snd) hr
  simp only [roster, List.map_map, Function.comp_def] at hi ho
  exact ⟨hi ▸ h.ids, ho ▸ h.owners⟩

/-- In a tidy store an open session and its character single out the same row. -/
theorem Tidy.isOpen_iff_owner {s : Store} (h : s.Tidy) {id owner : String}
    (ho : s.isOpen id = true) (hr : (id, owner) ∈ s.roster) {row : SessionRow}
    (hrow : row ∈ s.sessions) : row.isOpen id = true ↔ row.characterId = owner := by
  obtain ⟨a, ha, hai, hactive⟩ := isOpen_iff.1 ho
  obtain ⟨b, hb, hbi, rfl⟩ := mem_roster.1 hr
  cases List.inj_on_of_nodup_map h.ids ha hb (hai.trans hbi.symm)
  constructor
  · intro hopen
    have hid := (SessionRow.isOpen_iff.1 hopen).1
    rw [List.inj_on_of_nodup_map h.ids hrow ha (hid.trans hai.symm)]
  · intro howner
    rw [List.inj_on_of_nodup_map h.owners hrow ha howner]
    exact SessionRow.isOpen_iff.2 ⟨hai, hactive⟩

/-! ## What stays -/

/-- The rows of a character. -/
def players (s : Store) (id : String) : List CharacterRow :=
  s.characters.filter fun player => player.character.id = id

theorem mem_players {s : Store} {id : String} {player : CharacterRow} :
    player ∈ s.players id ↔ player ∈ s.characters ∧ player.character.id = id := by
  simp [players]

@[simp] theorem players_completeAll (s : Store) (ids : List String) (id : String) :
    (s.completeAll ids).players id = s.players id := by
  rw [players, players, characters_completeAll]

theorem players_write (s : Store) (c : TurnCommit) (now : Instant) (id : String) :
    (s.write c now).players id = (s.players id).map fun player => player.touch c now := by
  simp only [players, write, List.filter_map, Function.comp_def, CharacterRow.touch_id]

/-- A commit leaves every character alone but its own. -/
theorem players_write_of_ne {s : Store} {c : TurnCommit} (now : Instant) {id : String}
    (h : id ≠ c.character.id) : (s.write c now).players id = s.players id := by
  have hp : ∀ player ∈ s.players id, player.touch c now = player := by
    intro player hp
    have hid := (mem_players.1 hp).2
    exact if_neg fun e => h (hid.symm.trans e)
  rw [players_write, List.map_congr_left hp, List.map_id']

/-- Completed sessions, and the characters that play them, are the same in both stores. -/
def Keeps (s s' : Store) : Prop :=
  ∀ (i : Nat) (row : SessionRow), s.sessions[i]? = some row → row.status = .completed →
    s'.sessions[i]? = some row ∧ s'.players row.characterId = s.players row.characterId

theorem keeps_refl (s : Store) : s.Keeps s := fun _ _ hr _ => ⟨hr, rfl⟩

theorem Keeps.trans {a b c : Store} (hab : a.Keeps b) (hbc : b.Keeps c) : a.Keeps c := by
  intro i row hr hs
  obtain ⟨hr', hc⟩ := hab i row hr hs
  obtain ⟨hr'', hc'⟩ := hbc i row hr' hs
  exact ⟨hr'', hc'.trans hc⟩

theorem keeps_completeAll (s : Store) (ids : List String) : s.Keeps (s.completeAll ids) := by
  intro i row hr hs
  refine ⟨?_, players_completeAll s ids row.characterId⟩
  rcases getElem?_completeAll s ids i with h | ⟨row', hr', _, h⟩
  · exact h.trans hr
  · cases (show some row = some row' from hr.symm.trans hr')
    rw [h, ← hs]

theorem keeps_write {s : Store} (h : s.Tidy) {c : TurnCommit} (now : Instant)
    (ho : s.isOpen c.sessionId = true) (hr : (c.sessionId, c.character.id) ∈ s.roster) :
    s.Keeps (s.write c now) := by
  intro i row hrow hs
  have hopen : ¬ row.isOpen c.sessionId := by simp [SessionRow.isOpen_iff, hs]
  have howner := mt (h.isOpen_iff_owner ho hr (List.mem_of_getElem? hrow)).2 hopen
  refine ⟨?_, players_write_of_ne now howner⟩
  simp only [write, List.getElem?_map, hrow, Option.map_some, SessionRow.touch_of_not_open hopen]

end Adventure.Store
