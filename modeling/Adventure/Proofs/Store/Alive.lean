import Adventure.Proofs.Store.Completion
import Adventure.Proofs.Story.Character
/-!
# Who is alive

Every character of an active session is alive, and a session that a turn has completed is lost: it
ended in defeat, and its character is dead. Both facts survive everything that turns and narrators
do to a tidy store, as long as commits are such as turns make them (`Admits`).
-/

namespace Adventure.Store

/-- Every character has hit points with a value. -/
def AllMeasured (s : Store) : Prop := ∀ player ∈ s.characters, player.character.Measured

/-- Whoever plays an active session is alive. -/
def AllAlive (s : Store) : Prop :=
  ∀ row ∈ s.sessions, row.status = .active →
    ∀ player ∈ s.players row.characterId, 0 < player.character.hp

/-- A store in which turns may be made: tidy, and with nobody dead at play. That hit points have a
value is what the integer columns of the rows guarantee: `Number` has a `nan`, and they do not. -/
structure Ready (s : Store) : Prop where
  tidy : s.Tidy
  measured : s.AllMeasured
  alive : s.AllAlive

/-- A session that ended in defeat, by the death of its character. -/
structure Lost (s : Store) (row : SessionRow) : Prop where
  status : row.status = .completed
  ending : row.ending = some .defeat
  dead : ∀ player ∈ s.players row.characterId, player.character.hp ≤ 0

/-- A commit as turns make it: for a session and the character that plays it, with hit points that
have a value, and with an ending just for the depleted. -/
structure Admits (s : Store) (c : TurnCommit) : Prop where
  roster : (c.sessionId, c.character.id) ∈ s.roster
  measured : c.character.Measured
  ending : c.ending = if c.character.isDepleted then some .defeat else none

/-! ## What is read -/

theorem mem_roster_of_session? {s : Store} {id : String} {session : Session}
    (h : s.session? id = some session) : (session.id, session.characterId) ∈ s.roster := by
  obtain ⟨row, hr, rfl⟩ := Option.map_eq_some_iff.1 h
  exact mem_roster.2 ⟨row, List.mem_of_find?_eq_some hr, rfl, rfl⟩

theorem AllMeasured.character? {s : Store} (hm : s.AllMeasured) {id : String} {c : Character}
    (h : s.character? id = some c) : c.Measured := by
  unfold Store.character? at h
  split at h
  · rename_i row hr
    split at h
    · cases h
      exact hm row (List.mem_of_find?_eq_some hr)
    · cases h
  · cases h

/-! ## Completing from outside -/

theorem allMeasured_completeAll {s : Store} (h : s.AllMeasured) (ids : List String) :
    (s.completeAll ids).AllMeasured := by
  rwa [AllMeasured, characters_completeAll]

theorem allAlive_completeAll {s : Store} (h : s.AllAlive) (ids : List String) :
    (s.completeAll ids).AllAlive := by
  intro row hrow hs player hp
  rw [players_completeAll] at hp
  obtain ⟨i, hi⟩ := List.mem_iff_getElem?.1 hrow
  rcases getElem?_completeAll s ids i with he | ⟨old, _, _, he⟩
  · exact h row (List.mem_of_getElem? (he ▸ hi)) hs player hp
  · cases (show some row = some { old with status := .completed } from hi.symm.trans he)
    cases hs

/-! ## Writing -/

section
variable {s : Store} {c : TurnCommit} (now : Instant)

theorem allMeasured_write (h : s.AllMeasured) (hc : c.character.Measured) :
    (s.write c now).AllMeasured := by
  intro player' hp'
  obtain ⟨player, hp, rfl⟩ := List.mem_map.1 hp'
  unfold CharacterRow.touch
  split
  · exact ⟨hc.hp, hc.maxHp⟩
  · exact h player hp

/-- The rows of a commit's own character take its hit points. -/
theorem hp_of_mem_players_write {player : CharacterRow}
    (h : player ∈ (s.write c now).players c.character.id) :
    player.character.hp = c.character.hp := by
  rw [players_write] at h
  obtain ⟨old, ho, rfl⟩ := List.mem_map.1 h
  rw [CharacterRow.touch, if_pos (mem_players.1 ho).2]
  rfl

theorem allAlive_write (ht : s.Tidy) (h : s.AllAlive) (hc : s.Admits c)
    (ho : s.isOpen c.sessionId = true) : (s.write c now).AllAlive := by
  intro row' hrow' hs player hp
  obtain ⟨row, hrow, rfl⟩ := List.mem_map.1 hrow'
  rw [SessionRow.touch_characterId] at hp
  have howner := ht.isOpen_iff_owner ho hc.roster hrow
  by_cases hopen : row.isOpen c.sessionId
  · -- The commit's own session stays active only if its character is not depleted.
    rw [SessionRow.touch, if_pos hopen] at hs
    rw [howner.1 hopen] at hp
    rw [hp_of_mem_players_write now hp]
    refine hc.measured.pos_of_not_depleted ?_
    by_cases hd : c.character.isDepleted
    · have he : c.ending = some .defeat := by rw [hc.ending, if_pos hd]
      simp [SessionRow.update, he] at hs
    · simpa using hd
  · rw [SessionRow.touch_of_not_open hopen] at hs
    rw [players_write_of_ne now (mt howner.2 hopen)] at hp
    exact h row hrow hs player hp

/-- **A session that a commit completes is lost.** -/
theorem lost_write (ht : s.Tidy) (hc : s.Admits c) (ho : s.isOpen c.sessionId = true)
    (hd : c.character.isDepleted = true) {row : SessionRow} (hrow : row ∈ s.sessions)
    (hopen : row.isOpen c.sessionId = true) :
    (s.write c now).Lost (row.touch c now) := by
  have he : c.ending = some .defeat := by rw [hc.ending, if_pos hd]
  have howner := (ht.isOpen_iff_owner ho hc.roster hrow).1 hopen
  refine ⟨?_, ?_, ?_⟩
  · simp [SessionRow.touch, hopen, SessionRow.update, he]
  · simp [SessionRow.touch, hopen, SessionRow.update, he]
  · intro player hp
    rw [SessionRow.touch_characterId, howner] at hp
    rw [hp_of_mem_players_write now hp]
    simpa [Character.isDepleted] using hd

end

theorem ready_completeAll {s : Store} (h : s.Ready) (ids : List String) :
    (s.completeAll ids).Ready :=
  ⟨h.tidy.of_roster_eq (roster_completeAll s ids), allMeasured_completeAll h.measured ids,
    allAlive_completeAll h.alive ids⟩

/-- **A ready store stays ready** under every commit that turns make. -/
theorem ready_write {s : Store} {c : TurnCommit} (now : Instant) (h : s.Ready) (hc : s.Admits c)
    (ho : s.isOpen c.sessionId = true) : (s.write c now).Ready :=
  ⟨h.tidy.of_roster_eq (roster_write s c now), allMeasured_write now h.measured hc.measured,
    allAlive_write now h.tidy h.alive hc ho⟩

/-! ## Lost for good -/

theorem Lost.of_keeps {s s' : Store} {i : Nat} {row : SessionRow} (h : s.Lost row)
    (hk : s.Keeps s') (hr : s.sessions[i]? = some row) :
    s'.sessions[i]? = some row ∧ s'.Lost row := by
  obtain ⟨hr', hp⟩ := hk i row hr h.status
  exact ⟨hr', h.status, h.ending, hp ▸ h.dead⟩

/-- A lost session is not open. -/
theorem isOpen_of_lost {s : Store} (ht : s.Tidy) {row : SessionRow} (hrow : row ∈ s.sessions)
    (h : s.Lost row) : s.isOpen row.id = false := by
  rw [Bool.eq_false_iff]
  intro ho
  obtain ⟨other, hother, hid, hs⟩ := isOpen_iff.1 ho
  cases List.inj_on_of_nodup_map ht.ids hrow hother hid.symm
  rw [h.status] at hs
  cases hs

end Adventure.Store
