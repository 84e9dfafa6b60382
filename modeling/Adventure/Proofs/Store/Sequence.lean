import Adventure.Proofs.Store.Commit
import Mathlib.Data.List.Forall2
/-!
# Commits, one after the other

A store takes commits as they come, for sessions that it may not have, or have twice, or that are
over. Each commit is a transaction of its own: it is refused and leaves nothing behind, or it rewrites
what it is for, row by row (`Recorded`). Since no commit touches a session that is not active, and
none makes one active, a session that is over stays what it is through any sequence of commits
(`commits_in_sequence`).
-/

namespace Adventure

variable {c : TurnCommit} {now : Instant}

/-! ## What a commit may do to a row -/

/-- What becomes of a session row: an active row of the session takes the place, the chronicle and
the time of the commit, and the ending, with which it is completed, if there is one. -/
structure SessionRow.Recorded (c : TurnCommit) (now : Instant) (row row' : SessionRow) : Prop where
  other : ¬ (row.id = c.sessionId ∧ row.status = .active) → row' = row
  goesOn : row.id = c.sessionId → row.status = .active → c.ending = none →
    row' =
      { row with
        currentLocation := c.currentLocation
        chronicle := some c.chronicle
        lastActivityAt := some now }
  ends : row.id = c.sessionId → row.status = .active → ∀ ending, c.ending = some ending →
    row' =
      { row with
        currentLocation := c.currentLocation
        chronicle := some c.chronicle
        lastActivityAt := some now
        status := .completed
        ending := some ending }

/-- What becomes of a character row: a row of the character takes its counts and its inventory, and
the time of the commit. -/
structure CharacterRow.Recorded (c : TurnCommit) (now : Instant) (row row' : CharacterRow) :
    Prop where
  other : row.character.id ≠ c.character.id → row' = row
  taken : row.character.id = c.character.id →
    row' =
      { row with
        character :=
          { row.character with
            level := c.character.level
            hp := c.character.hp
            maxHp := c.character.maxHp
            experience := c.character.experience
            currentExperience := c.character.currentExperience
            inventory := c.character.inventory }
        updatedAt := some now }

theorem SessionRow.recorded_touch (c : TurnCommit) (now : Instant) (row : SessionRow) :
    row.Recorded c now (row.touch c now) where
  other h := touch_of_not_open (mt isOpen_iff.1 h)
  goesOn hid hs he := by
    rw [touch, if_pos (isOpen_iff.2 ⟨hid, hs⟩)]
    simp [update, he]
  ends hid hs ending he := by
    rw [touch, if_pos (isOpen_iff.2 ⟨hid, hs⟩)]
    simp [update, he]

theorem CharacterRow.recorded_touch (c : TurnCommit) (now : Instant) (row : CharacterRow) :
    row.Recorded c now (row.touch c now) where
  other h := if_neg h
  taken h := if_pos h

namespace Store

variable {s : Store}

/-- What becomes of a store in a commit that goes through: every row is recorded in its place. -/
structure Recorded (c : TurnCommit) (now : Instant) (s s' : Store) : Prop where
  sessions : List.Forall₂ (SessionRow.Recorded c now) s.sessions s'.sessions
  characters : List.Forall₂ (CharacterRow.Recorded c now) s.characters s'.characters
  scenarios : s'.scenarios = s.scenarios

theorem recorded_write (s : Store) (c : TurnCommit) (now : Instant) :
    s.Recorded c now (s.write c now) where
  sessions := by
    rw [write, List.forall₂_map_right_iff, List.forall₂_same]
    exact fun row _ => row.recorded_touch c now
  characters := by
    rw [write, List.forall₂_map_right_iff, List.forall₂_same]
    exact fun row _ => row.recorded_touch c now
  scenarios := rfl

/-! ## One commit -/

/-- **A commit is refused** just when no row of its session is active, and then nothing has
changed. -/
theorem transact_refused_iff :
    s.transact (turnTransaction c now) = (.error (.commitRefused c.sessionId), s) ↔
      ∀ row ∈ s.sessions, row.id = c.sessionId → row.status ≠ .active := by
  rw [transact_turnTransaction]
  constructor
  · intro h row hrow hid hs
    rw [if_pos (isOpen_iff.2 ⟨row, hrow, hid, hs⟩)] at h
    cases h
  · intro h
    refine if_neg fun hopen => ?_
    obtain ⟨row, hrow, hid, hs⟩ := isOpen_iff.1 hopen
    exact h row hrow hid hs

/-- **Every other commit** goes through, and is recorded row by row. -/
theorem transact_recorded (h : ∃ row ∈ s.sessions, row.id = c.sessionId ∧ row.status = .active) :
    (s.transact (turnTransaction c now)).1 = .ok () ∧
      s.Recorded c now (s.transact (turnTransaction c now)).2 := by
  rw [transact_turnTransaction, if_pos (isOpen_iff.2 h)]
  exact ⟨rfl, recorded_write s c now⟩

theorem transact_cases (s : Store) (c : TurnCommit) (now : Instant) :
    (s.transact (turnTransaction c now)).2 = s.write c now ∨
      (s.transact (turnTransaction c now)).2 = s := by
  rw [transact_turnTransaction]
  cases s.isOpen c.sessionId with
  | true => exact .inl rfl
  | false => exact .inr rfl

/-- A commit is nothing to a row that is not active. -/
theorem getElem?_transact {i : Nat} {row : SessionRow} (h : s.sessions[i]? = some row)
    (hs : row.status ≠ .active) (c : TurnCommit) (now : Instant) :
    (s.transact (turnTransaction c now)).2.sessions[i]? = some row := by
  rcases s.transact_cases c now with hw | hw
  · have hopen : ¬ row.isOpen c.sessionId := fun ho => hs (SessionRow.isOpen_iff.1 ho).2
    rw [hw, write, List.getElem?_map, h, Option.map_some, SessionRow.touch_of_not_open hopen]
  · rw [hw, h]

theorem length_transact (s : Store) (c : TurnCommit) (now : Instant) :
    (s.transact (turnTransaction c now)).2.sessions.length = s.sessions.length := by
  rcases s.transact_cases c now with hw | hw
  · rw [hw, write, List.length_map]
  · rw [hw]

/-! ## Many commits -/

/-- The store after several commits, each with its time. -/
def commitAll (s : Store) (calls : List (TurnCommit × Instant)) : Store :=
  calls.foldl (fun s call => (s.transact (turnTransaction call.1 call.2)).2) s

theorem commitAll_append (s : Store) (a b : List (TurnCommit × Instant)) :
    s.commitAll (a ++ b) = (s.commitAll a).commitAll b := List.foldl_append

/-- **A row that is not active never changes.** -/
theorem getElem?_commitAll {i : Nat} {row : SessionRow} (h : s.sessions[i]? = some row)
    (hs : row.status ≠ .active) (calls : List (TurnCommit × Instant)) :
    (s.commitAll calls).sessions[i]? = some row := by
  induction calls generalizing s with
  | nil => exact h
  | cons call rest ih => exact ih (getElem?_transact h hs call.1 call.2)

theorem length_commitAll (s : Store) (calls : List (TurnCommit × Instant)) :
    (s.commitAll calls).sessions.length = s.sessions.length := by
  induction calls generalizing s with
  | nil => rfl
  | cons call rest ih => exact (ih _).trans (s.length_transact call.1 call.2)

/-- No row becomes active. -/
theorem active_of_commitAll {i : Nat} {row' : SessionRow} {calls : List (TurnCommit × Instant)}
    (h : (s.commitAll calls).sessions[i]? = some row') (hs : row'.status = .active) :
    ∃ row, s.sessions[i]? = some row ∧ row.status = .active := by
  obtain ⟨hi, -⟩ := List.getElem?_eq_some_iff.1 h
  rw [length_commitAll] at hi
  refine ⟨s.sessions[i], List.getElem?_eq_getElem hi, ?_⟩
  by_contra hno
  have hkept := getElem?_commitAll (List.getElem?_eq_getElem hi) hno calls
  obtain rfl := Option.some.inj (h.symm.trans hkept)
  exact hno hs

/-- **Commits in any sequence**, to any store. Whenever a turn is committed, and with whatever, the
commit is refused as invalid input and leaves the store as it was, just when no row of its session
is active. Otherwise it goes through, and rewrites the active rows of its session and the rows of
its character as `Recorded` says, and nothing else. So from any moment to the end of the sequence a
row that is not active, as a completed one, never changes, and no row becomes active. -/
theorem commits_in_sequence (s : Store) (earlier later : List (TurnCommit × Instant))
    (c : TurnCommit) (now : Instant) :
    let before := s.commitAll earlier
    let called := before.transact (turnTransaction c now)
    let final := s.commitAll (earlier ++ (c, now) :: later)
    (called = (.error (.commitRefused c.sessionId), before) ↔
      ∀ row ∈ before.sessions, row.id = c.sessionId → row.status ≠ .active) ∧
    (Fault.commitRefused c.sessionId).kind = .invalidInput ∧
    ((∃ row ∈ before.sessions, row.id = c.sessionId ∧ row.status = .active) →
      called.1 = .ok () ∧ before.Recorded c now called.2) ∧
    (∀ (i : Nat) (row : SessionRow), before.sessions[i]? = some row → row.status ≠ .active →
      final.sessions[i]? = some row) ∧
    ∀ (i : Nat) (row' : SessionRow), final.sessions[i]? = some row' → row'.status = .active →
      ∃ row, before.sessions[i]? = some row ∧ row.status = .active := by
  intro before called final
  have hfinal : final = before.commitAll ((c, now) :: later) := commitAll_append s earlier _
  refine ⟨transact_refused_iff, rfl, transact_recorded, fun i row hrow hs => ?_, fun i row' h hs => ?_⟩
  · rw [hfinal]
    exact getElem?_commitAll hrow hs _
  · rw [hfinal] at h
    exact active_of_commitAll h hs

/-- Two sessions of one id, of which one is over, and two rows of one character. A defeat ends the
open session; a commit that comes late is refused, as is one to a session that does not exist. -/
theorem commits_in_sequence_around_a_defeat :
    let hero : Character := ⟨"hero", "Mira", 1, 20, 20, 0, 0, ["torch"]⟩
    let fallen : Character := { hero with hp := -3, inventory := [] }
    let ended : SessionRow := ⟨"s1", "hero", "crypt", .completed, "gate", none, some .victory, none⟩
    let s : Store := ⟨[⟨hero, true, none⟩, ⟨hero, false, none⟩],
      [ended, { ended with status := .active, ending := none }], []⟩
    let rest : TurnCommit := ⟨"s1", hero, "camp", .empty, none⟩
    let defeat : TurnCommit := ⟨"s1", fallen, "vault", .empty, some .defeat⟩
    let astray : TurnCommit := ⟨"s2", hero, "vault", .empty, none⟩
    let before := s.commitAll [(rest, 1)]
    let called := before.transact (turnTransaction defeat 2)
    let final := s.commitAll ([(rest, 1)] ++ (defeat, 2) :: [(rest, 3), (astray, 4)])
    (called.1 = .ok () ∧ before.Recorded defeat 2 called.2) ∧ final = called.2 ∧
      final.sessions[0]? = some ended ∧
      final.transact (turnTransaction rest 3) = (.error (.commitRefused "s1"), final) := by
  intro hero fallen ended s rest defeat astray before called final
  obtain ⟨-, -, hrecorded, hkeeps, -⟩ :=
    commits_in_sequence s [(rest, 1)] [(rest, 3), (astray, 4)] defeat 2
  obtain ⟨hrefused, -⟩ :=
    commits_in_sequence s ([(rest, 1)] ++ (defeat, 2) :: [(rest, 3), (astray, 4)]) [] rest 3
  exact ⟨hrecorded (by decide +kernel), by decide +kernel,
    hkeeps 0 ended (by decide +kernel) (by decide), hrefused.2 (by decide +kernel)⟩

end Store

end Adventure
