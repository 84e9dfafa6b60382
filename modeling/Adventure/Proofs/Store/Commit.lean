import Adventure.Store
import Mathlib.Data.List.Nodup
/-!
# What a commit writes

A commit is a transaction that rewrites sessions first and characters behind them
(`run_turnTransaction`). It either is refused and writes nothing, or rewrites the open rows of its
session and the rows of its character (`commit_eq_ok`, `write`). Reading the store afterwards gives
what was read before, rewritten in the same way (`session?_write`, `character?_write`). Two facts
matter to turns that overlap: of two commits to one session the later one leaves nothing of the
earlier (`write_write`), and a commit with an ending shuts the session for every later one
(`isOpen_write_of_ending`).
-/

namespace Adventure

/-! ## Rows and snapshots -/

/-- A commit rewrites a session row only if it is open. -/
def SessionRow.touch (row : SessionRow) (c : TurnCommit) (now : Instant) : SessionRow :=
  if row.isOpen c.sessionId then row.update c now else row

def CharacterRow.touch (row : CharacterRow) (c : TurnCommit) (now : Instant) : CharacterRow :=
  if row.character.id = c.character.id then row.update c now else row

/-- A session as it is read after a commit. -/
def Session.after (session : Session) (c : TurnCommit) : Session :=
  if session.id = c.sessionId ∧ session.status = .active then
    { session with
      status := if c.ending.isSome then .completed else session.status
      currentLocation := c.currentLocation
      chronicle := c.chronicle }
  else session

/-- A character as it is read after a commit. -/
def Character.after (character : Character) (c : TurnCommit) : Character :=
  if character.id = c.character.id then
    { c.character with id := character.id, name := character.name }
  else character

theorem SessionRow.isOpen_iff {row : SessionRow} {id : String} :
    row.isOpen id = true ↔ row.id = id ∧ row.status = .active := by
  simp [isOpen]

theorem SessionRow.touch_of_not_open {row : SessionRow} {c : TurnCommit} {now : Instant}
    (h : ¬ row.isOpen c.sessionId) : row.touch c now = row := if_neg h

@[simp] theorem SessionRow.touch_id (row : SessionRow) (c : TurnCommit) (now : Instant) :
    (row.touch c now).id = row.id := by
  unfold touch
  split <;> rfl

@[simp] theorem SessionRow.touch_characterId (row : SessionRow) (c : TurnCommit) (now : Instant) :
    (row.touch c now).characterId = row.characterId := by
  unfold touch
  split <;> rfl

@[simp] theorem CharacterRow.touch_id (row : CharacterRow) (c : TurnCommit) (now : Instant) :
    (row.touch c now).character.id = row.character.id := by
  unfold touch
  split <;> rfl

@[simp] theorem CharacterRow.touch_isActive (row : CharacterRow) (c : TurnCommit) (now : Instant) :
    (row.touch c now).isActive = row.isActive := by
  unfold touch
  split <;> rfl

theorem SessionRow.touch_snapshot (row : SessionRow) (c : TurnCommit) (now : Instant) :
    (row.touch c now).snapshot = row.snapshot.after c := by
  unfold touch Session.after
  by_cases h : row.isOpen c.sessionId
  · have ho : row.snapshot.id = c.sessionId ∧ row.snapshot.status = .active := isOpen_iff.1 h
    rw [if_pos h, if_pos ho]
    rfl
  · have ho : ¬ (row.snapshot.id = c.sessionId ∧ row.snapshot.status = .active) :=
      fun hc => h (isOpen_iff.2 hc)
    rw [if_neg h, if_neg ho]

theorem CharacterRow.touch_character (row : CharacterRow) (c : TurnCommit) (now : Instant) :
    (row.touch c now).character = row.character.after c := by
  unfold touch Character.after
  split <;> rfl

/-- A commit does not change whose session it is, and in which scenario. -/
theorem Session.after_of (session : Session) (c : TurnCommit) :
    (session.after c).id = session.id ∧ (session.after c).characterId = session.characterId ∧
      (session.after c).scenarioId = session.scenarioId := by
  unfold after
  split
  · exact ⟨rfl, rfl, rfl⟩
  · exact ⟨rfl, rfl, rfl⟩

/-- A commit without an ending does not end a session. -/
theorem Session.after_status {session : Session} {c : TurnCommit} (h : c.ending = none) :
    (session.after c).status = session.status := by
  unfold after
  split
  · simp [h]
  · rfl

/-! ## Two commits to one row -/

/-- A session that went on after a commit loses all of it to the next commit. -/
theorem SessionRow.touch_touch {row : SessionRow} {a b : TurnCommit} (now later : Instant)
    (hs : a.sessionId = b.sessionId) (he : a.ending = none) :
    (row.touch a now).touch b later = row.touch b later := by
  by_cases h : row.isOpen b.sessionId
  · have hu : (row.update a now).isOpen b.sessionId = true := by
      simpa [SessionRow.isOpen, SessionRow.update, he] using h
    rw [touch, touch, touch, hs, if_pos h, if_pos hu, if_pos h]
    simp [SessionRow.update, he]
  · have ha : row.touch a now = row := touch_of_not_open (by rwa [hs])
    rw [ha]

theorem CharacterRow.touch_touch {row : CharacterRow} {a b : TurnCommit} (now later : Instant)
    (hc : a.character.id = b.character.id) :
    (row.touch a now).touch b later = row.touch b later := by
  unfold touch
  by_cases h : row.character.id = b.character.id
  · simp [h, hc, CharacterRow.update]
  · simp [h, hc]

/-! ## Writing -/

namespace Store

/-- Whether a session has a row that commits may change. -/
def isOpen (s : Store) (id : String) : Bool := s.sessions.any fun row => row.isOpen id

/-- The store halfway through the transaction of a turn: its sessions are rewritten, and no
character is. -/
def halfway (s : Store) (c : TurnCommit) (now : Instant) : Store :=
  { s with sessions := s.sessions.map fun row => row.touch c now }

/-- The store after a commit that went through. -/
def write (s : Store) (c : TurnCommit) (now : Instant) : Store :=
  { s with
    sessions := s.sessions.map fun row => row.touch c now
    characters := s.characters.map fun row => row.touch c now }

theorem isOpen_iff {s : Store} {id : String} :
    s.isOpen id = true ↔ ∃ row ∈ s.sessions, row.id = id ∧ row.status = .active := by
  simp [isOpen, SessionRow.isOpen_iff]

/-- **The transaction of a turn** rewrites the sessions before it knows whether there is anything to
rewrite, and the characters behind it. -/
theorem run_turnTransaction (s : Store) (c : TurnCommit) (now : Instant) :
    (turnTransaction c now).run.run s =
      if s.isOpen c.sessionId then (.ok (), s.write c now)
      else (.error (.commitRefused c.sessionId), s.halfway c now) := by
  have hnamed : ((s.sessions.filter fun row => row.isOpen c.sessionId).map SessionRow.id).isEmpty =
      !s.isOpen c.sessionId := by
    rw [Bool.eq_iff_iff]
    simp [isOpen]
  -- What follows on the first half, which has named the rows that it rewrote.
  let rest : Transaction Unit :=
    rewriteCharacters (fun row => row.character.id = c.character.id) fun row => row.update c now
  show (if ((s.sessions.filter fun row => row.isOpen c.sessionId).map SessionRow.id).isEmpty
      then throw (.commitRefused c.sessionId) else rest : Transaction Unit).run.run
        (s.halfway c now) = _
  rw [hnamed]
  cases s.isOpen c.sessionId with
  | true =>
    simp only [rest, rewriteCharacters, decide_eq_true_eq]
    rfl
  | false => rfl

/-- Nothing is left of a transaction that was broken off halfway. -/
theorem transact_turnTransaction (s : Store) (c : TurnCommit) (now : Instant) :
    s.transact (turnTransaction c now) =
      if s.isOpen c.sessionId then (.ok (), s.write c now)
      else (.error (.commitRefused c.sessionId), s) := by
  unfold transact
  rw [run_turnTransaction]
  cases s.isOpen c.sessionId with
  | true => rfl
  | false => rfl

theorem commit_eq (s : Store) (c : TurnCommit) (now : Instant) :
    s.commit c now =
      if s.isOpen c.sessionId then .ok (s.write c now) else .error (.commitRefused c.sessionId) := by
  unfold commit
  rw [transact_turnTransaction]
  cases s.isOpen c.sessionId with
  | true => rfl
  | false => rfl

/-- **A commit goes through just when its session is open**, and then the store is `write`. -/
theorem commit_eq_ok {s s' : Store} {c : TurnCommit} {now : Instant} :
    s.commit c now = .ok s' ↔ s.isOpen c.sessionId = true ∧ s' = s.write c now := by
  rw [commit_eq]
  by_cases h : s.isOpen c.sessionId
  · simp [h, eq_comm]
  · simp [h]

theorem commit_eq_error {s : Store} {c : TurnCommit} {now : Instant} {f : Fault} :
    s.commit c now = .error f ↔ s.isOpen c.sessionId = false ∧ f = .commitRefused c.sessionId := by
  rw [commit_eq]
  by_cases h : s.isOpen c.sessionId
  · simp [h]
  · simp [h, eq_comm]

/-! ## Reading after writing -/

theorem session?_id {s : Store} {id : String} {session : Session}
    (h : s.session? id = some session) : session.id = id := by
  obtain ⟨row, hr, rfl⟩ := Option.map_eq_some_iff.1 h
  simpa [SessionRow.snapshot] using List.find?_some hr

theorem character?_id {s : Store} {id : String} {character : Character}
    (h : s.character? id = some character) : character.id = id := by
  unfold character? at h
  split at h
  · rename_i row hr
    split at h
    · cases h
      simpa using List.find?_some hr
    · cases h
  · cases h

theorem session?_write (s : Store) (c : TurnCommit) (now : Instant) (id : String) :
    (s.write c now).session? id = (s.session? id).map fun session => session.after c := by
  simp only [session?, write, List.find?_map, Function.comp_def, SessionRow.touch_id,
    Option.map_map, SessionRow.touch_snapshot]

theorem character?_write (s : Store) (c : TurnCommit) (now : Instant) (id : String) :
    (s.write c now).character? id = (s.character? id).map fun character => character.after c := by
  simp only [character?, write, List.find?_map, Function.comp_def, CharacterRow.touch_id]
  cases s.characters.find? fun row => row.character.id = id with
  | none => rfl
  | some row =>
    simp only [Option.map_some, CharacterRow.touch_isActive, CharacterRow.touch_character]
    split <;> rfl

@[simp] theorem scenario?_write (s : Store) (c : TurnCommit) (now : Instant) (id : String) :
    (s.write c now).scenario? id = s.scenario? id := rfl

/-! ## Writing after writing -/

/-- A commit with an ending shuts its session. -/
theorem isOpen_write_of_ending (s : Store) (c : TurnCommit) (now : Instant)
    (h : c.ending.isSome = true) : (s.write c now).isOpen c.sessionId = false := by
  simp only [isOpen, write, List.any_map, List.any_eq_false, Function.comp_apply]
  intro row _ ho
  unfold SessionRow.touch at ho
  split at ho
  · have hs := (SessionRow.isOpen_iff.1 ho).2
    simp [SessionRow.update, h] at hs
  · contradiction

/-- **The later of two commits to one session leaves no trace of the earlier.** -/
theorem write_write {s : Store} {a b : TurnCommit} (now later : Instant)
    (hs : a.sessionId = b.sessionId) (hc : a.character.id = b.character.id) (he : a.ending = none) :
    (s.write a now).write b later = s.write b later := by
  simp only [write, List.map_map, Store.mk.injEq, and_true]
  constructor
  · exact List.map_congr_left fun row _ => CharacterRow.touch_touch now later hc
  · exact List.map_congr_left fun row _ => SessionRow.touch_touch now later hs he

end Store

end Adventure
