import Adventure.Story.Character
import Adventure.Story.Session
/-!
# The store

The rows of characters, sessions and scenarios.  A turn reads snapshots and commits once: the
session, if it is still active, and its character, both or neither.

Main definitions: `Store`, the look-ups, `Store.transact`, and `Store.commit`.

| definition | function |
| --- | --- |
| `character?` | `findById` of `DrizzleCharacterRepository` |
| `session?`, `scenario?` | `findById`, `findScenario` of `DrizzleGameSessionRepository` |
| `commit`, `turnTransaction` | `commitTurn` |
| `complete` | what others may do to a session meanwhile |

The database is taken at its word: a transaction is rolled back when its body throws, an update that
is well formed does not fail, and texts and numbers of any size fit into the columns.
-/

namespace Adventure

abbrev Instant := Nat

structure CharacterRow where
  character : Character
  isActive : Bool
  updatedAt : Option Instant
deriving DecidableEq

structure SessionRow where
  id : String
  characterId : String
  scenarioId : String
  status : SessionStatus
  currentLocation : String
  chronicle : Option Chronicle
  ending : Option Ending
  lastActivityAt : Option Instant
deriving DecidableEq

structure Store where
  characters : List CharacterRow
  sessions : List SessionRow
  scenarios : List Scenario
deriving DecidableEq

structure TurnCommit where
  sessionId : String
  character : Character
  currentLocation : String
  chronicle : Chronicle
  ending : Option Ending
deriving DecidableEq

/-- A session as a turn sees it; a session without a chronicle has an empty one. -/
def SessionRow.snapshot (row : SessionRow) : Session :=
  ⟨row.id, row.characterId, row.scenarioId, row.status, row.currentLocation,
    row.chronicle.getD .empty⟩

/-- Whether a commit may change the row. -/
def SessionRow.isOpen (row : SessionRow) (id : String) : Bool :=
  row.id = id && row.status = .active

def SessionRow.update (row : SessionRow) (commit : TurnCommit) (now : Instant) : SessionRow :=
  { row with
    currentLocation := commit.currentLocation
    chronicle := some commit.chronicle
    lastActivityAt := some now
    status := if commit.ending.isSome then .completed else row.status
    ending := commit.ending.or row.ending }

/-- The row after a commit; who the character is does not change. -/
def CharacterRow.update (row : CharacterRow) (commit : TurnCommit) (now : Instant) :
    CharacterRow :=
  { row with
    character := { commit.character with id := row.character.id, name := row.character.name }
    updatedAt := some now }

namespace Store

/-! ## Look-ups -/

/-- The character with an id, if it is active. -/
def character? (s : Store) (id : String) : Option Character :=
  match s.characters.find? fun row => row.character.id = id with
  | some row => if row.isActive then some row.character else none
  | none => none

def session? (s : Store) (id : String) : Option Session :=
  (s.sessions.find? fun row => row.id = id).map SessionRow.snapshot

def scenario? (s : Store) (id : String) : Option Scenario :=
  s.scenarios.find? fun row => row.id = id

/-! ## Transactions -/

/-- What is done inside of a transaction.  Each part of it sees what was written before it, and a
fault breaks it off, with what was written so far. -/
abbrev Transaction (α : Type) := ExceptT Fault (StateM Store) α

/-- Rewrites the session rows that are selected, and names them. -/
def rewriteSessions (selects : SessionRow → Bool) (rewrite : SessionRow → SessionRow) :
    Transaction (List String) := do
  let s ← get
  set { s with sessions := s.sessions.map fun row => if selects row then rewrite row else row }
  return (s.sessions.filter selects).map SessionRow.id

/-- Rewrites the character rows that are selected.  Neither update can fail of itself: columns that
refuse a value are not modelled. -/
def rewriteCharacters (selects : CharacterRow → Bool) (rewrite : CharacterRow → CharacterRow) :
    Transaction Unit :=
  modify fun s =>
    { s with
      characters := s.characters.map fun row => if selects row then rewrite row else row }

/-- Runs a transaction.  If it was broken off, the store is as it was before: this is what the
database promises.  A turn breaks off only where it has found no row to rewrite, so it has nothing to
roll back then (`turnTransaction`). -/
def transact {α : Type} (s : Store) (t : Transaction α) : Except Fault α × Store :=
  match t.run.run s with
  | (.ok a, s') => (.ok a, s')
  | (.error f, _) => (.error f, s)

/-! ## Changes -/

/-- What a turn does to the store: it rewrites the open rows of its session, which is how it learns
whether there are any, and then the rows of its character. -/
def turnTransaction (c : TurnCommit) (now : Instant) : Transaction Unit := do
  let rewritten ← rewriteSessions (fun row => row.isOpen c.sessionId) fun row => row.update c now
  if rewritten.isEmpty then throw (.commitRefused c.sessionId)
  rewriteCharacters (fun row => row.character.id = c.character.id) fun row => row.update c now

/-- Commits a turn, both its session and its character.  Without an open row nothing changes. -/
def commit (s : Store) (c : TurnCommit) (now : Instant) : Except Fault Store :=
  match s.transact (turnTransaction c now) with
  | (.ok (), s') => .ok s'
  | (.error f, _) => .error f

def completeFirst (id : String) : List SessionRow → List SessionRow
  | [] => []
  | row :: rest =>
    if row.id = id then { row with status := .completed } :: rest else row :: completeFirst id rest

/-- Completes a session from outside of a turn.  Where several rows share the id, it is the first
one, which is also the one that turns see. -/
def complete (s : Store) (id : String) : Store :=
  { s with sessions := completeFirst id s.sessions }

end Store

end Adventure
