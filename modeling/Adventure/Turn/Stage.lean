import Adventure.Check.Perform
import Adventure.Narrative.Telling
import Adventure.Rules
import Adventure.Store
import Adventure.Story.Reconcile
import Adventure.Turn.Input
/-!
# A turn, step by step

A turn reads its session, its character and its scenario, makes the check, has the action narrated,
settles what follows, and commits.  Each reading, the narration and the commit is a step of its own,
between which other turns may change the store.

Main definitions: `Stage`, `Turn.advance`, which makes one step, and `Turn.settle`, which turns a
narration into a commit and a result.

| definition | part of `ActionTurnService.processAction` |
| --- | --- |
| `locate`, `findCharacter` | the gates before the check |
| `check`, `difficulty`, `category` | `performCheck` and its arguments |
| `requestOf` | the request for `NarrativeGenerator.generate` |
| `settle`, `commitOf`, `resultOf` | from `reconcile` to the commit |
| `epilogue` | `DEATH_EPILOGUE` |
| `advance` | everything between two awaited calls |
-/

namespace Adventure

/-- What the player is told after a turn. -/
structure TurnResult where
  /-- As the narrator gave it, with the epilogue if the turn ended in death. -/
  narrative : Value
  options : Value
  /-- The check, where the narration used it. -/
  resolution : Option Resolution
  verdict : Verdict
  changes : Changes
  character : Character
  isTerminated : Bool
deriving DecidableEq

/-- The check as the player is shown it; `null` where the narration did without. -/
def TurnResult.shownCheck (r : TurnResult) : Value :=
  (r.resolution.map Resolution.payload).getD .null

structure Table (σ : Type) where
  defaultDifficulty : Tier
  dice : σ
  narrator : Narrator
  now : Instant

structure Scene where
  input : TurnInput
  session : Session
  character : Character
  scenario : Option Scenario
deriving DecidableEq

inductive Stage where
  /-- Nothing has been read. -/
  | opened (input : Value)
  | located (input : TurnInput) (session : Session)
  | cast (input : TurnInput) (session : Session) (character : Character)
  | framed (scene : Scene)
  /-- The action has been narrated, and nothing has been written. -/
  | settled (commit : TurnCommit) (result : TurnResult)
  | closed (outcome : Outcome TurnResult)

structure Turn where
  stage : Stage
  /-- What the narrator was asked, if it was. -/
  request : Option NarrativeRequest
  events : List Event

namespace Turn

def start (input : Value) : Turn := ⟨.opened input, none, []⟩

/-- A turn that has failed before anything was noted down. -/
def refuse (f : Fault) : Turn := ⟨.closed (.failed (.fault f)), none, []⟩

def reached (stage : Stage) : Turn := ⟨stage, none, []⟩

/-! ## Reading -/

/-- The session of an input, if it may act. -/
def locate (s : Store) (input : Value) : Except Fault (TurnInput × Session) :=
  match TurnInput.ofValue? input with
  | .error issues => .error (.malformedAction issues)
  | .ok input =>
    match s.session? input.sessionId with
    | none => .error .sessionNotFound
    | some session =>
      if session.status = .active then .ok (input, session)
      else .error (.sessionClosed session.status.toValue)

def findCharacter (s : Store) (session : Session) : Except Fault Character :=
  match s.character? session.characterId with
  | none => .error (.characterNotFound session.characterId)
  | some character => .ok character

/-! ## The check -/

/-- The difficulty of a scene: the scenario's own, or the default one. -/
def difficulty (defaultDifficulty : Tier) (scene : Scene) : Value :=
  ((scene.scenario.map Scenario.difficulty).getD .missing).orElse (.string defaultDifficulty.name)

/-- The category of a scene's action: the player's own, or the one that the words suggest. -/
def category (scene : Scene) : Category :=
  scene.input.category.getD (.classify scene.input.action)

def check {σ : Type} [DiceSource σ] (defaultDifficulty : Tier) (scene : Scene) :
    Draw σ Resolution :=
  performCheck (.number scene.character.level) (difficulty defaultDifficulty scene)
    (.string (category scene).name)

def checkEvent (defaultDifficulty : Tier) (scene : Scene) (resolution : Resolution) : Event :=
  .checked (.number scene.character.level) (difficulty defaultDifficulty scene)
    (.string (category scene).name) resolution

def requestOf (scene : Scene) (resolution : Resolution) : NarrativeRequest :=
  ⟨scene.scenario, scene.session, scene.character, scene.input.action, resolution⟩

/-! ## Settling -/

def epilogue : String :=
  "\n\n당신의 몸이 더 이상 버티지 못합니다. 시야가 흐려지고, 모험은 여기서 끝납니다. (사망)"

def deathEvents (scene : Scene) (after : Character) : List Event :=
  if after.isDepleted then [.died scene.character.id after.hp scene.session.id] else []

def commitOf (scene : Scene) (reconciled : Reconciled Resolution) (after : Character) : TurnCommit :=
  { sessionId := scene.session.id
    character := after
    currentLocation := reconciled.changes.location.getD scene.session.currentLocation
    chronicle := scene.session.chronicle.apply reconciled.changes
    ending := if after.isDepleted then some .defeat else none }

/-- What the player is told after a turn.  A death adds its epilogue and leaves no options. -/
def resultOf (narration : Narration) (reconciled : Reconciled Resolution) (after : Character) : TurnResult :=
  { narrative :=
      if after.isDepleted then .string (narration.narrative.text ++ epilogue)
      else narration.narrative
    options := if after.isDepleted then .array [] else narration.options
    resolution := reconciled.shown
    verdict := reconciled.verdict
    changes := reconciled.changes
    character := after
    isTerminated := after.isDepleted }

def settle (scene : Scene) (resolution : Resolution) (narration : Narration) :
    Outcome (TurnCommit × TurnResult) × List Event :=
  match reconcile resolution narration.mechanicsApplied narration.changes with
  | .error f => (.failed (.fault f), [])
  | .ok (reconciled, remarks) =>
    match scene.character.apply reconciled.changes reconciled.selfDamage with
    | .failed f => (.failed f, remarks)
    | .endless => (.endless, remarks)
    | .done (after, climbs) =>
      (.done (commitOf scene reconciled after, resultOf narration reconciled after),
        remarks ++ climbs ++ deathEvents scene after)

def stageOf : Outcome (TurnCommit × TurnResult) → Stage
  | .done (commit, result) => .settled commit result
  | .failed f => .closed (.failed f)
  | .endless => .closed .endless

/-- Makes the check, has the action narrated, and settles what follows.  What is left of the dice is
given back. -/
def play {σ : Type} [DiceSource σ] (table : Table σ) (scene : Scene) (s : Store) :
    (Turn × Store) × σ :=
  match (check table.defaultDifficulty scene).run table.dice with
  | (.error f, dice) => ((refuse f, s), dice)
  | (.ok resolution, dice) =>
    let request := requestOf scene resolution
    let telling := table.narrator request
    let s := telling.completed.foldl Store.complete s
    let noted := checkEvent table.defaultDifficulty scene resolution :: telling.events
    match telling.answer with
    | .error f => ((⟨.closed (.failed f), some request, noted⟩, s), dice)
    | .ok narration =>
      let (outcome, events) := settle scene resolution narration
      ((⟨stageOf outcome, some request, noted ++ events⟩, s), dice)

/-! ## Steps -/

/-- Makes the next step of a turn; a turn that is closed stays as it is. -/
def advance {σ : Type} [DiceSource σ] (table : Table σ) (t : Turn) (s : Store) : Turn × Store :=
  match t.stage with
  | .opened input =>
    match locate s input with
    | .error f => (refuse f, s)
    | .ok (input, session) => (.reached (.located input session), s)
  | .located input session =>
    match findCharacter s session with
    | .error f => (refuse f, s)
    | .ok character => (.reached (.cast input session character), s)
  | .cast input session character =>
    (.reached (.framed ⟨input, session, character, s.scenario? session.scenarioId⟩), s)
  | .framed scene => (play table scene s).1
  | .settled commit result =>
    match s.commit commit table.now with
    | .error f => ({ t with stage := .closed (.failed (.fault f)) }, s)
    | .ok s => ({ t with stage := .closed (.done result) }, s)
  | .closed _ => (t, s)

end Turn

end Adventure
