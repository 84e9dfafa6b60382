import Adventure.Turn.Stage
/-!
# Running turns

A turn that runs alone makes all its steps one after the other.  Several turns share a store and
make their steps in the order of a schedule; turns that run at once go step by step, so that all of
them have read before the first one writes, and then they commit in order.

Main definitions: `Turn.run`, `Board.follow` for any schedule, and `Turn.runAtOnce`.

`run` is `ActionTurnService.processAction` on a store that nobody else uses.
-/

namespace Adventure.Turn

variable {σ : Type} [DiceSource σ]

def stepCount : Nat := 5

/-! ## One turn -/

def advanceBy (table : Table σ) : Nat → Turn → Store → Turn × Store
  | 0, t, s => (t, s)
  | n + 1, t, s =>
    let (t, s) := advance table t s
    advanceBy table n t s

/-- Runs a whole turn alone. -/
def run (table : Table σ) (input : Value) (s : Store) : Turn × Store :=
  advanceBy table stepCount (start input) s

/-- How a turn came out; a turn that has not come to its end has no outcome. -/
def outcome? (t : Turn) : Option (Outcome TurnResult) :=
  match t.stage with
  | .closed outcome => some outcome
  | _ => none

/-! ## Several turns -/

/-- Turns on their way, each with what it brings along, and the store they share. -/
structure Board (σ : Type) where
  turns : List (Table σ × Turn)
  store : Store

def Board.start (turns : List (Table σ × Value)) (s : Store) : Board σ :=
  ⟨turns.map fun t => (t.1, Turn.start t.2), s⟩

/-- One step of the turn in a place; without a turn there, nothing happens. -/
def Board.advance (b : Board σ) (place : Nat) : Board σ :=
  match b.turns[place]? with
  | none => b
  | some (table, t) =>
    let (t, s) := t.advance table b.store
    ⟨b.turns.set place (table, t), s⟩

/-- The steps of a schedule, which names the places in order. -/
def Board.follow (b : Board σ) (schedule : List Nat) : Board σ := schedule.foldl Board.advance b

/-- Every place in order, as often as a turn has steps. -/
def inStep (count : Nat) : List Nat := (List.replicate stepCount (List.range count)).flatten

def runAtOnce (turns : List (Table σ × Value)) (s : Store) : List Turn × Store :=
  let b := (Board.start turns s).follow (inStep turns.length)
  (b.turns.map Prod.snd, b.store)

end Adventure.Turn
