import Adventure.Dice.Either
import Adventure.Proofs.Turn.Step
/-!
# The course of a turn

A turn finds a store at each of its steps, and among other turns it may find another one every time.
`Came` says where the parts of a turn come from if the store found at step `k` had the property
`found k`. Every step keeps it (`came_advance`), whatever happens to the store between two steps, so
it carries over to any interleaving.

While nobody else touches the store, a turn finds the same store until it commits, up to what its
own narrator does on the side. `Course` is what holds along the way, and `run_done` and
`run_not_done` are the two ways in which a turn that runs alone can end.
-/

namespace Adventure

/-- How many steps lead to a stage, at most. -/
def Stage.rank : Stage → Nat
  | .opened _ => 0
  | .located _ _ => 1
  | .cast _ _ _ => 2
  | .framed _ => 3
  | .settled _ _ => 4
  | .closed _ => 5

theorem Stage.rank_le (stage : Stage) : stage.rank ≤ 5 := by
  cases stage <;> simp [rank]

/-- A scene for the input `v` whose parts were read from stores with the property `found`. -/
structure Scene.From (found : Nat → Store → Prop) (v : Value) (scene : Scene) : Prop where
  session : ∃ s, found 0 s ∧ Turn.locate s v = .ok (scene.input, scene.session)
  character : ∃ s, found 1 s ∧ Turn.findCharacter s scene.session = .ok scene.character
  scenario : ∃ s, found 2 s ∧ scene.scenario = s.scenario? scene.session.scenarioId

/-- Where it is known which store was found at each step, a scene is what is read from these. -/
theorem Scene.from_iff {f : Nat → Store} {v : Value} {scene : Scene} :
    scene.From (fun k s => s = f k) v ↔ Turn.locate (f 0) v = .ok (scene.input, scene.session) ∧
      Turn.findCharacter (f 1) scene.session = .ok scene.character ∧
      scene.scenario = (f 2).scenario? scene.session.scenarioId := by
  constructor
  · rintro ⟨⟨_, rfl, hs⟩, ⟨_, rfl, hc⟩, ⟨_, rfl, hf⟩⟩
    exact ⟨hs, hc, hf⟩
  · rintro ⟨hs, hc, hf⟩
    exact ⟨⟨_, rfl, hs⟩, ⟨_, rfl, hc⟩, ⟨_, rfl, hf⟩⟩

namespace Turn

variable {σ : Type} [DiceSource σ]

/-! ## Among other turns -/

/-- The turn has settled on a commit and a result for a scene that it has read. -/
def SettledFrom (found : Nat → Store → Prop) (table : Table σ) (v : Value) (t : Turn)
    (c : TurnCommit) (r : TurnResult) : Prop :=
  ∃ scene request, scene.From found v ∧ Settles table scene request c r ∧ t.request = some request

/-- Where the parts of a turn with the input `v` come from. -/
def Came (found : Nat → Store → Prop) (table : Table σ) (v : Value) (t : Turn) : Prop :=
  match t.stage with
  | .opened input => input = v
  | .located input session => ∃ s, found 0 s ∧ locate s v = .ok (input, session)
  | .cast input session character =>
    (∃ s, found 0 s ∧ locate s v = .ok (input, session)) ∧
      ∃ s, found 1 s ∧ findCharacter s session = .ok character
  | .framed scene => scene.From found v
  | .settled c r => SettledFrom found table v t c r
  | .closed (.done r) => ∃ c s s', SettledFrom found table v t c r ∧ found 4 s ∧
      s.commit c table.now = .ok s'
  | .closed _ => True

theorem came_start (found : Nat → Store → Prop) (table : Table σ) (v : Value) :
    Came found table v (start v) := rfl

/-- **A step adds to a turn only what it finds in the store.** -/
theorem came_advance {found : Nat → Store → Prop} {table : Table σ} {v : Value} {t : Turn}
    {s : Store} (h : Came found table v t) (hs : t.stage.rank ≤ 4 → found t.stage.rank s) :
    Came found table v (t.advance table s).1 := by
  have hm := advance_move table t s
  generalize (t.advance table s).1 = t', (t.advance table s).2 = s' at hm
  cases hm with
  | located hl =>
    cases h
    exact ⟨s, hs (by simp [Stage.rank]), hl⟩
  | unlocated _ => trivial
  | cast hf => exact ⟨h, s, hs (by simp [Stage.rank]), hf⟩
  | uncast _ => trivial
  | framed =>
    obtain ⟨hl, hf⟩ := h
    exact ⟨hl, hf, s, hs (by simp [Stage.rank]), rfl⟩
  | settled hw => exact ⟨_, _, h, hw, rfl⟩
  | @unsettled _ _ _ o _ _ ho =>
    cases o with
    | done r => exact absurd rfl (ho r)
    | failed f => trivial
    | endless => trivial
  | committed hc => exact ⟨_, s, _, h, hs (by simp [Stage.rank]), hc⟩
  | refused _ => trivial
  | rested => exact h

/-! ## How far a turn is -/

theorem outcome?_eq_some {t : Turn} {o : Outcome TurnResult} :
    outcome? t = some o ↔ t.stage = .closed o := by
  unfold outcome?
  split <;> simp_all

/-- What the player is told, if the turn has resolved. -/
def result? (t : Turn) : Option TurnResult :=
  match t.stage with
  | .closed (.done r) => some r
  | _ => none

theorem result?_eq_some {t : Turn} {r : TurnResult} :
    result? t = some r ↔ outcome? t = some (.done r) := by
  rw [outcome?_eq_some]
  unfold result?
  split <;> simp_all

/-- A step leads to the next stage, or it closes the turn. -/
theorem rank_advance (table : Table σ) (t : Turn) (s : Store) :
    (t.advance table s).1.stage.rank = t.stage.rank + 1 ∨
      ∃ o, (t.advance table s).1.stage = .closed o := by
  have hm := advance_move table t s
  generalize (t.advance table s).1 = t', (t.advance table s).2 = s' at hm
  cases hm with
  | located _ | cast _ | framed | settled _ => exact .inl rfl
  | unlocated _ | uncast _ | unsettled _ | committed _ | refused _ | rested => exact .inr ⟨_, rfl⟩

theorem closed_of_rank {t : Turn} (h : 5 ≤ t.stage.rank) : ∃ o, t.stage = .closed o := by
  cases hs : t.stage with
  | closed o => exact ⟨o, rfl⟩
  | opened _ | located _ _ | cast _ _ _ | framed _ | settled _ _ => simp [hs, Stage.rank] at h

theorem rank_of_closed {t : Turn} {o : Outcome TurnResult} (h : t.stage = .closed o) :
    t.stage.rank = 5 := by rw [h, Stage.rank]

theorem le_rank_advance (table : Table σ) (t : Turn) (s : Store) :
    t.stage.rank ≤ (t.advance table s).1.stage.rank := by
  rcases rank_advance table t s with h | ⟨o, h⟩
  · omega
  · rw [rank_of_closed h]
    exact t.stage.rank_le

theorem le_rank_advanceBy (table : Table σ) (n : Nat) (t : Turn) (s : Store) :
    min 5 (t.stage.rank + n) ≤ (advanceBy table n t s).1.stage.rank := by
  induction n generalizing t s with
  | zero => exact Nat.min_le_right _ _
  | succ n ih =>
    have hn := ih (t.advance table s).1 (t.advance table s).2
    have hr : min 5 (t.stage.rank + 1) ≤ (t.advance table s).1.stage.rank := by
      rcases rank_advance table t s with h | ⟨o, h⟩
      · omega
      · rw [rank_of_closed h]
        omega
    unfold advanceBy
    dsimp only
    omega

/-- **A turn that runs alone comes to its end.** -/
theorem run_closed (table : Table σ) (v : Value) (s : Store) :
    ∃ o, outcome? (run table v s).1 = some o := by
  obtain ⟨o, h⟩ := closed_of_rank (t := (run table v s).1)
    (le_rank_advanceBy table stepCount (start v) s)
  exact ⟨o, outcome?_eq_some.2 h⟩

/-! ## Alone -/

/-- What holds along a turn while nobody else touches the store: until the turn commits, the store
is `s`, up to what the narrator did on the side. -/
def Course (found : Nat → Store → Prop) (table : Table σ) (v : Value) (s : Store) (t : Turn)
    (s' : Store) : Prop :=
  match t.stage with
  | .settled c r => SettledFrom found table v t c r ∧ s' = aside table t.request s
  | .closed (.done r) => ∃ c, SettledFrom found table v t c r ∧
      (aside table t.request s).commit c table.now = .ok s'
  | .closed _ => s' = aside table t.request s
  | _ => Came found table v t ∧ s' = s

section
variable {found : Nat → Store → Prop} {table : Table σ} {v : Value} {s : Store}

theorem course_advance {t : Turn} {s' : Store} (h : Course found table v s t s')
    (hs : t.stage.rank ≤ 4 → found t.stage.rank s) :
    Course found table v s (t.advance table s').1 (t.advance table s').2 := by
  have hm := advance_move table t s'
  generalize (t.advance table s').1 = t', (t.advance table s').2 = s'' at hm
  cases hm with
  | located hl =>
    obtain ⟨hv, rfl⟩ := h
    cases hv
    exact ⟨⟨s', hs (by simp [Stage.rank]), hl⟩, rfl⟩
  | unlocated _ => exact h.2
  | cast hf =>
    obtain ⟨hl, rfl⟩ := h
    exact ⟨⟨hl, s', hs (by simp [Stage.rank]), hf⟩, rfl⟩
  | uncast _ => exact h.2
  | framed =>
    obtain ⟨⟨hl, hf⟩, rfl⟩ := h
    exact ⟨⟨hl, hf, s', hs (by simp [Stage.rank]), rfl⟩, rfl⟩
  | settled hw =>
    obtain ⟨hf, rfl⟩ := h
    exact ⟨⟨_, _, hf, hw, rfl⟩, rfl⟩
  | @unsettled _ _ _ o _ _ ho =>
    obtain ⟨-, rfl⟩ := h
    cases o with
    | done r => exact absurd rfl (ho r)
    | failed f => exact rfl
    | endless => exact rfl
  | committed hc =>
    obtain ⟨hw, rfl⟩ := h
    exact ⟨_, hw, hc⟩
  | refused _ => exact h.2
  | rested => exact h

theorem course_advanceBy (n : Nat) {t : Turn} {s' : Store} (h : Course found table v s t s')
    (hs : ∀ k, t.stage.rank ≤ k → k ≤ 4 → found k s) :
    Course found table v s (advanceBy table n t s').1 (advanceBy table n t s').2 := by
  induction n generalizing t s' with
  | zero => exact h
  | succ n ih =>
    have hc := course_advance h (hs _ (Nat.le_refl _))
    have hr := le_rank_advance table t s'
    exact ih hc fun k hk => hs k (Nat.le_trans hr hk)

theorem course_start (found : Nat → Store → Prop) (table : Table σ) (v : Value) (s : Store) :
    Course found table v s (start v) s := ⟨rfl, rfl⟩

end

theorem course_run (table : Table σ) (v : Value) (s : Store) :
    Course (fun _ u => u = s) table v s (run table v s).1 (run table v s).2 :=
  course_advanceBy stepCount (course_start _ table v s) fun _ _ _ => rfl

/-- **A turn that resolves alone** has read everything from `s`, and has written its commit once,
to what its narrator left of `s`. -/
theorem run_done {table : Table σ} {v : Value} {s : Store} {r : TurnResult}
    (h : outcome? (run table v s).1 = some (.done r)) : ∃ c,
      SettledFrom (fun _ u => u = s) table v (run table v s).1 c r ∧
      (aside table (run table v s).1.request s).commit c table.now = .ok (run table v s).2 := by
  have hc := course_run table v s
  unfold Course at hc
  rw [outcome?_eq_some.1 h] at hc
  exact hc

/-- A turn that can read a scene from `s` goes on from there. -/
theorem run_eq_of_from {table : Table σ} {v : Value} {s : Store} {scene : Scene}
    (hf : scene.From (fun _ u => u = s) v) :
    run table v s = advanceBy table 2 (reached (.framed scene)) s := by
  obtain ⟨input, session, character, scenario⟩ := scene
  obtain ⟨hl, hi, hn⟩ := Scene.from_iff.1 hf
  dsimp only at hl hi hn
  subst hn
  simp only [run, stepCount, advanceBy, start, advance, hl, reached, hi]

/-- **When a turn resolves alone.** A scene that can be read from `s`, and for which a commit is
settled that goes through, is all it takes. -/
theorem run_of_settles {table : Table σ} {v : Value} {s s' : Store} {scene : Scene}
    {q : NarrativeRequest} {c : TurnCommit} {r : TurnResult} (hf : scene.From (fun _ u => u = s) v)
    (h : Settles table scene q c r)
    (hc : (aside table (some q) s).commit c table.now = .ok s') :
    ∃ e, run table v s = (⟨.closed (.done r), some q, e⟩, s') := by
  obtain ⟨e, hp⟩ := play_of_settles h s
  rw [run_eq_of_from hf]
  simp only [advanceBy, advance, reached, hp, hc]
  exact ⟨e, rfl⟩

/-- **A turn that does not resolve has written nothing.** -/
theorem run_not_done {table : Table σ} {v : Value} {s : Store} {o : Outcome TurnResult}
    (h : outcome? (run table v s).1 = some o) (ho : ∀ r, o ≠ .done r) :
    (run table v s).2 = aside table (run table v s).1.request s := by
  have hc := course_run table v s
  unfold Course at hc
  rw [outcome?_eq_some.1 h] at hc
  cases o with
  | done r => exact absurd rfl (ho r)
  | failed f => exact hc
  | endless => exact hc

/-! ## A small game

One hero in one session, a player who opens a door, and a narrator who always answers the same: the
game on which the theorems about turns are tried. -/

namespace SmallGame

def id : String := "11111111-1111-4111-8111-111111111111"

def hero : Character := ⟨"hero", "Hero", 1, 20, 20, 0, 0, ["torch"]⟩

def store : Store :=
  ⟨[⟨hero, true, none⟩], [⟨id, "hero", "crypt", .active, "gate", none, none, none⟩], []⟩

def input : Value := .object [("sessionId", .string id), ("action", .string "open the door")]

/-- What the narrator is asked after a ten has been rolled. -/
def request : NarrativeRequest :=
  ⟨none, ⟨id, "hero", "crypt", .active, "gate", .empty⟩, hero, "open the door",
    ⟨10, 2, 12, 15, false, false, false, .skill, none, Resolution.summarize 10 2 15⟩⟩

/-- A narrator with one answer, which completes some sessions on the side. -/
def narrator (changes : Changes) (used : Bool) (completed : List String) : Narrator := fun _ =>
  ⟨.ok ⟨.string "The door opens.", .array [], changes.toValue, .bool used⟩, [], completed⟩

/-- A turn that rolls a ten, which misses the target of its difficulty. -/
def table (narrator : Narrator) : Table Scripted := ⟨.hard, .ofValues [.number 10], narrator, 7⟩

end SmallGame

end Turn

end Adventure
