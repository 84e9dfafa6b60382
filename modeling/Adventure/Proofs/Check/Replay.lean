import Adventure.Proofs.Check.Perform
import Adventure.Proofs.Dice.Seeded
/-!
# Record and replay

Checks that are made with seeded dice can be made again with a script of the values that the dice
gave out (`replay_agrees`). How many values a check asks for, and between which bounds, depends on
the values before, and the script refuses what does not lie between the bounds it is asked for. So
dice, record and script are followed together, one request after the other (`Replays`). That a value
is between its bounds is a fact about the dice; that the three then go on alike needs no more than
that they were given the same value.
-/

namespace Adventure

/-! ## Recording -/

/-- A source with a record of the values that it has given out. -/
structure Recorded (σ : Type) where
  source : σ
  record : List Number

namespace Recorded

variable {σ : Type} [DiceSource σ]

def start (d : σ) : Recorded σ := ⟨d, []⟩

/-- Only an answer is recorded. -/
def range (low high : Value) : Draw (Recorded σ) Number := fun d =>
  match (DiceSource.range low high : Draw σ Number).run d.source with
  | (.ok x, source) => (.ok x, ⟨source, d.record ++ [x]⟩)
  | (.error f, source) => (.error f, ⟨source, d.record⟩)

instance : DiceSource (Recorded σ) := ⟨range⟩

end Recorded

/-! ## Three runs of one activity -/

/-- An activity with dice, with their record, and with a script: from any state of the dice it ends
alike in all three, if the script goes on with the values that are recorded meanwhile. These are used
up then, and no others, and the dice were drawn once for each of them. -/
def Replays {α : Type} (x : Draw Seeded α) (recording : Draw (Recorded Seeded) α)
    (replay : Draw Scripted α) : Prop :=
  ∀ g : Seeded, ∃ (result : Except Fault α) (g' : Seeded) (values : List Number),
    x.run g = (result, g') ∧ g'.drawn = g.drawn + values.length ∧
    (∀ record, recording.run ⟨g, record⟩ = (result, ⟨g', record ++ values⟩)) ∧
    ∀ rest consumed, replay.run ⟨values.map .number ++ rest, consumed⟩ =
      (result, ⟨rest, consumed + values.length⟩)

namespace Replays

variable {α β : Type} {x : Draw Seeded α} {y : Draw (Recorded Seeded) α} {z : Draw Scripted α}

theorem pure (a : α) : Replays (Pure.pure a) (Pure.pure a) (Pure.pure a) := by
  intro g
  refine ⟨.ok a, g, [], rfl, rfl, fun record => ?_, fun rest consumed => rfl⟩
  rw [List.append_nil]
  rfl

theorem lift (e : Except Fault α) : Replays (Draw.lift e) (Draw.lift e) (Draw.lift e) := by
  cases e with
  | ok a => exact pure a
  | error f =>
    intro g
    refine ⟨.error f, g, [], rfl, rfl, fun record => ?_, fun rest consumed => rfl⟩
    rw [List.append_nil]
    rfl

/-- The script of two parts is the script of the first, and then that of the second. -/
theorem bind (hx : Replays x y z) {f : α → Draw Seeded β} {f' : α → Draw (Recorded Seeded) β}
    {f'' : α → Draw Scripted β}
    (hf : ∀ {g a g'}, x.Gives g a g' → Replays (f a) (f' a) (f'' a)) :
    Replays (x >>= f) (y >>= f') (z >>= f'') := by
  intro g
  obtain ⟨result, g₁, values, hplain, hdrawn, hrecord, hscript⟩ := hx g
  simp only [Draw.run_bind, hplain, hrecord]
  cases result with
  | error fault =>
    refine ⟨.error fault, g₁, values, rfl, hdrawn, fun record => rfl, fun rest consumed => ?_⟩
    rw [hscript]
  | ok a =>
    obtain ⟨result, g₂, more, hplain', hdrawn', hrecord', hscript'⟩ := hf hplain g₁
    refine ⟨result, g₂, values ++ more, hplain', ?_, fun record => ?_, fun rest consumed => ?_⟩
    · rw [hdrawn', hdrawn, List.length_append, Nat.add_assoc]
    · rw [← List.append_assoc]
      exact hrecord' (record ++ values)
    · rw [List.map_append, List.append_assoc, hscript, List.length_append, ← Nat.add_assoc]
      exact hscript' rest (consumed + values.length)

theorem map (h : Replays x y z) (k : α → β) : Replays (k <$> x) (k <$> y) (k <$> z) := by
  simp only [map_eq_pure_bind]
  exact h.bind fun {_ a _} _ => pure (k a)

/-- One request: the dice answer it between its bounds, and there the script admits the answer. -/
theorem range {low high : Int} (h : Requestable low high) :
    Replays (DiceSource.range (.number (.finite low)) (.number (.finite high)))
      (DiceSource.range (.number (.finite low)) (.number (.finite high)))
      (DiceSource.range (.number (.finite low)) (.number (.finite high))) := by
  intro g
  obtain ⟨face, hg, hpicks⟩ := g.gives_range h
  have hg : (DiceSource.range (.number (.finite low)) (.number (.finite high)) :
      Draw Seeded Number).run g = (.ok (.finite face), g.step) := hg
  refine ⟨.ok (.finite face), g.step, [.finite face], hg, rfl, fun record => ?_,
    fun rest consumed => ?_⟩
  · change Recorded.range _ _ ⟨g, record⟩ = _
    unfold Recorded.range
    dsimp only
    rw [hg]
  · change Scripted.range _ _ ⟨.number (.finite face) :: rest, consumed⟩ = _
    unfold Scripted.range
    dsimp only
    rw [Scripted.admit?_intCast hpicks.low_le hpicks.le_high]
    rfl

/-! ## Checks -/

theorem rollOnto {faces : Int} (h : Requestable 1 faces) (n : Nat) (sum : Number) :
    Replays (Pool.rollOnto (.number (.finite faces)) n sum)
      (Pool.rollOnto (.number (.finite faces)) n sum)
      (Pool.rollOnto (.number (.finite faces)) n sum) := by
  induction n generalizing sum with
  | zero => exact pure sum
  | succ n ih => exact (range h).bind fun {_ face _} _ => ih (sum + face)

theorem roll {pool : Pool} {faces : Int} (hpool : pool.faces = .number (.finite faces))
    (h : Requestable 1 faces) : Replays pool.roll pool.roll pool.roll := by
  unfold Pool.roll
  rw [hpool]
  exact rollOnto h _ 0

theorem drawDamage (level : Value) (roll : Number) :
    Replays (drawDamage level roll) (drawDamage level roll) (drawDamage level roll) := by
  unfold Adventure.drawDamage
  split
  · refine (lift _).bind fun {_ pool _} hpool => ?_
    obtain ⟨l, -, rfl⟩ := Shape.map_eq_ok.1 (Draw.gives_lift_iff.1 hpool).1
    obtain ⟨n, hn, hlow, hhigh⟩ := Progression.damageFaces_eq l
    have hfaces : (Pool.doubled ⟨1, .number (Progression.damageFaces l)⟩).faces =
        .number (.finite (n : Int)) := by
      rw [hn]
      rfl
    exact (Replays.roll hfaces (requestable_faces (by omega) (by omega))).map some
  · split
    · have hfaces : Progression.fumblePool.faces = .number (.finite (4 : Int)) := rfl
      exact (Replays.roll hfaces (requestable_faces (by omega) (by omega))).map some
    · exact pure none

/-- **A check is replayed**, whatever it is asked for: it fails alike where it fails. -/
theorem performCheck (level tier category : Value) :
    Replays (performCheck level tier category) (performCheck level tier category)
      (performCheck level tier category) := by
  have htwenty : Requestable 1 20 := requestable_faces (by omega) (by omega)
  unfold Adventure.performCheck
  refine (lift _).bind fun _ => (lift _).bind fun _ => ?_
  refine (range htwenty).bind fun _ => (drawDamage level _).bind fun _ => lift _

/-- One activity after the other, for each item of a list. -/
theorem mapM {ι : Type} {f : ι → Draw Seeded β} {f' : ι → Draw (Recorded Seeded) β}
    {f'' : ι → Draw Scripted β} (hf : ∀ i, Replays (f i) (f' i) (f'' i)) (l : List ι) :
    Replays (l.mapM f) (l.mapM f') (l.mapM f'') := by
  induction l with
  | nil =>
    simp only [List.mapM_nil]
    exact pure []
  | cons i rest ih =>
    simp only [List.mapM_cons]
    exact (hf i).bind fun {_ b _} _ => ih.bind fun {_ bs _} _ => pure (b :: bs)

end Replays

/-- What a check is asked for: a level, a tier and a category. -/
structure CheckRequest where
  level : Number
  tier : Tier
  category : Category
  isLevel : Progression.isLevel level
  held : level.Held

namespace CheckRequest

variable {σ : Type} [DiceSource σ] {d : σ}

def perform (c : CheckRequest) : Draw σ Resolution :=
  performCheck (.number c.level) (.string c.tier.name) (.string c.category.name)

/-- Fair dice give a resolution for every check of a list. -/
theorem exists_gives (h : Fair d) (checks : List CheckRequest) :
    ∃ results d', (checks.mapM perform).Gives d results d' ∧ Fair d' := by
  induction checks generalizing d with
  | nil =>
    simp only [List.mapM_nil]
    exact ⟨[], d, Draw.gives_pure [] d, h⟩
  | cons c rest ih =>
    obtain ⟨roll, damage, d₁, hfirst, -, -, hd₁⟩ :=
      gives_performCheck h c.isLevel c.held c.tier c.category
    obtain ⟨results, d₂, hrest, hd₂⟩ := ih hd₁
    simp only [List.mapM_cons]
    exact ⟨_, d₂, hfirst.bind (hrest.bind (Draw.gives_pure _ d₂)), hd₂⟩

/-- **Record and replay agree.** Checks that are made in order with the dice of one seed all give
their resolutions. With a script of the values that the dice gave out meanwhile they give the same
resolutions, and use up the script; it has as many values as were drawn. -/
theorem replay_agrees (seed : String) (checks : List CheckRequest) :
    ∃ (results : List Resolution) (g : Seeded) (values : List Number),
      (checks.mapM perform).Gives (Seeded.ofSeed seed) results g ∧
      (checks.mapM perform).Gives (Recorded.start (Seeded.ofSeed seed)) results ⟨g, values⟩ ∧
      (checks.mapM perform).Gives (Scripted.ofValues (values.map .number)) results
        ⟨[], values.length⟩ ∧
      g.drawn = values.length := by
  have hreplays := Replays.mapM (fun c : CheckRequest => Replays.performCheck (.number c.level)
    (.string c.tier.name) (.string c.category.name)) checks
  obtain ⟨result, g, values, hplain, hdrawn, hrecord, hscript⟩ := hreplays (Seeded.ofSeed seed)
  obtain ⟨results, g', hgives, -⟩ := exists_gives (Seeded.ofSeed seed).fair checks
  obtain ⟨rfl, rfl⟩ := Prod.mk.inj (hplain.symm.trans hgives)
  have hrecord := hrecord []
  have hscript := hscript [] 0
  rw [List.append_nil, Nat.zero_add] at hscript
  exact ⟨results, g, values, hgives, hrecord, hscript, hdrawn.trans (Nat.zero_add _)⟩

/-- A critical hit, a fumble, and a roll that is neither, of one seed. -/
example :
    let held (n : Int) (h : n.natAbs ≤ 2 ^ 53) : (Number.finite n).Held := Number.ofRat_intCast h
    let checks : List CheckRequest :=
      [⟨3, .easy, .combat, by decide, held 3 (by decide)⟩,
        ⟨9, .hard, .social, by decide, held 9 (by decide)⟩,
        ⟨1, .normal, .skill, by decide, held 1 (by decide)⟩]
    ((checks.mapM perform).run (Recorded.start (Seeded.ofSeed "seed-2878"))).2.record =
      [20, 4, 4, 1, 3, 10] := by
  decide +kernel

end CheckRequest

end Adventure
