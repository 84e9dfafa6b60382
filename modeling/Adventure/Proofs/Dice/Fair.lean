import Adventure.Dice.Pool
import Adventure.Dice.Scripted
import Adventure.Proofs.Number.Rounding
/-!
# Fair dice

A source is fair if it answers every request for an integer between two bounds with one, and stays
fair. What is rolled with such a source never fails, and its sum stays between the bounds of its
dice (`gives_roll`).

What a source will do is not written in it, so fairness is stated by an invariant of its states, as
for anything that has no end.
-/

namespace Adventure

variable {σ α β : Type}

namespace Draw

/-- An activity that ends well, with an answer and the source as it is then. -/
def Gives (x : Draw σ α) (d : σ) (a : α) (d' : σ) : Prop := x.run d = (.ok a, d')

variable {x : Draw σ α} {f : α → Draw σ β} {a : α} {b : β} {d d' d'' : σ}

/-- What goes on after an answer, goes on from there; a fault ends it. -/
theorem run_bind (x : Draw σ α) (f : α → Draw σ β) (d : σ) :
    (x >>= f).run d =
      match x.run d with
      | (.ok a, d') => (f a).run d'
      | (.error fault, d') => (.error fault, d') := by
  rw [ExceptT.run_bind]
  change StateT.bind x.run _ d = _
  rcases hr : x.run d with ⟨_ | _, d'⟩ <;> simp only [StateT.bind, hr] <;> rfl

/-- What is made of an answer afterwards draws nothing. -/
theorem run_map (g : α → β) (x : Draw σ α) (d : σ) :
    (g <$> x).run d = ((x.run d).1.map g, (x.run d).2) := by
  rw [ExceptT.run_map]
  rfl

theorem gives_pure (a : α) (d : σ) : Gives (pure a) d a d := rfl

/-- What goes well at first may end in any way later. -/
theorem Gives.run_bind (hx : Gives x d a d') : (x >>= f).run d = (f a).run d' := by
  unfold Gives at hx
  rw [Draw.run_bind, hx]

theorem Gives.bind (hx : Gives x d a d') (hf : Gives (f a) d' b d'') : Gives (x >>= f) d b d'' :=
  hx.run_bind.trans hf

theorem Gives.map (g : α → β) (hx : Gives x d a d') : Gives (g <$> x) d (g a) d' := by
  rw [map_eq_pure_bind]
  exact hx.bind (gives_pure (g a) d')

/-- An activity that ends well has ended well in both of its parts. -/
theorem gives_bind_iff :
    Gives (x >>= f) d b d'' ↔ ∃ a d', Gives x d a d' ∧ Gives (f a) d' b d'' := by
  constructor
  · intro h
    unfold Gives at h
    rw [run_bind] at h
    rcases hr : x.run d with ⟨fault | a, d'⟩
    · rw [hr] at h
      cases h
    · rw [hr] at h
      exact ⟨a, d', hr, h⟩
  · rintro ⟨a, d', hx, hf⟩
    exact hx.bind hf

theorem gives_pure_iff {a' : α} : Gives (pure a) d a' d' ↔ a' = a ∧ d' = d := by
  constructor
  · intro h
    have h : (Except.ok a, d) = (Except.ok a', d') := h
    cases h
    exact ⟨rfl, rfl⟩
  · rintro ⟨rfl, rfl⟩
    exact gives_pure _ _

theorem gives_map_iff {g : α → β} : Gives (g <$> x) d b d' ↔ ∃ a, Gives x d a d' ∧ b = g a := by
  rw [map_eq_pure_bind, gives_bind_iff]
  constructor
  · rintro ⟨a, d₁, hx, hp⟩
    obtain ⟨rfl, rfl⟩ := gives_pure_iff.1 hp
    exact ⟨a, hx, rfl⟩
  · rintro ⟨a, hx, rfl⟩
    exact ⟨a, d', hx, gives_pure _ _⟩

variable {fault : Fault}

/-- An activity that ends in a fault. -/
def Fails (x : Draw σ α) (d : σ) (fault : Fault) : Prop := (x.run d).1 = .error fault

theorem Fails.bind (hx : Fails x d fault) : Fails (x >>= f) d fault := by
  unfold Fails at *
  rw [run_bind]
  rcases hr : x.run d with ⟨y, d'⟩
  rw [hr] at hx
  subst hx
  rfl

/-- What goes well at first may fail later. -/
theorem Gives.fails_bind (hx : Gives x d a d') (hf : Fails (f a) d' fault) :
    Fails (x >>= f) d fault := by
  unfold Fails at *
  rw [hx.run_bind]
  exact hf

end Draw

/-! ## Fairness -/

variable [DiceSource σ] {d : σ}

/-- Bounds that can be asked for: integers that no number rounds, less than `2 ^ 53` apart. -/
structure Requestable (low high : Int) : Prop where
  ordered : low ≤ high
  lowExact : -2 ^ 53 < low
  highExact : high < 2 ^ 53
  narrow : high - low < 2 ^ 53

/-- A source that answers every request for an integer between two bounds, now and ever after. -/
def Fair (d : σ) : Prop :=
  ∃ fair : σ → Prop, fair d ∧ ∀ d, fair d → ∀ low high : Int, Requestable low high →
    ∃ (face : Int) (d' : σ),
      (DiceSource.range (.number (.finite low)) (.number (.finite high))).Gives d (.finite face) d' ∧
        low ≤ face ∧ face ≤ high ∧ fair d'

theorem Fair.range (h : Fair d) {low high : Int} (hr : Requestable low high) :
    ∃ (face : Int) (d' : σ),
      (DiceSource.range (.number (.finite low)) (.number (.finite high))).Gives d (.finite face) d' ∧
        low ≤ face ∧ face ≤ high ∧ Fair d' := by
  obtain ⟨fair, hd, hfair⟩ := h
  obtain ⟨face, d', hg, hlow, hhigh, hd'⟩ := hfair d hd low high hr
  exact ⟨face, d', hg, hlow, hhigh, fair, hd', hfair⟩

/-- A source that keeps to the bounds of every request that it answers, now and ever after. It may
refuse any of them. -/
def Honest (d : σ) : Prop :=
  ∃ honest : σ → Prop, honest d ∧ ∀ d, honest d → ∀ (low high : Int) (x : Number) (d' : σ),
    Requestable low high →
    (DiceSource.range (.number (.finite low)) (.number (.finite high))).Gives d x d' →
      (∃ face : Int, x = .finite face ∧ low ≤ face ∧ face ≤ high) ∧ honest d'

theorem Honest.range (h : Honest d) {low high : Int} {x : Number} {d' : σ}
    (hr : Requestable low high)
    (hg : (DiceSource.range (.number (.finite low)) (.number (.finite high))).Gives d x d') :
    (∃ face : Int, x = .finite face ∧ low ≤ face ∧ face ≤ high) ∧ Honest d' := by
  obtain ⟨honest, hd, hhonest⟩ := h
  obtain ⟨hface, hd'⟩ := hhonest d hd low high x d' hr hg
  exact ⟨hface, honest, hd', hhonest⟩

/-- Fair dice are honest. -/
theorem Fair.honest (h : Fair d) : Honest d := by
  refine ⟨Fair, h, ?_⟩
  intro d hd low high x d' hr hg
  obtain ⟨face, d₁, hface, hlow, hhigh, hd₁⟩ := hd.range hr
  have hsame : (Except.ok x, d') = (Except.ok (.finite face), d₁) := hg.symm.trans hface
  cases hsame
  exact ⟨⟨face, rfl, hlow, hhigh⟩, hd₁⟩

theorem requestable_faces {faces : Int} (h : 1 ≤ faces) (h' : faces < 2 ^ 53) :
    Requestable 1 faces := ⟨h, by omega, h', by omega⟩

/-! ## Pools -/

namespace Pool

/-- **Fair dice add up**: the sum of `n` dice lies between `n` and `n` times the highest face. Up to
`2 ^ 53` no sum is rounded. -/
theorem gives_rollOnto (h : Fair d) {faces : Int} (hfaces : Requestable 1 faces) (n : Nat)
    {sum : Int} (hsum : 0 ≤ sum) (hsmall : sum + n * faces ≤ 2 ^ 53) :
    ∃ (total : Int) (d' : σ),
      (rollOnto (.number (.finite faces)) n (.finite sum)).Gives d (.finite total) d' ∧
        sum + n ≤ total ∧ total ≤ sum + n * faces ∧ Fair d' := by
  induction n generalizing d sum with
  | zero => exact ⟨sum, d, Draw.gives_pure _ d, by simp, by simp, h⟩
  | succ n ih =>
    obtain ⟨face, d', hg, hlow, hhigh, hd'⟩ := h.range hfaces
    have hmul : ((n + 1 : Nat) : Int) * faces = n * faces + faces := by
      push_cast
      rw [Int.add_mul, Int.one_mul]
    rw [hmul] at hsmall ⊢
    have hone := hfaces.ordered
    have hn : 0 ≤ (n : Int) * faces := Int.mul_nonneg (by omega) (by omega)
    have hadd : (Number.finite sum) + .finite face = .finite ((sum + face : Int) : Rat) := by
      change Number.ofRat _ = _
      rw [← Int.cast_add]
      exact Number.ofRat_intCast (by omega)
    obtain ⟨total, d'', hr, hlow', hhigh', hd''⟩ := ih hd' (by omega : 0 ≤ sum + face) (by omega)
    refine ⟨total, d'', ?_, by omega, by omega, hd''⟩
    exact hg.bind (hadd ▸ hr)

/-- A pool that is small enough is rolled to a sum between its bounds. -/
theorem gives_roll (h : Fair d) {pool : Pool} {n : Nat} {faces : Int}
    (hcount : rolls pool.count = n) (hpool : pool.faces = .number (.finite faces))
    (hfaces : Requestable 1 faces) (hsmall : n * faces ≤ 2 ^ 53) :
    ∃ (total : Int) (d' : σ),
      pool.roll.Gives d (.finite total) d' ∧ n ≤ total ∧ total ≤ n * faces ∧ Fair d' := by
  obtain ⟨total, d', hg, hlow, hhigh, hd'⟩ :=
    gives_rollOnto h hfaces n (le_refl 0) (by omega)
  refine ⟨total, d', ?_, by omega, by omega, hd'⟩
  rw [roll, hpool, hcount]
  exact hg

end Pool

/-! ## Scripts -/

namespace Scripted

theorem admit?_eq_some {v : Value} {low high : Int} {x : Number}
    (h : admit? v (.number (.finite low)) (.number (.finite high)) = some x) :
    ∃ face : Int, x = .finite face ∧ low ≤ face ∧ face ≤ high := by
  cases v with
  | number y =>
    simp only [admit?, Value.toNumber, Option.ite_none_left_eq_some, Bool.or_eq_true,
      Bool.not_eq_eq_eq_not, Bool.not_true, not_or, Bool.not_eq_false, Option.some.injEq] at h
    obtain ⟨⟨⟨hinteger, hlow⟩, hhigh⟩, rfl⟩ := h
    obtain ⟨face, rfl⟩ := Number.isInteger_iff.1 hinteger
    have hlow : ¬ face < low := fun h => hlow (decide_eq_true (Number.intCast_lt_intCast.2 h))
    have hhigh : ¬ high < face := fun h => hhigh (decide_eq_true (Number.intCast_lt_intCast.2 h))
    exact ⟨face, rfl, not_lt.1 hlow, not_lt.1 hhigh⟩
  | _ => cases h

/-- An integer between the bounds is admitted. -/
theorem admit?_intCast {low high face : Int} (hlow : low ≤ face) (hhigh : face ≤ high) :
    admit? (.number (.finite face)) (.number (.finite low)) (.number (.finite high)) =
      some (.finite face) := by
  have hinteger : (Number.finite face).isInteger = true := by simp [Number.isInteger]
  have hnotBelow : ¬ Number.finite face < .finite low :=
    mt Number.intCast_lt_intCast.1 (not_lt.2 hlow)
  have hnotAbove : ¬ Number.finite high < .finite face :=
    mt Number.intCast_lt_intCast.1 (not_lt.2 hhigh)
  simp [admit?, Value.toNumber, hinteger, hnotBelow, hnotAbove]

/-- **Scripted dice are honest**: they refuse what does not lie between the bounds. -/
theorem honest (script : Scripted) : Honest script := by
  refine ⟨fun _ => True, trivial, ?_⟩
  intro script _ low high x script' _ hg
  refine ⟨?_, trivial⟩
  have hg : range (.number (.finite low)) (.number (.finite high)) script =
      (.ok x, script') := hg
  unfold range at hg
  split at hg
  · cases hg
  · dsimp only at hg
    split at hg
    · cases hg
    · rename_i hadmit
      cases hg
      exact admit?_eq_some hadmit

end Scripted

end Adventure
