import Adventure.Proofs.Dice.Period
import Mathlib.Algebra.BigOperators.Fin
import Mathlib.Tactic.Ring
/-!
# When two seeds have one stream

The units of a seed are the digits of a number to base 31, and a generator starts from what this
number leaves modulo `2 ^ 64` (`toNat_state_ofUnits`). The fold that computes it carries the digits
that it has read as a factor of the power that the digits ahead will bring, so wrapping on the way
does not show in the end (`toNat_foldl_hash`).

Requests of either kind, mixed in any way, draw the words of one stream in order (`words_eq`). States
and words of a stream correspond place by place, since mixing is one-to-one, so two seeds that agree
in a single word have one hash, and then agree in everything (`one_stream_iff_one_hash`).
-/

namespace Adventure.Seeded

/-! ## The hash of a seed -/

/-- The units of a seed, as the digits of a number to base 31. -/
def radixSum (units : List Nat) : Nat :=
  ∑ i : Fin units.length, units[i] * 31 ^ (units.length - 1 - i)

/-- What a seed comes to: this number modulo `2 ^ 64`, and one instead of zero. -/
def seedHash (units : List Nat) : Nat :=
  if radixSum units % 2 ^ 64 = 0 then 1 else radixSum units % 2 ^ 64

/-- A generator for every sequence of units, whether they are those of a text or not. -/
def ofUnits (units : List Nat) : Seeded := ⟨if hashUnits units = 0 then 1 else hashUnits units, 0⟩

theorem ofSeed_eq (seed : String) : ofSeed seed = ofUnits (Text.units seed.toList) := rfl

theorem radixSum_nil : radixSum [] = 0 := rfl

theorem radixSum_cons (u : Nat) (us : List Nat) :
    radixSum (u :: us) = u * 31 ^ us.length + radixSum us := by
  have htail (i : Fin us.length) : us.length + 1 - 1 - (i.val + 1) = us.length - 1 - i := by omega
  simp only [radixSum, List.length_cons, Fin.sum_univ_succ, Fin.getElem_fin, Fin.val_zero,
    List.getElem_cons_zero, Fin.val_succ, List.getElem_cons_succ, htail]
  rfl

/-- One step of the hash, in the integers. -/
theorem toNat_hash_step (h : UInt64) (u : Nat) :
    (h * 31 + UInt64.ofNat u).toNat = (h.toNat * 31 + u) % 2 ^ 64 := by
  have hbase : (31 : UInt64).toNat = 31 := rfl
  rw [UInt64.toNat_add, UInt64.toNat_mul, UInt64.toNat_ofNat', hbase]
  omega

/-- What has been read is carried along as the upper digits. -/
theorem toNat_foldl_hash (us : List Nat) (h : UInt64) :
    (us.foldl (fun h u => h * 31 + UInt64.ofNat u) h).toNat =
      (h.toNat * 31 ^ us.length + radixSum us) % 2 ^ 64 := by
  induction us generalizing h with
  | nil =>
    have hlt := h.toNat_lt
    rw [List.foldl_nil, List.length_nil, radixSum_nil]
    omega
  | cons u us ih =>
    have hdigits : (h.toNat * 31 + u) * 31 ^ us.length + radixSum us =
        h.toNat * 31 ^ (us.length + 1) + (u * 31 ^ us.length + radixSum us) := by ring
    rw [List.foldl_cons, ih, toNat_hash_step, radixSum_cons, List.length_cons, ← hdigits,
      Nat.add_mod, Nat.mul_mod, Nat.mod_mod, ← Nat.mul_mod, ← Nat.add_mod]

theorem toNat_hashUnits (us : List Nat) : (hashUnits us).toNat = radixSum us % 2 ^ 64 := by
  have hfold := toNat_foldl_hash us 0
  rwa [UInt64.toNat_zero, Nat.zero_mul, Nat.zero_add] at hfold

/-- **The first state of a generator is the hash of its seed.** -/
theorem toNat_state_ofUnits (us : List Nat) : (ofUnits us).state.toNat = seedHash us := by
  have hhash := toNat_hashUnits us
  have hzero : hashUnits us = 0 ↔ radixSum us % 2 ^ 64 = 0 := by
    rw [← UInt64.toNat_inj, hhash, UInt64.toNat_zero]
  unfold ofUnits seedHash
  by_cases h : hashUnits us = 0
  · rw [if_pos h, if_pos (hzero.1 h)]
    rfl
  · rw [if_neg h, if_neg (mt hzero.2 h), hhash]

theorem seedHash_ne_zero (us : List Nat) : seedHash us ≠ 0 := by
  unfold seedHash
  split
  · decide
  · assumption

/-- Seeds with one hash have one generator. -/
theorem ofUnits_eq_iff {us vs : List Nat} : ofUnits us = ofUnits vs ↔ seedHash us = seedHash vs := by
  rw [← toNat_state_ofUnits, ← toNat_state_ofUnits, UInt64.toNat_inj]
  constructor
  · exact congrArg state
  · intro h
    have heta (ws : List Nat) : ofUnits ws = ⟨(ofUnits ws).state, 0⟩ := rfl
    rw [heta us, heta vs, h]

/-! ## Requests of both kinds -/

/-- What is asked of a generator: a fraction, or an integer between two bounds. -/
inductive Request where
  | fraction
  | range (low high : Value)

/-- The answer, and the generator as it is then. -/
def Request.answer : Request → Seeded → Except Fault Number × Seeded
  | fraction, g => (.ok g.nextFraction.1, g.nextFraction.2)
  | range low high, g => (Seeded.range low high).run g

/-- The answers to one request after the other. A request that is refused does not end them. -/
def answers : List Request → Seeded → List (Except Fault Number)
  | [], _ => []
  | r :: rest, g => (r.answer g).1 :: answers rest (r.answer g).2

/-- The words that requests draw: the next one, whenever one more has been drawn. -/
def words : List Request → Seeded → List UInt64
  | [], _ => []
  | r :: rest, g =>
    let after := (r.answer g).2
    if after.drawn = g.drawn then words rest after else g.nextWord.1 :: words rest after

/-- A request takes one step or, if its bounds are refused, none. -/
theorem Request.answer_cases (r : Request) :
    (∀ g, (r.answer g).2 = g.step) ∨ ∀ g, (r.answer g).2 = g := by
  cases r with
  | fraction => exact .inl fun g => rfl
  | range low high =>
    cases h : bounds? low high with
    | none =>
      refine .inr fun g => ?_
      change (Seeded.range low high g).2 = g
      rw [Seeded.range, h]
    | some bounds =>
      refine .inl fun g => ?_
      change (Seeded.range low high g).2 = g.step
      rw [Seeded.range, h]
      rfl

/-- **Whatever is requested, the words come from one stream**, none is left out and none comes
twice. -/
theorem words_eq (rs : List Request) (g : Seeded) :
    words rs g = (List.range (words rs g).length).map (stream nextWord g) := by
  induction rs generalizing g with
  | nil => rfl
  | cons r rest ih =>
    unfold words
    rcases r.answer_cases with hstep | hstay
    · have hdrawn : g.step.drawn ≠ g.drawn := Nat.succ_ne_self _
      have hlater : stream nextWord g ∘ Nat.succ = stream nextWord g.step := by
        funext k
        rw [Function.comp_apply, stream, nextWord]
      simp only [hstep, if_neg hdrawn]
      rw [List.length_cons, List.range_succ_eq_map, List.map_cons, List.map_map, hlater, ← ih g.step]
      rfl
    · simp only [hstay, if_true]
      exact ih g

/-! ## Two streams -/

/-- In one place two streams have the same word just if they began in the same state. -/
theorem stream_nextWord_inj {g g' : Seeded} {k : Nat} :
    stream nextWord g k = stream nextWord g' k ↔ g.state = g'.state := by
  rw [stream_nextWord, stream_nextWord, mix_injective.eq_iff, UInt64.add_left_inj]

/-- **Two seeds have one stream just if they have one hash.** A generator begins with the hash of its
seed, which is never zero. Requests of either kind, mixed in any way, draw the words of its stream in
order. Two streams have the same word in some place, wherever it is, just if the hashes of their
seeds are equal, and then they agree in every answer to every mixture of requests. -/
theorem one_stream_iff_one_hash (us vs : List Nat) :
    (∀ seed : String, ofSeed seed = ofUnits (Text.units seed.toList)) ∧
    (ofUnits us).state.toNat = seedHash us ∧ seedHash us ≠ 0 ∧
    (∀ rs, words rs (ofUnits us) =
      (List.range (words rs (ofUnits us)).length).map (stream nextWord (ofUnits us))) ∧
    (∀ k, stream nextWord (ofUnits us) k = stream nextWord (ofUnits vs) k ↔
      seedHash us = seedHash vs) ∧
    (seedHash us = seedHash vs → ∀ rs, answers rs (ofUnits us) = answers rs (ofUnits vs) ∧
      words rs (ofUnits us) = words rs (ofUnits vs)) := by
  refine ⟨ofSeed_eq, toNat_state_ofUnits us, seedHash_ne_zero us, fun rs => words_eq rs _, ?_, ?_⟩
  · intro k
    rw [stream_nextWord_inj, ← UInt64.toNat_inj, toNat_state_ofUnits, toNat_state_ofUnits]
  · intro h rs
    rw [ofUnits_eq_iff.2 h]
    exact ⟨rfl, rfl⟩

/-- Two seeds whose numbers are `2 ^ 64` apart share their dice. -/
theorem one_stream_of_two_seeds :
    let seed := "open the vault"
    let other := "nwwkvntvyplmfd"
    radixSum (Text.units seed.toList) = radixSum (Text.units other.toList) + 2 ^ 64 ∧
    ∀ rs, answers rs (ofSeed seed) = answers rs (ofSeed other) ∧
      words rs (ofSeed seed) = words rs (ofSeed other) := by
  intro seed other
  obtain ⟨hseed, -, -, -, -, hagree⟩ :=
    one_stream_iff_one_hash (Text.units seed.toList) (Text.units other.toList)
  rw [hseed, hseed]
  exact ⟨by decide +kernel, hagree (by decide +kernel)⟩

end Adventure.Seeded
