import Adventure.Proofs.Turn.Interleaving
import Adventure.Proofs.Turn.Quiet
/-!
# A turn writes everything or nothing

A turn can fail while it reads, at the check, with the narrator, when what follows is settled, and
at the commit. Wherever it fails, the store is what it was, row for row, but for the sessions that
the narrator completed on the side (`run_atomic`). Among other turns, a turn that has not resolved
might as well not have made its steps (`follow_without`).
-/

namespace Adventure

/-- The second store is the first one, but for the status of sessions among `ids`. -/
structure Store.SameBut (ids : List String) (s s' : Store) : Prop where
  characters : s'.characters = s.characters
  sessions : ∀ i : Nat, s'.sessions[i]? = s.sessions[i]? ∨ ∃ row : SessionRow,
    s.sessions[i]? = some row ∧ row.id ∈ ids ∧
      s'.sessions[i]? = some { row with status := .completed }

theorem Store.sameBut_completeAll (s : Store) (ids : List String) :
    s.SameBut ids (s.completeAll ids) :=
  ⟨s.characters_completeAll ids, s.getElem?_completeAll ids⟩

namespace Turn

variable {σ : Type} [DiceSource σ]

/-- **A turn that does not resolve leaves no trace.** Every run comes to an outcome. Unless that is
a result, the store is the one before the turn up to what the narrator did on the side, which
reaches no character and of a session only the status. -/
theorem run_atomic (table : Table σ) (v : Value) (s : Store) :
    ∃ o, outcome? (run table v s).1 = some o ∧ ((∀ r, o ≠ .done r) →
      (run table v s).2 = aside table (run table v s).1.request s ∧
      s.SameBut (completions table (run table v s).1.request) (run table v s).2) := by
  obtain ⟨o, h⟩ := run_closed table v s
  refine ⟨o, h, fun ho => ?_⟩
  have hs := run_not_done h ho
  refine ⟨hs, ?_⟩
  rw [hs]
  exact s.sameBut_completeAll _

/-- A session that is completed during the narration: the commit is refused, and the hero is as
before. -/
theorem run_atomic_completed_meanwhile :
    let table := SmallGame.table (SmallGame.narrator .nothing false [SmallGame.id])
    let out := run table SmallGame.input SmallGame.store
    outcome? out.1 = some (.failed (.fault (.commitRefused SmallGame.id))) ∧
      out.2 = aside table out.1.request SmallGame.store ∧
      SmallGame.store.SameBut (completions table out.1.request) out.2 := by
  intro table out
  have hr : outcome? out.1 = some (.failed (.fault (.commitRefused SmallGame.id))) := by
    decide +kernel
  obtain ⟨o, ho, h⟩ := run_atomic table SmallGame.input SmallGame.store
  cases hr.symm.trans ho
  exact ⟨hr, h (by simp)⟩

/-! ## Among other turns -/

/-- As long as a quiet turn has not resolved, its steps leave the store alone. -/
theorem store_advance_of_unresolved {table : Table σ} (hq : Quiet table) {t : Turn} {s : Store}
    (h : result? (t.advance table s).1 = none) : (t.advance table s).2 = s := by
  have hm := advance_move table t s
  generalize (t.advance table s).1 = t', (t.advance table s).2 = s' at hm h
  cases hm with
  | located _ | unlocated _ | cast _ | uncast _ | framed | refused _ | rested => rfl
  | settled _ | unsettled _ => exact hq.aside _ s
  | committed _ => cases h

namespace Board

/-- Boards with the same store, on which all turns but the one in the place `p` are at the same
stage. -/
structure SameBut (p : Nat) (b b' : Board σ) : Prop where
  store : b.store = b'.store
  turns : ∀ q : Nat, q ≠ p → b.turns[q]? = b'.turns[q]?

variable {p : Nat} {b b' : Board σ}

/-- The other turns do the same on both boards. -/
theorem sameBut_advance (h : b.SameBut p b') {q : Nat} (hq : q ≠ p) :
    (b.advance q).SameBut p (b'.advance q) := by
  have hturn := h.turns q hq
  cases hb : b.turns[q]? with
  | none =>
    rw [advance_of_none hb, advance_of_none (hturn ▸ hb)]
    exact h
  | some seat =>
    have hb' : b'.turns[q]? = some seat := hturn ▸ hb
    refine ⟨?_, fun r hr => ?_⟩
    · rw [store_advance hb, store_advance hb', h.store]
    · by_cases hrq : r = q
      · subst hrq
        rw [getElem?_advance_self hb, getElem?_advance_self hb', h.store]
      · rw [getElem?_advance_of_ne hrq, getElem?_advance_of_ne hrq]
        exact h.turns r hr

/-- As long as the turn in the place `p` has not resolved, it makes no difference. -/
theorem sameBut_advance_self (h : b.SameBut p b')
    (hq : ∀ table t, b.turns[p]? = some (table, t) → Quiet table)
    (hr : (b.advance p).told? p = none) : (b.advance p).SameBut p b' := by
  refine ⟨?_, fun q hqp => (getElem?_advance_of_ne hqp).trans (h.turns q hqp)⟩
  cases hb : b.turns[p]? with
  | none => rw [advance_of_none hb, h.store]
  | some seat =>
    obtain ⟨table, t⟩ := seat
    rw [told?, getElem?_advance_self hb, Option.bind_some] at hr
    rw [store_advance hb, store_advance_of_unresolved (hq table t hb) hr, h.store]

/-- What a turn has told the player stays told. -/
theorem told?_advance {r : TurnResult} (h : b.told? p = some r) (q : Nat) :
    (b.advance q).told? p = some r := by
  by_cases hpq : p = q
  · subst hpq
    obtain ⟨⟨table, t⟩, hb, hr⟩ := Option.bind_eq_some_iff.1 h
    rw [told?, getElem?_advance_self hb, Option.bind_some]
    exact result?_advance b.store hr
  · rwa [told?, getElem?_advance_of_ne hpq]

theorem told?_follow {r : TurnResult} (schedule : List Nat) (h : b.told? p = some r) :
    (b.follow schedule).told? p = some r := by
  induction schedule generalizing b with
  | nil => exact h
  | cons q rest ih => exact ih (told?_advance h q)

/-- **A turn that does not resolve leaves no trace among others.** If the quiet turn in the place
`p` has not resolved after a schedule, the store and all other turns are as they would be if it had
made none of its steps. -/
theorem follow_without (schedule : List Nat) (h : b.SameBut p b')
    (hq : ∀ table t, b.turns[p]? = some (table, t) → Quiet table)
    (hr : (b.follow schedule).told? p = none) :
    (b.follow schedule).SameBut p (b'.follow (schedule.filter fun q => q ≠ p)) := by
  induction schedule generalizing b b' with
  | nil => exact h
  | cons q rest ih =>
    have hnone : (b.advance q).told? p = none := by
      rw [Option.eq_none_iff_forall_ne_some]
      intro r hs
      have hlater := told?_follow rest hs
      rw [← follow_cons, hr] at hlater
      cases hlater
    have hquiet (table) (t) (hb : (b.advance q).turns[p]? = some (table, t)) : Quiet table := by
      have htable := tables_advance b q p
      rw [hb, Option.map_some] at htable
      obtain ⟨⟨_, u⟩, hu, rfl⟩ := Option.map_eq_some_iff.1 htable.symm
      exact hq _ u hu
    by_cases hqp : q = p
    · subst hqp
      rw [follow_cons, List.filter_cons_of_neg (by simp)]
      exact ih (sameBut_advance_self h hq hnone) hquiet hr
    · rw [follow_cons, List.filter_cons_of_pos (by simpa using hqp), follow_cons]
      exact ih (sameBut_advance h hqp) hquiet hr

end Board

end Turn

end Adventure
