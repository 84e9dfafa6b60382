import Adventure.Proofs.Turn.Interleaving
import Adventure.Proofs.Turn.Quiet
import Mathlib.Data.List.Induction
/-!
# Two turns of one session

A turn commits what it worked out from the session and the character that it read, and the commit is
not guarded by what has happened to them since. So when two turns of one session overlap, the later
commit can undo the earlier one. What is left is decided by how much the second turn has read when
the first one commits (`overlap`): nothing is lost if it has read nothing, the place and the
chronicle are lost if it has read the session, and the whole first turn is lost if it has read the
character too.
-/

namespace Adventure.Turn

/-! ## Along a schedule -/

namespace Board

variable {σ : Type} [DiceSource σ] {turns : List (Table σ × Value)} {s : Store} {b : Board σ}

/-- A closed turn makes no step any more. -/
theorem advance_of_closed {p : Nat} {table : Table σ} {t : Turn} {o : Outcome TurnResult}
    (h : b.turns[p]? = some (table, t)) (ho : t.stage = .closed o) : b.advance p = b := by
  obtain ⟨hlt, hp⟩ := List.getElem?_eq_some_iff.1 h
  rw [advance_of_some h, Turn.advance_of_closed ho, ← hp, List.set_getElem_self]

/-- After `schedule`, nothing has happened to the store, and each turn is where it would be without
the others. -/
structure Apart (turns : List (Table σ × Value)) (s : Store) (schedule : List Nat) (b : Board σ) :
    Prop where
  store : b.store = s
  turns : ∀ p : Nat, b.turns[p]? = turns[p]?.map fun seat =>
    (seat.1, (advanceBy seat.1 (schedule.count p) (Turn.start seat.2) s).1)

/-- One more step of a quiet turn that has still to commit afterwards. -/
theorem apart_advance {before : List Nat} {p : Nat} (h : b.Apart turns s before)
    (hq : ∀ seat ∈ turns, Quiet seat.1)
    (hc : ∀ seat, turns[p]? = some seat → before.count p ≤ 3) :
    (b.advance p).Apart turns s (before ++ [p]) := by
  have hother {q} (hqp : q ≠ p) : (before ++ [p]).count q = before.count q := by
    simp [List.count_append, Ne.symm hqp]
  have htp := h.turns p
  cases hp : turns[p]? with
  | none =>
    rw [hp, Option.map_none] at htp
    rw [advance_of_none htp]
    refine ⟨h.store, fun q => ?_⟩
    by_cases hqp : q = p
    · rw [hqp, htp, hp, Option.map_none]
    · rw [h.turns, hother hqp]
  | some seat =>
    rw [hp, Option.map_some] at htp
    have hquiet := hq seat (List.mem_of_getElem? hp)
    have hthree := hc seat hp
    obtain ⟨hy, hstore⟩ := young_advanceBy hquiet seat.2 s (n := before.count p) (by omega)
    refine ⟨?_, fun q => ?_⟩
    · rw [store_advance htp, h.store]
      exact store_advance_of_young hquiet hthree hy s
    · by_cases hqp : q = p
      · have hcount : (before ++ [p]).count p = before.count p + 1 := by simp [List.count_append]
        rw [hqp, getElem?_advance_self htp, hp, Option.map_some, hcount, advanceBy_succ, hstore,
          h.store]
      · rw [getElem?_advance_of_ne hqp, h.turns, hother hqp]

/-- **Before the first commit** quiet turns leave the store alone, and each of them is where it
would be without the others. -/
theorem apart_follow (hq : ∀ seat ∈ turns, Quiet seat.1) (before : List Nat)
    (hc : ∀ p seat, turns[p]? = some seat → before.count p ≤ 4) :
    ((Board.start turns s).follow before).Apart turns s before := by
  induction before using List.reverseRecOn with
  | nil =>
    refine ⟨rfl, fun p => ?_⟩
    simp only [follow, List.foldl_nil, Board.start, List.getElem?_map]
    rfl
  | append_singleton before p ih =>
    rw [follow_concat]
    refine apart_advance (ih fun q seat hseat => ?_) hq fun seat hseat => ?_
    · have hle := hc q seat hseat
      rw [List.count_append] at hle
      omega
    · have hle := hc p seat hseat
      rw [List.count_append, List.count_singleton_self] at hle
      omega

/-- **After the first commit** of two, the other turn goes on alone. -/
theorem follow_after {q : Nat} {table : Table σ} {t : Turn} (hat : b.turns[q]? = some (table, t))
    (hrest : ∀ p seat, p ≠ q → b.turns[p]? = some seat → ∃ o, seat.2.stage = .closed o)
    (after : List Nat) :
    (b.follow after).store = (advanceBy table (after.count q) t b.store).2 ∧
      (b.follow after).turns[q]? = some (table, (advanceBy table (after.count q) t b.store).1) ∧
      ∀ p, p ≠ q → (b.follow after).turns[p]? = b.turns[p]? := by
  induction after generalizing b t with
  | nil => exact ⟨rfl, hat, fun _ _ => rfl⟩
  | cons p rest ih =>
    rw [follow_cons]
    by_cases hpq : p = q
    · subst hpq
      have hkeep (r) (hr : r ≠ p) : (b.advance p).turns[r]? = b.turns[r]? :=
        getElem?_advance_of_ne hr
      obtain ⟨hs, ht, ho⟩ := ih (getElem?_advance_self hat) fun r seat hr hseat =>
        hrest r seat hr (hkeep r hr ▸ hseat)
      rw [List.count_cons_self, hs, ht, store_advance hat]
      exact ⟨rfl, rfl, fun r hr => (ho r hr).trans (hkeep r hr)⟩
    · have hsame : b.advance p = b := by
        cases hp : b.turns[p]? with
        | none => exact advance_of_none hp
        | some seat =>
          obtain ⟨o, ho⟩ := hrest p seat hpq hp
          exact advance_of_closed hp ho
      rw [hsame, List.count_cons_of_ne hpq]
      exact ih hat hrest

/-- A turn resolves in its fifth step at the earliest. -/
theorem young_follow (schedule : List Nat) {p : Nat} {table : Table σ} {t : Turn}
    (hat : ((Board.start turns s).follow schedule).turns[p]? = some (table, t))
    (hc : schedule.count p ≤ 4) : Young (schedule.count p) t := by
  induction schedule using List.reverseRecOn generalizing table t with
  | nil =>
    simp only [follow, List.foldl_nil, Board.start, List.getElem?_map] at hat
    obtain ⟨seat, -, he⟩ := Option.map_eq_some_iff.1 hat
    cases he
    exact .inl (Nat.le_refl 0)
  | append_singleton before r ih =>
    rw [follow_concat] at hat
    generalize (Board.start turns s).follow before = b at hat ih
    rw [List.count_append] at hc ⊢
    by_cases hrp : r = p
    · subst hrp
      rw [List.count_singleton_self] at hc ⊢
      cases hr : b.turns[r]? with
      | none =>
        rw [advance_of_none hr, hr] at hat
        cases hat
      | some seat =>
        rw [getElem?_advance_self hr] at hat
        cases hat
        exact young_advance (by omega) (ih hr (by omega)) b.store
    · rw [getElem?_advance_of_ne (Ne.symm hrp)] at hat
      simpa [hrp] using ih hat (by omega)

theorem five_le_count {schedule : List Nat} {p : Nat} {r : TurnResult}
    (h : ((Board.start turns s).follow schedule).told? p = some r) : 5 ≤ schedule.count p := by
  obtain ⟨⟨table, t⟩, hat, hr⟩ := Option.bind_eq_some_iff.1 h
  by_contra hc
  have hy := young_follow schedule hat (by omega)
  have hnone := result?_of_young (t := t) (hy.imp_left fun hle => by omega)
  rw [hnone] at hr
  cases hr

/-! ## Who commits first -/

/-- In the schedule, `p` makes its last step when `q` has made `n` steps, and not yet its last. -/
def CommitsFirst (schedule : List Nat) (p q n : Nat) : Prop :=
  ∃ before after, schedule = before ++ p :: after ∧ before.count p = 4 ∧ before.count q = n ∧ n ≤ 4

/-- A place that occurs more than `m` times has an occurrence with `m` others before it. -/
theorem exists_cut {p : Nat} (l : List Nat) {m : Nat} (h : m < l.count p) :
    ∃ before after, l = before ++ p :: after ∧ before.count p = m := by
  induction l generalizing m with
  | nil => simp at h
  | cons r rest ih =>
    by_cases hrp : r = p
    · subst hrp
      rw [List.count_cons_self] at h
      cases m with
      | zero => exact ⟨[], rest, rfl, rfl⟩
      | succ m =>
        obtain ⟨before, after, rfl, hb⟩ := ih (Nat.lt_of_succ_lt_succ h)
        exact ⟨r :: before, after, rfl, by rw [List.count_cons_self, hb]⟩
    · rw [List.count_cons_of_ne hrp] at h
      obtain ⟨before, after, rfl, hb⟩ := ih h
      exact ⟨r :: before, after, rfl, by rwa [List.count_cons_of_ne hrp]⟩

/-- When a turn makes its last step, it is the first of two to do so or the second. -/
theorem commitsFirst_or {schedule : List Nat} {p : Nat} (q : Nat) (hp : 5 ≤ schedule.count p) :
    (∃ n, CommitsFirst schedule p q n) ∨ ∃ n, CommitsFirst schedule q p n := by
  obtain ⟨before, after, he, hc⟩ := exists_cut schedule hp
  by_cases hn : before.count q ≤ 4
  · exact .inl ⟨_, before, after, he, hc, rfl, hn⟩
  · -- The other turn was through before.
    obtain ⟨earlier, between, rfl, hc'⟩ := exists_cut before (Nat.lt_of_not_le hn)
    rw [List.append_assoc, List.cons_append] at he
    rw [List.count_append] at hc
    exact .inr ⟨_, earlier, _, he, hc', rfl, by omega⟩

/-! ## What is left -/

section
variable {A B : Table σ} {v w : Value} {p q n : Nat} {schedule : List Nat} {rA rB : TurnResult}

omit [DiceSource σ] in
theorem place_of_two (hp : turns[p]? = some (A, v)) (hq : turns[q]? = some (B, w)) (hpq : p ≠ q)
    (hlen : turns.length = 2) {r : Nat} {seat : Table σ × Value} (h : turns[r]? = some seat) :
    (r = p ∧ seat = (A, v)) ∨ (r = q ∧ seat = (B, w)) := by
  have hplace : r = p ∨ r = q := by
    have hr := (List.getElem?_eq_some_iff.1 h).1
    have hp := (List.getElem?_eq_some_iff.1 hp).1
    have hq := (List.getElem?_eq_some_iff.1 hq).1
    omega
  rcases hplace with rfl | rfl
  · exact .inl ⟨rfl, Option.some.inj (h.symm.trans hp)⟩
  · exact .inr ⟨rfl, Option.some.inj (h.symm.trans hq)⟩

/-- A schedule of two turns, cut at the first commit: the turn that commits does what it does alone,
and the other one goes on alone from the new store. -/
theorem follow_two (hp : turns[p]? = some (A, v)) (hq : turns[q]? = some (B, w)) (hpq : p ≠ q)
    (hlen : turns.length = 2) (hA : Quiet A) (hB : Quiet B) {before : List Nat}
    (hcp : before.count p = 4) (hcq : before.count q = n) (hn : n ≤ 4) (after : List Nat) :
    let b := (Board.start turns s).follow (before ++ p :: after)
    let there := advanceBy B (after.count q) (advanceBy B n (Turn.start w) s).1 (run A v s).2
    b.turns[p]? = some (A, (run A v s).1) ∧ b.turns[q]? = some (B, there.1) ∧
      b.store = there.2 := by
  have hplaces {r seat} (h : turns[r]? = some seat) := place_of_two hp hq hpq hlen h
  have hquiet (seat) (h : seat ∈ turns) : Quiet seat.1 := by
    obtain ⟨r, hr⟩ := List.mem_iff_getElem?.1 h
    rcases hplaces hr with ⟨-, rfl⟩ | ⟨-, rfl⟩
    · exact hA
    · exact hB
  -- Up to the first commit.
  obtain ⟨hs₀, ht₀⟩ := apart_follow (s := s) hquiet before fun r seat hr => by
    rcases hplaces hr with ⟨rfl, -⟩ | ⟨rfl, -⟩
    · omega
    · omega
  rw [follow_append, follow_cons]
  generalize (Board.start turns s).follow before = b₀ at *
  have htp : b₀.turns[p]? = some (A, (advanceBy A 4 (Turn.start v) s).1) := by
    rw [ht₀, hp, Option.map_some, hcp]
  have htq : b₀.turns[q]? = some (B, (advanceBy B n (Turn.start w) s).1) := by
    rw [ht₀, hq, Option.map_some, hcq]
  -- The first commit, after which the first turn is closed.
  have hp₁ : (b₀.advance p).turns[p]? = some (A, (run A v s).1) := by
    rw [getElem?_advance_self htp, hs₀, ← run_eq_of_quiet hA]
  have hstore : (b₀.advance p).store = (run A v s).2 := by
    rw [store_advance htp, hs₀, ← run_eq_of_quiet hA]
  have hother (r) (hr : r ≠ p) : (b₀.advance p).turns[r]? = b₀.turns[r]? :=
    getElem?_advance_of_ne hr
  have hclosed (r) (seat) (hr : r ≠ q) (hseat : (b₀.advance p).turns[r]? = some seat) :
      ∃ o, seat.2.stage = .closed o := by
    by_cases hrp : r = p
    · subst hrp
      cases hseat.symm.trans hp₁
      obtain ⟨o, ho⟩ := run_closed A v s
      exact ⟨o, outcome?_eq_some.1 ho⟩
    · rw [hother r hrp, ht₀] at hseat
      obtain ⟨first, hf, -⟩ := Option.map_eq_some_iff.1 hseat
      rcases hplaces hf with ⟨h, -⟩ | ⟨h, -⟩
      · exact absurd h hrp
      · exact absurd h hr
  obtain ⟨hs, ht, hrest⟩ := follow_after ((hother q (Ne.symm hpq)).trans htq) hclosed after
  rw [hstore] at hs ht
  exact ⟨(hrest p hpq).trans hp₁, ht, hs⟩

/-- **The two commits.** The turn that commits first does what it does alone. The other turn commits
what it has settled for a scene that it read partly before and partly after. -/
theorem settles_of_overlap (hp : turns[p]? = some (A, v)) (hq : turns[q]? = some (B, w))
    (hpq : p ≠ q) (hlen : turns.length = 2) (hA : Quiet A) (hB : Quiet B)
    (hfirst : CommitsFirst schedule p q n)
    (hrA : ((Board.start turns s).follow schedule).told? p = some rA)
    (hrB : ((Board.start turns s).follow schedule).told? q = some rB) :
    result? (run A v s).1 = some rA ∧ ∃ scene request c,
      scene.From (fun k u => u = seen s (run A v s).2 n k) w ∧ Settles B scene request c rB ∧
      (run A v s).2.commit c B.now = .ok ((Board.start turns s).follow schedule).store := by
  obtain ⟨before, after, rfl, hcp, hcq, hn⟩ := hfirst
  obtain ⟨htp, htq, hs⟩ := follow_two (s := s) hp hq hpq hlen hA hB hcp hcq hn after
  rw [told?, htp, Option.bind_some] at hrA
  rw [told?, htq, Option.bind_some] at hrB
  rw [hs]
  exact ⟨hrA, settles_of_resolved hB hn hrB⟩

/-- What is left after two turns of the session `id`, `A` with the input `v` and `B` with the input
`w`, when the second one had made `n` steps at the commit of the first one. -/
structure Leaves (s : Store) (id : String) (A : Table σ) (v : Value) (B : Table σ) (w : Value)
    (n : Nat) (rA rB : TurnResult) (s' : Store) : Prop where
  /-- The first turn does what it does alone. -/
  first : outcome? (run A v s).1 = some (.done rA)
  /-- The second turn has read nothing: it does what it does after the first one. -/
  fresh : n = 0 → outcome? (run B w (run A v s).2).1 = some (.done rB) ∧
    s' = (run B w (run A v s).2).2
  /-- It has read the session: it commits what it commits after the first one, but for the place and
  the chronicle, which go on from the session before both turns. -/
  halfStale : n = 1 → ∃ old c, s.session? id = some old ∧
    outcome? (run B w (run A v s).2).1 = some (.done rB) ∧
    (run A v s).2.commit c B.now = .ok (run B w (run A v s).2).2 ∧
    (run A v s).2.commit { c with
      currentLocation := rB.changes.location.getD old.currentLocation
      chronicle := old.chronicle.apply rB.changes } B.now = .ok s'
  /-- It has read the session and the character: it does what it does alone, and nothing is left of
  the first turn. -/
  stale : 2 ≤ n → outcome? (run B w s).1 = some (.done rB) ∧ s' = (run B w s).2

end

/-! ## The second commit -/

section
variable {A B : Table σ} {v w : Value} {id : String} {rA rB : TurnResult}

/-- The commit of a quiet turn that resolves alone. -/
theorem first_commit (hA : Quiet A) (hv : Names v id)
    (h : result? (run A v s).1 = some rA) : ∃ old a, s.session? id = some old ∧
      (run A v s).2 = s.write a A.now ∧ s.isOpen id = true ∧ a.sessionId = id ∧
      a.character.id = old.characterId := by
  obtain ⟨a, ⟨scene, q, hfrom, hsettles, -⟩, hcommit⟩ := run_done (result?_eq_some.1 h)
  obtain ⟨hlocate, hfind, -⟩ := Scene.from_iff.1 hfrom
  obtain ⟨hinput, hsession, -⟩ := locate_eq_ok.1 hlocate
  obtain ⟨hid, hcid⟩ := hsettles.addressees
  rw [hA.aside] at hcommit
  obtain ⟨hopen, hwrite⟩ := Store.commit_eq_ok.1 hcommit
  have hname := hv.unique ⟨scene.input, hinput, rfl⟩
  rw [← hname] at hsession
  rw [Store.session?_id hsession] at hid
  rw [hid] at hopen
  rw [Store.character?_id (findCharacter_eq_ok.1 hfind)] at hcid
  exact ⟨scene.session, a, hsession, hwrite, hopen, hid, hcid⟩

/-- A scene of which the second turn had read the session and the character is the one that it would
read without the first turn: commits do not touch scenarios. -/
theorem from_of_stale {n : Nat} {a : TurnCommit} {now : Instant} {scene : Scene} (hn : 2 ≤ n)
    (h : scene.From (fun k u => u = seen s (s.write a now) n k) w) :
    scene.From (fun _ u => u = s) w := by
  obtain ⟨hl, hf, hs⟩ := Scene.from_iff.1 h
  rw [seen, if_pos (by omega)] at hl hf
  refine Scene.from_iff.2 ⟨hl, hf, ?_⟩
  rw [hs]
  unfold seen
  split
  · rfl
  · exact Store.scenario?_write s a now scene.session.scenarioId

/-- A scene of which the second turn had read the session only, with the session as the first turn
left it, is the one that the second turn reads after the first one. -/
theorem from_of_halfStale {a : TurnCommit} {now : Instant} (ha : a.ending = none) {scene : Scene}
    (h : scene.From (fun k u => u = seen s (s.write a now) 1 k) w) :
    ({ scene with session := scene.session.after a } : Scene).From
      (fun _ u => u = s.write a now) w := by
  obtain ⟨hl, hf, hs⟩ := Scene.from_iff.1 h
  obtain ⟨hinput, hsession, hactive⟩ := locate_eq_ok.1 hl
  obtain ⟨-, hcharacter, hscenario⟩ := scene.session.after_of a
  refine Scene.from_iff.2 ⟨locate_eq_ok.2 ⟨hinput, ?_, ?_⟩, ?_, ?_⟩
  · have hread := Store.session?_write s a now scene.input.sessionId
    rwa [show s.session? scene.input.sessionId = some scene.session from hsession] at hread
  · rwa [Session.after_status ha]
  · dsimp only
    rw [findCharacter, hcharacter]
    exact hf
  · dsimp only
    rw [hscenario]
    exact hs

/-- A turn that had read the session and the character commits what it commits alone. -/
theorem alone_of_stale {n : Nat} {a c : TurnCommit} {now : Instant} {scene : Scene}
    {request : NarrativeRequest} (hB : Quiet B) (hn : 2 ≤ n)
    (hfrom : scene.From (fun k u => u = seen s (s.write a now) n k) w)
    (hsettles : Settles B scene request c rB) (hopen : s.isOpen c.sessionId = true) :
    outcome? (run B w s).1 = some (.done rB) ∧ s.write c B.now = (run B w s).2 :=
  run_of_settles_quiet hB (from_of_stale hn hfrom) hsettles (Store.commit_eq_ok.2 ⟨hopen, rfl⟩)

/-- A turn that had read the session only would commit the same after the first turn, but for the
place and the chronicle. -/
theorem serial_of_halfStale {a c : TurnCommit} {now : Instant} {scene : Scene}
    {request : NarrativeRequest} (hB : Steady B) (hend : a.ending = none)
    (hfrom : scene.From (fun k u => u = seen s (s.write a now) 1 k) w)
    (hsettles : Settles B scene request c rB)
    (hopen : (s.write a now).isOpen c.sessionId = true) :
    outcome? (run B w (s.write a now)).1 = some (.done rB) ∧
      (s.write a now).write { c with
        currentLocation := rB.changes.location.getD (scene.session.after a).currentLocation
        chronicle := (scene.session.after a).chronicle.apply rB.changes } B.now =
          (run B w (s.write a now)).2 := by
  obtain ⟨q, hafter⟩ := hsettles.of_session hB (scene.session.after_of a).1
  exact run_of_settles_quiet hB.quiet (from_of_halfStale hend hfrom) hafter
    (Store.commit_eq_ok.2 ⟨hopen, rfl⟩)

/-- What two overlapping turns leave, told from the two commits. -/
theorem leaves_of_overlap {turns : List (Table σ × Value)} {p q n : Nat} {schedule : List Nat}
    (hp : turns[p]? = some (A, v)) (hq : turns[q]? = some (B, w)) (hpq : p ≠ q)
    (hlen : turns.length = 2) (hA : Steady A) (hB : Steady B) (hv : Names v id) (hw : Names w id)
    (hfirst : CommitsFirst schedule p q n)
    (hrA : ((Board.start turns s).follow schedule).told? p = some rA)
    (hrB : ((Board.start turns s).follow schedule).told? q = some rB) :
    Leaves s id A v B w n rA rB ((Board.start turns s).follow schedule).store := by
  obtain ⟨hdone, scene, request, c, hfrom, hsettles, hcommit⟩ :=
    settles_of_overlap hp hq hpq hlen hA.quiet hB.quiet hfirst hrA hrB
  generalize ((Board.start turns s).follow schedule).store = s' at hcommit ⊢
  obtain ⟨old, a, hold, hwrote, hopen, hida, hca⟩ := first_commit hA.quiet hv hdone
  rw [hwrote] at hfrom hcommit
  -- The second turn is one of the same session, which the first one must have left open.
  obtain ⟨hlocate, hfind, -⟩ := Scene.from_iff.1 hfrom
  obtain ⟨hinput, hsession, -⟩ := locate_eq_ok.1 hlocate
  have hname : scene.input.sessionId = id := Names.unique ⟨scene.input, hinput, rfl⟩ hw
  rw [hname] at hsession
  have hidc : c.sessionId = id := hsettles.addressees.1.trans (Store.session?_id hsession)
  obtain ⟨hopen', hwrote'⟩ := Store.commit_eq_ok.1 hcommit
  have hend : a.ending = none := by
    by_contra h
    have hshut := Store.isOpen_write_of_ending s a A.now (Option.isSome_iff_ne_none.2 h)
    rw [hida, ← hidc, hopen'] at hshut
    cases hshut
  refine ⟨result?_eq_some.1 hdone, ?_, ?_, fun hn => ?_⟩
  · rintro rfl
    have hfresh : scene.From (fun _ u => u = s.write a A.now) w := by simpa [seen] using hfrom
    rw [hwrote]
    exact run_of_settles_quiet hB.quiet hfresh hsettles hcommit
  · rintro rfl
    have hserial := serial_of_halfStale hB hend hfrom hsettles hopen'
    obtain ⟨hplace, hchronicle⟩ := hsettles.place_eq
    rw [hwrote]
    refine ⟨scene.session, { c with
        currentLocation := rB.changes.location.getD (scene.session.after a).currentLocation
        chronicle := (scene.session.after a).chronicle.apply rB.changes },
      hsession, hserial.1, Store.commit_eq_ok.2 ⟨hopen', hserial.2.symm⟩, ?_⟩
    dsimp only
    rw [← hplace, ← hchronicle]
    exact hcommit
  · have hsame : scene.session = old := by
      rw [seen, if_pos (by omega), hold] at hsession
      exact (Option.some.inj hsession).symm
    have hcb : c.character.id = old.characterId := by
      rw [hsettles.addressees.2, Store.character?_id (findCharacter_eq_ok.1 hfind), hsame]
    have halone := alone_of_stale hB.quiet hn hfrom hsettles (hidc ▸ hopen)
    refine ⟨halone.1, ?_⟩
    rw [hwrote', ← halone.2]
    exact Store.write_write A.now B.now (hida.trans hidc.symm) (hca.trans hcb.symm) hend

/-- **What two overlapping turns leave.** Two turns of one session, with steady narrators, share a
store and make their steps in any order, and both resolve. Then one of them was the first to commit,
and what is left depends on how many steps the other one had made by then: see `Leaves`. -/
theorem overlap {a b : Table σ × Value} (ha : Steady a.1) (hb : Steady b.1) (hna : Names a.2 id)
    (hnb : Names b.2 id) (s : Store) (schedule : List Nat)
    (hrA : ((Board.start [a, b] s).follow schedule).told? 0 = some rA)
    (hrB : ((Board.start [a, b] s).follow schedule).told? 1 = some rB) :
    (∃ n, CommitsFirst schedule 0 1 n ∧
      Leaves s id a.1 a.2 b.1 b.2 n rA rB ((Board.start [a, b] s).follow schedule).store) ∨
    ∃ n, CommitsFirst schedule 1 0 n ∧
      Leaves s id b.1 b.2 a.1 a.2 n rB rA ((Board.start [a, b] s).follow schedule).store := by
  rcases commitsFirst_or 1 (five_le_count hrA) with
    ⟨n, hf⟩ | ⟨n, hf⟩
  · exact .inl ⟨n, hf,
      leaves_of_overlap rfl rfl Nat.zero_ne_one rfl ha hb hna hnb hf hrA hrB⟩
  · exact .inr ⟨n, hf,
      leaves_of_overlap rfl rfl Nat.one_ne_zero rfl hb ha hnb hna hf hrB hrA⟩

end

/-- One turn finds a sword in the vault, the other one is hurt. When both have read before the first
one commits, the sword, the experience and the way to the vault are lost. -/
theorem overlap_loses_a_turn :
    let find := SmallGame.table (SmallGame.narrator
      { Changes.nothing with
        experienceGained := 20, itemsGained := ["sword"], location := some "vault" } false [])
    let hurt := SmallGame.table
      (SmallGame.narrator { Changes.nothing with hpChange := -5 } false [])
    let turns := [(find, SmallGame.input), (hurt, SmallGame.input)]
    let b := (Board.start turns SmallGame.store).follow (inStep 2)
    let serial := (run hurt SmallGame.input (run find SmallGame.input SmallGame.store).2).2
    CommitsFirst (inStep 2) 0 1 4 ∧ (b.told? 0).isSome = true ∧ (b.told? 1).isSome = true ∧
      b.store.character? "hero" ≠ serial.character? "hero" ∧
      b.store.session? SmallGame.id ≠ serial.session? SmallGame.id := by
  refine ⟨⟨[0, 1, 0, 1, 0, 1, 0, 1], [1], by decide, by decide, by decide, by decide⟩,
    ?_, ?_, ?_, ?_⟩
  · decide +kernel
  · decide +kernel
  · decide +kernel
  · decide +kernel

/-- The same two turns at once: what is left is what the second one leaves alone. -/
theorem overlap_of_two_at_once :
    let find := SmallGame.table (SmallGame.narrator
      { Changes.nothing with
        experienceGained := 20, itemsGained := ["sword"], location := some "vault" } false [])
    let hurt := SmallGame.table
      (SmallGame.narrator { Changes.nothing with hpChange := -5 } false [])
    let turns := [(find, SmallGame.input), (hurt, SmallGame.input)]
    let b := (Board.start turns SmallGame.store).follow (inStep 2)
    ∃ rA rB, b.told? 0 = some rA ∧ b.told? 1 = some rB ∧
      ((∃ n, CommitsFirst (inStep 2) 0 1 n ∧
          Leaves SmallGame.store SmallGame.id find SmallGame.input hurt SmallGame.input n rA rB
            b.store) ∨
        ∃ n, CommitsFirst (inStep 2) 1 0 n ∧
          Leaves SmallGame.store SmallGame.id hurt SmallGame.input find SmallGame.input n rB rA
            b.store) := by
  intro find hurt turns b
  have hfind : (b.told? 0).isSome = true := by decide +kernel
  have hhurt : (b.told? 1).isSome = true := by decide +kernel
  obtain ⟨rA, hrA⟩ := Option.isSome_iff_exists.1 hfind
  obtain ⟨rB, hrB⟩ := Option.isSome_iff_exists.1 hhurt
  exact ⟨rA, rB, hrA, hrB, overlap ⟨_, rfl, rfl⟩ ⟨_, rfl, rfl⟩ SmallGame.names_input
    SmallGame.names_input SmallGame.store (inStep 2) hrA hrB⟩

end Board

end Adventure.Turn
