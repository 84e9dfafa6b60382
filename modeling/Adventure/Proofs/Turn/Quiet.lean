import Adventure.Proofs.Turn.Course
/-!
# Quiet turns

The narrator of a quiet turn completes nothing on the side, so such a turn does nothing to the store
until its last step, the commit. Where its store changes once in between, it has read its scene
partly from the old store and partly from the new one, and commits to the new one what it has
settled for that scene (`settles_of_resolved`).
-/

namespace Adventure.Turn

variable {σ : Type}

/-- A narrator who completes nothing on the side. -/
def Quiet (table : Table σ) : Prop := ∀ request, (table.narrator request).completed = []

/-- A narrator who gives one answer to everything, and completes nothing on the side. -/
def Steady (table : Table σ) : Prop :=
  ∃ telling, table.narrator = (fun _ => telling) ∧ telling.completed = []

theorem Steady.quiet {table : Table σ} (h : Steady table) : Quiet table := by
  obtain ⟨telling, hn, hc⟩ := h
  intro request
  rw [hn, hc]

theorem Quiet.aside {table : Table σ} (h : Quiet table) (request : Option NarrativeRequest)
    (s : Store) : aside table request s = s := by
  cases request with
  | none => rfl
  | some q => rw [Turn.aside, completions, h q, Store.completeAll_nil]

/-! ## The first steps of a turn -/

variable [DiceSource σ]

theorem advanceBy_succ (table : Table σ) (n : Nat) (t : Turn) (s : Store) :
    advanceBy table (n + 1) t s =
      (advanceBy table n t s).1.advance table (advanceBy table n t s).2 := by
  induction n generalizing t s with
  | zero => rfl
  | succ n ih => exact ih (t.advance table s).1 (t.advance table s).2

/-- A turn that has made `n` steps at most, and has not resolved. -/
def Young (n : Nat) (t : Turn) : Prop :=
  t.stage.rank ≤ n ∨ ∃ o, t.stage = .closed o ∧ ∀ r, o ≠ .done r

/-- Before its last step a turn does not resolve. -/
theorem young_advance {table : Table σ} {n : Nat} (hn : n ≤ 3) {t : Turn} (h : Young n t)
    (s : Store) : Young (n + 1) (t.advance table s).1 := by
  have hm := advance_move table t s
  generalize (t.advance table s).1 = t', (t.advance table s).2 = s' at hm
  cases hm with
  | located _ | cast _ | framed | settled _ =>
    rcases h with h | ⟨o, ho, _⟩
    · exact .inl (Nat.succ_le_succ h)
    · cases ho
  | unlocated _ | uncast _ => exact .inr ⟨_, rfl, by simp⟩
  | unsettled ho => exact .inr ⟨_, rfl, ho⟩
  | refused _ => exact .inr ⟨_, rfl, by simp⟩
  | committed _ | rested =>
    rcases h with h | h
    · simp only [Stage.rank] at h
      omega
    · obtain ⟨o, ho, hd⟩ := h
      cases ho <;> exact .inr ⟨_, rfl, hd⟩

/-- Before its last step a quiet turn leaves the store alone. -/
theorem store_advance_of_young {table : Table σ} (hq : Quiet table) {n : Nat} (hn : n ≤ 3)
    {t : Turn} (h : Young n t) (s : Store) : (t.advance table s).2 = s := by
  have hm := advance_move table t s
  generalize (t.advance table s).1 = t', (t.advance table s).2 = s' at hm
  cases hm with
  | located _ | unlocated _ | cast _ | uncast _ | framed | refused _ | rested => rfl
  | settled _ | unsettled _ => exact hq.aside _ s
  | committed _ =>
    rcases h with h | ⟨o, ho, _⟩
    · simp only [Stage.rank] at h
      omega
    · cases ho

theorem result?_of_young {t : Turn} (h : Young 4 t) : result? t = none := by
  rw [Option.eq_none_iff_forall_ne_some]
  intro r hr
  have hs := outcome?_eq_some.1 (result?_eq_some.1 hr)
  rcases h with h | ⟨o, ho, hd⟩
  · rw [rank_of_closed hs] at h
    omega
  · rw [hs] at ho
    exact hd r (Stage.closed.inj ho).symm

theorem young_advanceBy {table : Table σ} (hq : Quiet table) (v : Value) (s : Store) {n : Nat}
    (hn : n ≤ 4) :
    Young n (advanceBy table n (start v) s).1 ∧ (advanceBy table n (start v) s).2 = s := by
  induction n with
  | zero => exact ⟨.inl (Nat.le_refl 0), rfl⟩
  | succ n ih =>
    obtain ⟨hy, hs⟩ := ih (by omega)
    rw [advanceBy_succ, hs]
    exact ⟨young_advance (by omega) hy s, store_advance_of_young hq (by omega) hy s⟩

/-- A quiet turn that runs alone commits to the store it began with. -/
theorem run_eq_of_quiet {table : Table σ} (hq : Quiet table) (v : Value) (s : Store) :
    run table v s = (advanceBy table 4 (start v) s).1.advance table s := by
  have h := advanceBy_succ table 4 (start v) s
  rwa [(young_advanceBy hq v s (Nat.le_refl 4)).2] at h

/-- What a quiet turn has read in its first steps, it has read from the store it found. -/
theorem came_advanceBy {found : Nat → Store → Prop} {table : Table σ} (hq : Quiet table) (v : Value)
    {s : Store} {n : Nat} (hn : n ≤ 4) (hs : ∀ k < n, found k s) :
    Came found table v (advanceBy table n (start v) s).1 := by
  induction n with
  | zero => exact came_start found table v
  | succ n ih =>
    obtain ⟨hy, hstore⟩ := young_advanceBy hq v s (n := n) (by omega)
    rw [advanceBy_succ, hstore]
    refine came_advance (ih (by omega) fun k hk => hs k (by omega)) fun hr => ?_
    rcases hy with hy | ⟨o, ho, _⟩
    · exact hs _ (by omega)
    · rw [rank_of_closed ho] at hr
      omega

theorem advance_of_closed {table : Table σ} {t : Turn} {o : Outcome TurnResult}
    (h : t.stage = .closed o) (s : Store) : t.advance table s = (t, s) := by
  rw [advance, h]

theorem advanceBy_of_closed {table : Table σ} {t : Turn} {o : Outcome TurnResult}
    (h : t.stage = .closed o) (n : Nat) (s : Store) : advanceBy table n t s = (t, s) := by
  induction n with
  | zero => rfl
  | succ n ih => rw [advanceBy_succ, ih, advance_of_closed h]

/-- A turn that is not closed can take its course from any store. -/
theorem course_of_came {found : Nat → Store → Prop} {table : Table σ} {v : Value} {t : Turn}
    (hq : Quiet table) (h : Came found table v t) (ht : t.stage.rank ≤ 4) (s : Store) :
    Course found table v s t s := by
  obtain ⟨stage, request, events⟩ := t
  cases stage with
  | opened _ | located _ _ | cast _ _ _ | framed _ => exact ⟨h, rfl⟩
  | settled c r => exact ⟨h, (hq.aside request s).symm⟩
  | closed o =>
    simp only [Stage.rank] at ht
    omega

/-- The store that a turn finds at its step `k`, when `s` becomes `s₁` after its first `n` steps. -/
def seen (s s₁ : Store) (n k : Nat) : Store := if k < n then s else s₁

/-- A quiet turn that makes its first `n` steps on one store and resolves on another one commits
what it has settled for a scene that it read partly here and partly there. -/
theorem settles_of_resolved {table : Table σ} (hq : Quiet table) {v : Value} {s s₁ : Store}
    {n m : Nat} (hn : n ≤ 4) {r : TurnResult}
    (hr : result? (advanceBy table m (advanceBy table n (start v) s).1 s₁).1 = some r) :
    ∃ scene request c, scene.From (fun k u => u = seen s s₁ n k) v ∧
      Settles table scene request c r ∧
      s₁.commit c table.now = .ok (advanceBy table m (advanceBy table n (start v) s).1 s₁).2 := by
  obtain ⟨hy, -⟩ := young_advanceBy hq v s hn
  have hcame : Came (fun k u => u = seen s s₁ n k) table v (advanceBy table n (start v) s).1 :=
    came_advanceBy hq v hn fun k hk => (if_pos hk).symm
  have hrank : min 5 (0 + n) ≤ (advanceBy table n (start v) s).1.stage.rank :=
    le_rank_advanceBy table n (start v) s
  generalize (advanceBy table n (start v) s).1 = t at *
  have hstage := outcome?_eq_some.1 (result?_eq_some.1 hr)
  have ht : t.stage.rank ≤ 4 := by
    rcases hy with hy | ⟨o, ho, hd⟩
    · omega
    · rw [advanceBy_of_closed ho, ho] at hstage
      exact absurd (Stage.closed.inj hstage) (hd r)
  have hcourse := course_advanceBy m (course_of_came hq hcame ht s₁) fun k hk hk4 =>
    (if_neg (by omega)).symm
  unfold Course at hcourse
  rw [hstage] at hcourse
  obtain ⟨c, ⟨scene, request, hfrom, hsettles, -⟩, hcommit⟩ := hcourse
  rw [hq.aside] at hcommit
  exact ⟨scene, request, c, hfrom, hsettles, hcommit⟩

/-- A steady narrator does not mind in what state the session is: only the place and the chronicle
that are committed depend on it. -/
theorem Settles.of_session {table : Table σ} (hst : Steady table) {scene : Scene}
    {q : NarrativeRequest} {c : TurnCommit} {r : TurnResult} (h : Settles table scene q c r)
    {session : Session} (hid : session.id = scene.session.id) :
    ∃ q', Settles table { scene with session := session } q'
      { c with
        currentLocation := r.changes.location.getD session.currentLocation
        chronicle := session.chronicle.apply r.changes } r := by
  obtain ⟨telling, hn, -⟩ := hst
  obtain ⟨checked, told, judged, lived⟩ := h
  rename_i resolution narration reconciled after _ _
  have told' : (table.narrator (requestOf { scene with session := session } resolution)).answer =
      .ok narration := by
    rw [hn] at told ⊢
    exact told
  have h' : Settles table { scene with session := session }
      (requestOf { scene with session := session } resolution)
      (commitOf { scene with session := session } reconciled after)
      (resultOf narration reconciled after) := .intro checked told' judged lived
  rw [commitOf, hid] at h'
  exact ⟨_, h'⟩

/-- A quiet turn that can read a scene and settle it on a commit that goes through resolves. -/
theorem run_of_settles_quiet {table : Table σ} (hq : Quiet table) {v : Value} {s s' : Store}
    {scene : Scene} {q : NarrativeRequest} {c : TurnCommit} {r : TurnResult}
    (hf : scene.From (fun _ u => u = s) v) (h : Settles table scene q c r)
    (hc : s.commit c table.now = .ok s') :
    outcome? (run table v s).1 = some (.done r) ∧ s' = (run table v s).2 := by
  obtain ⟨e, hrun⟩ := run_of_settles hf h (by rwa [hq.aside])
  rw [hrun]
  exact ⟨rfl, rfl⟩

end Adventure.Turn
