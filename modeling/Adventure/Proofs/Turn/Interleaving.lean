import Adventure.Proofs.Turn.Course
/-!
# Turns that overlap

Any number of turns share a store and make their steps in any order. Each of them commits what it
worked out from a session and a character that it read some time ago, and the only guard is that a
commit needs an open session. That is enough to keep death and completion safe: the invariant
`Sound` says of the store that whoever plays is alive, and of every turn on its way that it carries
a commit which fits the store (`Admits`), however stale it is; `Accounted` says who has completed
what.

The main result is `follow_safe`.
-/

namespace Adventure.Turn

/-- The session that an input is for. -/
def Names (v : Value) (id : String) : Prop :=
  ∃ input, TurnInput.ofValue? v = .ok input ∧ input.sessionId = id

theorem Names.unique {v : Value} {a b : String} (ha : Names v a) (hb : Names v b) : a = b := by
  obtain ⟨_, h, rfl⟩ := ha
  obtain ⟨_, h', rfl⟩ := hb
  cases h.symm.trans h'
  rfl

theorem SmallGame.names_input : Names SmallGame.input SmallGame.id := by
  refine ⟨⟨SmallGame.id, "open the door", none⟩, ?_, rfl⟩
  decide +kernel

/-! ## One step among others -/

section
variable {σ : Type}

/-- What the step of a turn, from `t` to `t'`, can do to a store `u`. -/
inductive Effect (table : Table σ) (v : Value) (t t' : Turn) (u : Store) : Store → Prop
  /-- The narrator completes sessions, perhaps none, and no result is reached. -/
  | completing (ids : List String) (named : ∀ id ∈ ids, id ∈ completions table t'.request)
      (old : ∀ r, result? t' = some r → result? t = some r) :
      Effect table v t t' u (u.completeAll ids)
  /-- The turn commits to its open session, and resolves. -/
  | committing (c : TurnCommit) (r : TurnResult) (resolved : result? t' = some r)
      (opened : u.isOpen c.sessionId = true) (fits : u.Admits c) (names : Names v c.sessionId)
      (terminated : r.isTerminated = c.character.isDepleted) :
      Effect table v t t' u (u.write c table.now)

namespace Effect

variable {table : Table σ} {v : Value} {t t' : Turn} {u u' : Store}

theorem roster (h : Effect table v t t' u u') : u'.roster = u.roster := by
  cases h with
  | completing ids _ _ => exact Store.roster_completeAll u ids
  | committing c _ _ _ _ _ _ => exact Store.roster_write u c table.now

theorem ready (h : Effect table v t t' u u') (hu : u.Ready) : u'.Ready := by
  cases h with
  | completing ids _ _ => exact Store.ready_completeAll hu ids
  | committing _ _ _ opened fits _ _ => exact Store.ready_write table.now hu fits opened

theorem keeps (h : Effect table v t t' u u') (hu : u.Ready) : u.Keeps u' := by
  cases h with
  | completing ids _ _ => exact Store.keeps_completeAll u ids
  | committing _ _ _ opened fits _ _ =>
    exact Store.keeps_write hu.tidy table.now opened fits.roster

end Effect

variable [DiceSource σ]

/-- What a turn may find at any of its steps: the roster of `s`, and hit points with a value. -/
def Found (s : Store) (_ : Nat) (u : Store) : Prop := u.roster = s.roster ∧ u.AllMeasured

/-- However stale it is, what a turn has settled on fits every store with the same roster. -/
theorem SettledFrom.admits {s u : Store} {table : Table σ} {v : Value} {t : Turn} {c : TurnCommit}
    {r : TurnResult} (h : SettledFrom (Found s) table v t c r) (hu : u.roster = s.roster) :
    u.Admits c ∧ Names v c.sessionId ∧ r.isTerminated = c.character.isDepleted := by
  obtain ⟨scene, q, ⟨⟨a, ha, hlocate⟩, ⟨b, hb, hfind⟩, -⟩, hw, -⟩ := h
  obtain ⟨hv, hsession, -⟩ := locate_eq_ok.1 hlocate
  have hcharacter := findCharacter_eq_ok.1 hfind
  obtain ⟨hid, hcid⟩ := hw.addressees
  refine ⟨⟨?_, ?_, ?_⟩, ?_, hw.isTerminated_eq⟩
  · rw [hid, hcid, Store.character?_id hcharacter, hu, ← ha.1]
    exact Store.mem_roster_of_session? hsession
  · exact hw.measured (hb.2.character? hcharacter)
  · rw [hw.ending_eq, hw.isTerminated_eq]
  · exact ⟨scene.input, hv, by rw [hid, Store.session?_id hsession]⟩

theorem advance_effect {s : Store} {table : Table σ} {v : Value} {t : Turn} {u : Store}
    (h : Came (Found s) table v t) (hu : u.roster = s.roster) :
    Effect table v t (t.advance table u).1 u (t.advance table u).2 := by
  have hm := advance_move table t u
  generalize (t.advance table u).1 = t', (t.advance table u).2 = u' at hm
  cases hm with
  | located _ | unlocated _ | cast _ | uncast _ | framed | refused _ =>
    exact .completing [] (by simp) fun r hr => by cases hr
  | settled _ => exact .completing _ (fun _ hid => hid) fun r hr => by cases hr
  | @unsettled _ _ _ o _ _ ho =>
    refine .completing _ (fun _ hid => hid) fun r hr => ?_
    exact absurd (Stage.closed.inj (outcome?_eq_some.1 (result?_eq_some.1 hr))) (ho r)
  | @committed c r _ _ _ hc =>
    obtain ⟨ho, rfl⟩ := Store.commit_eq_ok.1 hc
    obtain ⟨hfits, hnames, hdepleted⟩ := SettledFrom.admits h hu
    exact .committing c r rfl ho hfits hnames hdepleted
  | rested => exact .completing [] (by simp) fun r hr => hr

/-- Before the narration nothing has been asked. -/
def Unasked (t : Turn) : Prop := t.stage.rank ≤ 3 → t.request = none

theorem unasked_advance {table : Table σ} {t : Turn} (u : Store) :
    Unasked (t.advance table u).1 := by
  have hm := advance_move table t u
  generalize (t.advance table u).1 = t', (t.advance table u).2 = u' at hm
  intro h
  cases hm with
  | located _ | unlocated _ | cast _ | uncast _ | framed => rfl
  | settled _ | unsettled _ | committed _ | refused _ | rested => simp [Stage.rank] at h

/-- What a narrator was asked stays on record. -/
theorem completions_advance {table : Table σ} {t : Turn} (u : Store) (h : Unasked t) {id : String}
    (hid : id ∈ completions table t.request) :
    id ∈ completions table (t.advance table u).1.request := by
  have hm := advance_move table t u
  generalize (t.advance table u).1 = t', (t.advance table u).2 = u' at hm
  cases hm with
  | located _ | unlocated _ | cast _ | uncast _ | framed | settled _ | unsettled _ =>
    have hq := h (by simp [Stage.rank])
    dsimp only at hq
    subst hq
    cases hid
  | committed _ | refused _ | rested => exact hid

/-- A result stays. -/
theorem result?_advance {table : Table σ} {t : Turn} (u : Store) {r : TurnResult}
    (h : result? t = some r) : result? (t.advance table u).1 = some r := by
  have hs := outcome?_eq_some.1 (result?_eq_some.1 h)
  rw [advance, hs]
  exact h

end

/-! ## Boards -/

namespace Board

variable {σ : Type} {turns : List (Table σ × Value)} {s : Store} {b : Board σ}

/-- The turn in a place, among turns that began with `turns`: what it brings along, its input, and
how far it is. -/
def At (turns : List (Table σ × Value)) (b : Board σ) (p : Nat) (table : Table σ) (v : Value)
    (t : Turn) : Prop :=
  turns[p]? = some (table, v) ∧ b.turns[p]? = some (table, t)

/-- What the turn in a place has told the player, if it has resolved. -/
def told? (b : Board σ) (p : Nat) : Option TurnResult :=
  b.turns[p]?.bind fun seat => Turn.result? seat.2

/-- A turn for the session `id` in the place `p` that has resolved and ended the session. -/
def Ended (turns : List (Table σ × Value)) (b : Board σ) (p : Nat) (id : String) : Prop :=
  ∃ table v t r, b.At turns p table v t ∧ Names v id ∧ result? t = some r ∧ r.isTerminated = true

/-- The board still has the tables that it began with. -/
def Seated (turns : List (Table σ × Value)) (b : Board σ) : Prop :=
  ∀ p : Nat, b.turns[p]?.map Prod.fst = turns[p]?.map Prod.fst

theorem At.unique {p : Nat} {table table' : Table σ} {v v' : Value} {t t' : Turn}
    (h : b.At turns p table v t) (h' : b.At turns p table' v' t') :
    table = table' ∧ v = v' ∧ t = t' := by
  cases h.1.symm.trans h'.1
  cases h.2.symm.trans h'.2
  exact ⟨rfl, rfl, rfl⟩

/-- No turn has come further than its beginning. -/
theorem at_start {p : Nat} {table : Table σ} {v : Value} {t : Turn}
    (h : (Board.start turns s).At turns p table v t) : t = Turn.start v := by
  obtain ⟨hv, ht⟩ := h
  simp only [Board.start, List.getElem?_map, hv, Option.map_some] at ht
  cases ht
  rfl

variable [DiceSource σ] {p q : Nat} {table table' : Table σ} {v v' : Value} {t t' : Turn}

theorem advance_of_none (h : b.turns[p]? = none) : b.advance p = b := by
  rw [advance, h]

theorem advance_of_some (h : b.turns[p]? = some (table, t)) : b.advance p =
    ⟨b.turns.set p (table, (t.advance table b.store).1), (t.advance table b.store).2⟩ := by
  rw [advance, h]

theorem store_advance (h : b.turns[p]? = some (table, t)) :
    (b.advance p).store = (t.advance table b.store).2 := by
  rw [advance_of_some h]

theorem getElem?_advance_self (h : b.turns[p]? = some (table, t)) :
    (b.advance p).turns[p]? = some (table, (t.advance table b.store).1) := by
  rw [advance_of_some h]
  exact List.getElem?_set_self (List.getElem?_eq_some_iff.1 h).1

theorem getElem?_advance_of_ne (h : q ≠ p) : (b.advance p).turns[q]? = b.turns[q]? := by
  cases hp : b.turns[p]? with
  | none => rw [advance_of_none hp]
  | some seat =>
    rw [advance_of_some hp]
    exact List.getElem?_set_ne (Ne.symm h)

theorem follow_cons (b : Board σ) (p : Nat) (rest : List Nat) :
    b.follow (p :: rest) = (b.advance p).follow rest := rfl

theorem follow_append (b : Board σ) (before after : List Nat) :
    b.follow (before ++ after) = (b.follow before).follow after := List.foldl_append

theorem follow_concat (b : Board σ) (before : List Nat) (p : Nat) :
    b.follow (before ++ [p]) = (b.follow before).advance p := follow_append b before [p]

/-- A step leaves every turn with its table. -/
theorem tables_advance (b : Board σ) (p q : Nat) :
    (b.advance p).turns[q]?.map Prod.fst = b.turns[q]?.map Prod.fst := by
  by_cases hq : q = p
  · subst hq
    cases h : b.turns[q]? with
    | none => rw [advance_of_none h, h]
    | some seat => rw [getElem?_advance_self h]; rfl
  · rw [getElem?_advance_of_ne hq]

theorem seated_advance (h : b.Seated turns) (p : Nat) : (b.advance p).Seated turns :=
  fun q => (tables_advance b p q).trans (h q)

theorem at_advance_self (h : b.At turns p table v t) :
    (b.advance p).At turns p table v (t.advance table b.store).1 :=
  ⟨h.1, getElem?_advance_self h.2⟩

theorem at_advance_of_ne (hq : q ≠ p) (h : b.At turns q table v t) :
    (b.advance p).At turns q table v t :=
  ⟨h.1, (getElem?_advance_of_ne hq).trans h.2⟩

/-- The turns after a step of the turn `t` in the place `p`: there it is one step on, elsewhere
nothing has changed. -/
theorem at_advance (hat : b.At turns p table v t) (h : (b.advance p).At turns q table' v' t') :
    (q ≠ p ∧ b.At turns q table' v' t') ∨
      (q = p ∧ table' = table ∧ v' = v ∧ t' = (t.advance table b.store).1) := by
  by_cases hq : q = p
  · subst hq
    obtain ⟨rfl, rfl, rfl⟩ := h.unique (at_advance_self hat)
    exact .inr ⟨rfl, rfl, rfl, rfl⟩
  · exact .inl ⟨hq, h.1, (getElem?_advance_of_ne hq).symm.trans h.2⟩

/-- Either a step does nothing, or there is a turn that makes it. -/
theorem advance_cases (h : b.Seated turns) (p : Nat) :
    b.advance p = b ∨ ∃ table v t, b.At turns p table v t := by
  cases hp : b.turns[p]? with
  | none => exact .inl (advance_of_none hp)
  | some seat =>
    obtain ⟨table, t⟩ := seat
    have hs := h p
    rw [hp, Option.map_some] at hs
    obtain ⟨⟨_, v⟩, hv, rfl⟩ := Option.map_eq_some_iff.1 hs.symm
    exact .inr ⟨_, v, t, hv, hp⟩

/-! ## Life and death -/

/-- What holds on every board that turns reach from a ready store `s`. -/
structure Sound (turns : List (Table σ × Value)) (s : Store) (b : Board σ) : Prop where
  seated : b.Seated turns
  roster : b.store.roster = s.roster
  ready : b.store.Ready
  came : ∀ {p table v t}, b.At turns p table v t → Came (Found s) table v t
  unasked : ∀ {p table v t}, b.At turns p table v t → Unasked t

theorem sound_start (turns : List (Table σ × Value)) {s : Store} (h : s.Ready) :
    (Board.start turns s).Sound turns s := by
  refine ⟨fun p => ?_, rfl, h, fun {p table v t} ht => ?_, fun ht => ?_⟩
  · simp only [Board.start, List.getElem?_map, Option.map_map]
    rfl
  · rw [at_start ht]
    exact came_start (Found s) table v
  · rw [at_start ht]
    exact fun _ => rfl

theorem Sound.effect (h : b.Sound turns s) {p : Nat} {table : Table σ} {v : Value} {t : Turn}
    (hat : b.At turns p table v t) :
    Effect table v t (t.advance table b.store).1 b.store (b.advance p).store := by
  rw [store_advance hat.2]
  exact advance_effect (h.came hat) h.roster

theorem sound_advance (h : b.Sound turns s) (p : Nat) : (b.advance p).Sound turns s := by
  rcases advance_cases h.seated p with he | ⟨table, v, t, hat⟩
  · rwa [he]
  · refine ⟨seated_advance h.seated p, ?_, ?_, fun {q table' v' t'} hat' => ?_,
      fun {q table' v' t'} hat' => ?_⟩
    · exact (h.effect hat).roster.trans h.roster
    · exact (h.effect hat).ready h.ready
    · rcases at_advance hat hat' with ⟨-, ho⟩ | ⟨rfl, rfl, rfl, rfl⟩
      · exact h.came ho
      · exact came_advance (h.came hat) fun _ => ⟨h.roster, h.ready.measured⟩
    · rcases at_advance hat hat' with ⟨-, ho⟩ | ⟨rfl, rfl, rfl, rfl⟩
      · exact h.unasked ho
      · exact unasked_advance b.store

theorem sound_follow (schedule : List Nat) (h : b.Sound turns s) :
    (b.follow schedule).Sound turns s := by
  induction schedule generalizing b with
  | nil => exact h
  | cons p rest ih => exact ih (sound_advance h p)

theorem keeps_advance (h : b.Sound turns s) (p : Nat) : b.store.Keeps (b.advance p).store := by
  rcases advance_cases h.seated p with he | ⟨table, v, t, hat⟩
  · rw [he]
    exact b.store.keeps_refl
  · exact (h.effect hat).keeps h.ready

/-- **Completed sessions and their characters never change again.** -/
theorem keeps_follow (schedule : List Nat) (h : b.Sound turns s) :
    b.store.Keeps (b.follow schedule).store := by
  induction schedule generalizing b with
  | nil => exact b.store.keeps_refl
  | cons p rest ih => exact (keeps_advance h p).trans (ih (sound_advance h p))

/-! ## Who completed what -/

/-- Why a row is completed: it was from the start, or a narrator has completed its session, or the
session was lost in a turn. -/
def Explained (turns : List (Table σ × Value)) (s : Store) (b : Board σ) (i : Nat)
    (row : SessionRow) : Prop :=
  (∃ first, s.sessions[i]? = some first ∧ first.status = .completed) ∨
    (∃ p table v t, b.At turns p table v t ∧ row.id ∈ completions table t.request) ∨
    b.store.Lost row

/-- What holds of the completed sessions on every board that turns reach. -/
structure Accounted (turns : List (Table σ × Value)) (s : Store) (b : Board σ) : Prop where
  completed : ∀ {i row}, b.store.sessions[i]? = some row → row.status = .completed →
    Explained turns s b i row
  lost : ∀ {p id}, b.Ended turns p id →
    ∃ (i : Nat) (row : SessionRow), b.store.sessions[i]? = some row ∧ row.id = id ∧ b.store.Lost row
  once : ∀ {p q id}, b.Ended turns p id → b.Ended turns q id → p = q

omit [DiceSource σ] in
/-- A turn that has ended its session has shut it for all others. -/
theorem Accounted.isOpen_of_ended (h : b.Accounted turns s) (ht : b.store.Tidy) {p : Nat}
    {id : String} (he : b.Ended turns p id) : b.store.isOpen id = false := by
  obtain ⟨i, row, hr, rfl, hl⟩ := h.lost he
  exact Store.isOpen_of_lost ht (List.mem_of_getElem? hr) hl

/-- A turn that has ended its session after a step ends it in this step, or had ended it before. -/
theorem ended_of_advance {p q : Nat} {table : Table σ} {v : Value} {t : Turn} {id : String}
    (h : b.Sound turns s) (hat : b.At turns p table v t) (he : (b.advance p).Ended turns q id) :
    b.Ended turns q id ∨ (q = p ∧ ∃ c, c.sessionId = id ∧ b.store.isOpen id = true ∧
      b.store.Admits c ∧ c.character.isDepleted = true ∧
      (b.advance p).store = b.store.write c table.now) := by
  obtain ⟨table', v', t', r, hat', hn, hr, hterm⟩ := he
  rcases at_advance hat hat' with ⟨-, ho⟩ | ⟨rfl, rfl, rfl, rfl⟩
  · exact .inl ⟨table', v', t', r, ho, hn, hr, hterm⟩
  · have heffect := h.effect hat
    generalize (b.advance q).store = u at heffect ⊢
    cases heffect with
    | completing ids _ old => exact .inl ⟨table', v', t, r, hat, hn, old r hr, hterm⟩
    | committing c r' resolved opened fits names terminated =>
      cases hr.symm.trans resolved
      have hid := names.unique hn
      exact .inr ⟨rfl, c, hid, hid ▸ opened, fits, terminated ▸ hterm, rfl⟩

omit [DiceSource σ] in
theorem accounted_start (turns : List (Table σ × Value)) (s : Store) :
    (Board.start turns s).Accounted turns s := by
  have hnone {p id} (he : (Board.start turns s).Ended turns p id) : False := by
    obtain ⟨_, _, _, _, hat, _, hr, _⟩ := he
    rw [at_start hat] at hr
    cases hr
  exact ⟨fun {i row} hr hs => .inl ⟨row, hr, hs⟩, fun he => (hnone he).elim,
    fun he _ => (hnone he).elim⟩

section
variable {p : Nat} {table : Table σ} {v : Value} {t : Turn}

/-- What explains a completed row goes on to explain it. -/
theorem explained_advance (h : b.Sound turns s) (hat : b.At turns p table v t) {i : Nat}
    {row : SessionRow} (hr : b.store.sessions[i]? = some row) (he : Explained turns s b i row) :
    Explained turns s (b.advance p) i row := by
  rcases he with hfirst | ⟨q, table', v', t', hq, hid⟩ | hl
  · exact .inl hfirst
  · by_cases hqp : q = p
    · subst hqp
      obtain ⟨rfl, rfl, rfl⟩ := hq.unique hat
      exact .inr (.inl ⟨q, table', v', _, at_advance_self hat,
        completions_advance b.store (h.unasked hat) hid⟩)
    · exact .inr (.inl ⟨q, table', v', t', at_advance_of_ne hqp hq, hid⟩)
  · exact .inr (.inr (hl.of_keeps ((h.effect hat).keeps h.ready) hr).2)

/-- Every row that is completed after a step is explained then. -/
theorem completed_advance (h : b.Sound turns s) (ha : b.Accounted turns s)
    (hat : b.At turns p table v t) {i : Nat} {row' : SessionRow}
    (hr' : (b.advance p).store.sessions[i]? = some row') (hs : row'.status = .completed) :
    Explained turns s (b.advance p) i row' := by
  have hold {row} (hr : b.store.sessions[i]? = some row) (hs : row.status = .completed) :=
    explained_advance h hat hr (ha.completed hr hs)
  have hself := at_advance_self hat
  have heffect := h.effect hat
  generalize (t.advance table b.store).1 = t', b.advance p = b' at *
  generalize hu : b'.store = u at heffect hr'
  cases heffect with
  | completing ids named _ =>
    rcases b.store.getElem?_completeAll ids i with he | ⟨row, hr, hid, he⟩
    · exact hold (he ▸ hr') hs
    · cases hr'.symm.trans he
      exact .inr (.inl ⟨p, table, v, t', hself, named row.id hid⟩)
  | committing c r _ opened fits _ _ =>
    rw [Explained, hu]
    simp only [Store.write, List.getElem?_map] at hr'
    obtain ⟨row, hr, rfl⟩ := Option.map_eq_some_iff.1 hr'
    by_cases hopen : row.isOpen c.sessionId
    · -- An open row is completed by the commit of a depleted character only.
      refine .inr (.inr (Store.lost_write table.now h.ready.tidy fits opened ?_
        (List.mem_of_getElem? hr) hopen))
      by_cases hd : c.character.isDepleted
      · exact hd
      · have he : c.ending = none := by rw [fits.ending, if_neg hd]
        have hactive := (SessionRow.isOpen_iff.1 hopen).2
        simp [SessionRow.touch, hopen, SessionRow.update, he, hactive] at hs
    · rw [SessionRow.touch_of_not_open hopen] at hs ⊢
      rw [← hu]
      exact hold hr hs

/-- A turn that has ended its session, now or before, has left it lost. -/
theorem lost_advance (h : b.Sound turns s) (ha : b.Accounted turns s) (hat : b.At turns p table v t)
    {q : Nat} {id : String} (he : (b.advance p).Ended turns q id) :
    ∃ (i : Nat) (row : SessionRow), (b.advance p).store.sessions[i]? = some row ∧ row.id = id ∧
      (b.advance p).store.Lost row := by
  rcases ended_of_advance h hat he with ho | ⟨-, c, rfl, opened, fits, hd, hu⟩
  · obtain ⟨i, row, hr, hid, hl⟩ := ha.lost ho
    obtain ⟨hr', hl'⟩ := hl.of_keeps ((h.effect hat).keeps h.ready) hr
    exact ⟨i, row, hr', hid, hl'⟩
  · obtain ⟨row, hrow, hid, hactive⟩ := Store.isOpen_iff.1 opened
    obtain ⟨i, hi⟩ := List.mem_iff_getElem?.1 hrow
    rw [hu]
    refine ⟨i, row.touch c table.now, ?_, by simpa using hid, ?_⟩
    · simp [Store.write, hi]
    · exact Store.lost_write table.now h.ready.tidy fits opened hd hrow
        (SessionRow.isOpen_iff.2 ⟨hid, hactive⟩)

end

theorem accounted_advance (h : b.Sound turns s) (ha : b.Accounted turns s) (p : Nat) :
    (b.advance p).Accounted turns s := by
  rcases advance_cases h.seated p with he | ⟨table, v, t, hat⟩
  · rwa [he]
  · refine ⟨fun hr hs => completed_advance h ha hat hr hs, fun hend => lost_advance h ha hat hend,
      fun {q q' id} hq hq' => ?_⟩
    -- Of two turns that end one session, the later one would have needed it open.
    rcases ended_of_advance h hat hq with ho | ⟨rfl, -, -, opened, -⟩
    · rcases ended_of_advance h hat hq' with ho' | ⟨rfl, -, -, opened, -⟩
      · exact ha.once ho ho'
      · rw [ha.isOpen_of_ended h.ready.tidy ho] at opened
        cases opened
    · rcases ended_of_advance h hat hq' with ho' | ⟨rfl, -⟩
      · rw [ha.isOpen_of_ended h.ready.tidy ho'] at opened
        cases opened
      · rfl

theorem accounted_follow (schedule : List Nat) (h : b.Sound turns s) (ha : b.Accounted turns s) :
    (b.follow schedule).Accounted turns s := by
  induction schedule generalizing b with
  | nil => exact ha
  | cons p rest ih => exact ih (sound_advance h p) (accounted_advance h ha p)

/-! ## After the end -/

theorem ended_advance {q : Nat} {id : String} (he : b.Ended turns q id) (p : Nat) :
    (b.advance p).Ended turns q id := by
  obtain ⟨table', v', t', r, hq, hn, hr, hterm⟩ := he
  by_cases hqp : q = p
  · subst hqp
    exact ⟨table', v', _, r, at_advance_self hq, hn, result?_advance b.store hr, hterm⟩
  · exact ⟨table', v', t', r, at_advance_of_ne hqp hq, hn, hr, hterm⟩

/-- A step brings no result for a session that a turn has ended. -/
theorem not_resolved_advance (h : b.Sound turns s) (ha : b.Accounted turns s) {p q : Nat}
    {id : String} (he : b.Ended turns p id) {table : Table σ} {v : Value} (hn : Names v id)
    (hr : ∀ t, b.At turns q table v t → result? t = none) (p' : Nat) {t' : Turn}
    (hat' : (b.advance p').At turns q table v t') : result? t' = none := by
  rcases advance_cases h.seated p' with hb | ⟨table₁, v₁, t, hat⟩
  · rw [hb] at hat'
    exact hr t' hat'
  · rcases at_advance hat hat' with ⟨-, ho⟩ | ⟨rfl, rfl, rfl, rfl⟩
    · exact hr t' ho
    · have heffect := h.effect hat
      generalize (t.advance table b.store).1 = t', (b.advance q).store = u at heffect
      cases heffect with
      | completing _ _ old =>
        rw [Option.eq_none_iff_forall_ne_some]
        intro r hr'
        rw [hr t hat] at old
        exact absurd (old r hr') (by simp)
      | committing c r _ opened _ names _ =>
        rw [names.unique hn, ha.isOpen_of_ended h.ready.tidy he] at opened
        cases opened

theorem not_resolved_follow (later : List Nat) (h : b.Sound turns s) (ha : b.Accounted turns s)
    {p q : Nat} {id : String} (he : b.Ended turns p id) {table : Table σ} {v : Value}
    (hn : Names v id) (hr : ∀ t, b.At turns q table v t → result? t = none) {t' : Turn}
    (hat' : (b.follow later).At turns q table v t') : result? t' = none := by
  induction later generalizing b with
  | nil => exact hr t' hat'
  | cons p' rest ih =>
    exact ih (sound_advance h p') (accounted_advance h ha p') (ended_advance he p')
      (fun t ht => not_resolved_advance h ha he hn hr p' ht) hat'

/-- A commit to a session that a turn has ended is refused, and leaves the store as it is. -/
theorem refused_of_ended (h : b.Sound turns s) (ha : b.Accounted turns s) {p q : Nat} {id : String}
    (he : b.Ended turns p id) {table : Table σ} {v : Value} {t : Turn}
    (hat : b.At turns q table v t) (hn : Names v id) {c : TurnCommit} {r : TurnResult}
    (hs : t.stage = .settled c r) :
    b.advance q = ⟨b.turns.set q
      (table, { t with stage := .closed (.failed (.fault (.commitRefused id))) }), b.store⟩ := by
  have hcame := h.came hat
  unfold Came at hcame
  rw [hs] at hcame
  have hid := (SettledFrom.admits hcame h.roster).2.1.unique hn
  have hclosed := ha.isOpen_of_ended h.ready.tidy he
  rw [← hid] at hclosed
  unfold Board.advance
  simp only [hat.2, Turn.advance, hs, Store.commit_eq_error.2 ⟨hclosed, rfl⟩, hid]

/-- **Overlapping turns are safe with respect to death and completion.** Any number of turns start
from a ready store and make their steps in any order, and at some time, after `schedule`, the board
is `b`; later, after some more steps, it is `b'`. Then completed sessions and their characters are
the same in `b` and `b'`. Whoever plays an active session is alive. Completed sessions were
completed from the start, or by a narrator, or are lost. And where a turn has ended a session, the
session is lost, no other turn has ended it, a commit to it that is still to come is refused as
invalid input without a trace, and no turn for it that has not resolved yet ever does. -/
theorem follow_safe (turns : List (Table σ × Value)) {s : Store} (hs : s.Ready)
    (schedule later : List Nat) :
    let b := (Board.start turns s).follow schedule
    let b' := b.follow later
    b.store.Keeps b'.store ∧ b.store.AllAlive ∧
    (∀ (i : Nat) (row : SessionRow), b.store.sessions[i]? = some row → row.status = .completed →
      Explained turns s b i row) ∧
    ∀ p id, b.Ended turns p id →
      (∃ row ∈ b.store.sessions, row.id = id ∧ b.store.Lost row) ∧
      (∀ q, b.Ended turns q id → q = p) ∧
      ∀ q table v t, b.At turns q table v t → Names v id → result? t = none →
        (∀ c r, t.stage = .settled c r → ∃ f, f.kind = .invalidInput ∧ b.advance q =
          ⟨b.turns.set q (table, { t with stage := .closed (.failed (.fault f)) }), b.store⟩) ∧
        ∀ t', b'.At turns q table v t' → result? t' = none := by
  intro b b'
  have h : b.Sound turns s := sound_follow schedule (sound_start turns hs)
  have ha : b.Accounted turns s :=
    accounted_follow schedule (sound_start turns hs) (accounted_start turns s)
  refine ⟨keeps_follow later h, h.ready.alive, fun i row hr hc => ha.completed hr hc,
    fun p id he => ⟨?_, fun q hq => ha.once hq he, fun q table v t hat hn hr => ⟨?_, ?_⟩⟩⟩
  · obtain ⟨i, row, hr, hid, hl⟩ := ha.lost he
    exact ⟨row, List.mem_of_getElem? hr, hid, hl⟩
  · intro c r hset
    exact ⟨.commitRefused id, rfl, refused_of_ended h ha he hat hn hset⟩
  · intro t' hat'
    refine not_resolved_follow later h ha he hn (fun u hu => ?_) hat'
    obtain ⟨-, -, rfl⟩ := hat.unique hu
    exact hr

/-- Two deadly turns at once, when the first has committed and the second has not: the session is
lost, and the second turn never resolves. -/
theorem follow_safe_two_deaths :
    let deadly := SmallGame.table
      (SmallGame.narrator { Changes.nothing with hpChange := -20 } false [])
    let turns := [(deadly, SmallGame.input), (deadly, SmallGame.input)]
    let b := (Board.start turns SmallGame.store).follow [0, 1, 0, 1, 0, 1, 0, 1, 0]
    b.Ended turns 0 SmallGame.id ∧
      (∃ row ∈ b.store.sessions, row.id = SmallGame.id ∧ b.store.Lost row) ∧
      (∀ q, b.Ended turns q SmallGame.id → q = 0) ∧
      ∀ later t, (b.follow later).At turns 1 deadly SmallGame.input t → result? t = none := by
  intro deadly turns b
  have hready : SmallGame.store.Ready := by
    refine ⟨⟨by decide, by decide⟩, ?_, ?_⟩
    · intro player hp
      cases List.mem_singleton.1 hp
      exact ⟨by decide, by decide⟩
    · intro row hrow _ player hp
      cases List.mem_singleton.1 (Store.mem_players.1 hp).1
      decide
  have hnames := SmallGame.names_input
  have hseated : b.Seated turns := (sound_follow _ (sound_start turns hready)).seated
  have hdone : (b.told? 0).any (·.isTerminated) = true := by
    decide +kernel
  have hopen : b.told? 1 = none := by decide +kernel
  have hsafe := fun later => (follow_safe turns hready [0, 1, 0, 1, 0, 1, 0, 1, 0] later).2.2.2
  -- From here on nothing is computed: what is known of the board is in the facts above.
  have hb : (Board.start turns SmallGame.store).follow [0, 1, 0, 1, 0, 1, 0, 1, 0] = b := rfl
  simp only [hb] at hsafe
  clear_value b
  have hfirst : b.turns[0]?.map Prod.fst = some deadly := hseated 0
  have hsecond : b.turns[1]?.map Prod.fst = some deadly := hseated 1
  obtain ⟨⟨_, t⟩, ht, hfirst⟩ := Option.map_eq_some_iff.1 hfirst
  obtain ⟨⟨_, u⟩, hu, hsecond⟩ := Option.map_eq_some_iff.1 hsecond
  subst hfirst hsecond
  rw [told?, ht, Option.bind_some, Option.any_eq_true] at hdone
  rw [told?, hu, Option.bind_some] at hopen
  obtain ⟨r, hr, hterm⟩ := hdone
  have he : b.Ended turns 0 SmallGame.id :=
    ⟨deadly, SmallGame.input, t, r, ⟨rfl, ht⟩, hnames, hr, hterm⟩
  obtain ⟨hlost, honce, -⟩ := hsafe [] 0 SmallGame.id he
  refine ⟨he, hlost, honce, fun later t' hat' => ?_⟩
  obtain ⟨-, -, hnone⟩ := hsafe later 0 SmallGame.id he
  exact (hnone 1 deadly SmallGame.input u ⟨rfl, hu⟩ hnames hopen).2 t' hat'

end Board

end Adventure.Turn
