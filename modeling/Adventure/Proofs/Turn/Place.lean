import Adventure.Narrator.Generator
import Adventure.Proofs.Narrative.Normal
import Adventure.Proofs.Story.Proposal
import Adventure.Proofs.Turn.Interleaving
/-!
# Where turns lead

A turn writes the place of a session twice: as its current location, and on the list of places that
were visited. The two come from different rules. Any new place becomes the current location, the
nameless one too; only a place with a name is put on the list (`run_places_session`). A narrator who
is read from text never leads to the nameless place (`namesPlaces_narrator`), and with such
narrators the current location of every session stays on its list, in whatever order turns make
their steps (`follow_keeps_listed`).
-/

namespace Adventure

/-! ## One turn -/

/-- Where a session is after a turn whose bundle leads to `location`, or nowhere: the current
location, and the places on the list. -/
structure Session.Placed (session : Session) (location : Option String) (current : String)
    (visited : List String) : Prop where
  stays : location = none →
    current = session.currentLocation ∧ visited = session.chronicle.visitedLocations
  arrives : ∀ place, location = some place → current = place
  visits : ∀ place, location = some place → place ≠ "" →
    ∀ x, x ∈ visited ↔ x ∈ session.chronicle.visitedLocations ∨ x = place
  /-- The nameless place is nowhere. -/
  nameless : location = some "" → visited = session.chronicle.visitedLocations

/-- The current location of the session is on its list of places. -/
def Session.Listed (session : Session) : Prop :=
  session.currentLocation ∈ session.chronicle.visitedLocations

namespace Session.Placed

variable {session : Session} {location : Option String} {current : String} {visited : List String}

/-- A place with a name is on the list when it is the current one. -/
theorem arrived (h : session.Placed location current visited) {place : String}
    (hl : location = some place) (hname : place ≠ "") : current = place ∧ place ∈ visited :=
  ⟨h.arrives place hl, (h.visits place hl hname place).2 (.inr rfl)⟩

/-- The current location stays on the list, unless it becomes the nameless one. -/
theorem mem_visited (h : session.Placed location current visited) (hname : location ≠ some "")
    (hs : session.Listed) : current ∈ visited := by
  cases location with
  | none =>
    obtain ⟨rfl, rfl⟩ := h.stays rfl
    exact hs
  | some place =>
    obtain ⟨rfl, hmem⟩ := h.arrived rfl fun he => hname (congrArg some he)
    exact hmem

end Session.Placed

namespace Turn

variable {σ : Type} [DiceSource σ]

section
variable {table : Table σ} {scene : Scene} {q : NarrativeRequest} {c : TurnCommit} {r : TurnResult}

/-- A commit places the session that the turn has read. -/
theorem Settles.placed (h : Settles table scene q c r) :
    scene.session.Placed r.changes.location c.currentLocation c.chronicle.visitedLocations := by
  obtain ⟨hplace, hchronicle⟩ := h.place_eq
  have hvisited : c.chronicle.visitedLocations =
      Collection.gain scene.session.chronicle.visitedLocations
        (Chronicle.reached r.changes.location) := by
    rw [hchronicle]
    rfl
  constructor
  · intro hl
    rw [hl] at hplace hvisited
    exact ⟨hplace, hvisited⟩
  · intro place hl
    rw [hl] at hplace
    exact hplace
  · intro place hl hname x
    rw [hvisited, hl, Chronicle.reached, if_neg hname, Collection.mem_gain, List.mem_singleton]
  · intro hl
    rw [hvisited, hl]
    rfl

end

/-- **Where a turn that resolves leads.** It has read the session of its input, and there are rows
of this session that its commit changes, the open ones. Each of them is placed as the bundle says
that the player is told of. -/
theorem run_places_session {table : Table σ} {v : Value} {s : Store} {r : TurnResult}
    (h : outcome? (run table v s).1 = some (.done r)) :
    ∃ (input : TurnInput) (session : Session),
      TurnInput.ofValue? v = .ok input ∧ s.session? input.sessionId = some session ∧
      (∃ row ∈ (aside table (run table v s).1.request s).sessions, row.isOpen input.sessionId) ∧
      ∀ (i : Nat) (row : SessionRow),
        (aside table (run table v s).1.request s).sessions[i]? = some row →
        row.isOpen input.sessionId →
        ∃ row', (run table v s).2.sessions[i]? = some row' ∧ row'.id = input.sessionId ∧
          session.Placed r.changes.location row'.snapshot.currentLocation
            row'.snapshot.chronicle.visitedLocations := by
  obtain ⟨c, ⟨scene, q, hfrom, hsettles, -⟩, hcommit⟩ := run_done h
  obtain ⟨hv, hsession, -⟩ := locate_eq_ok.1 (Scene.from_iff.1 hfrom).1
  have hid : c.sessionId = scene.input.sessionId := by
    rw [hsettles.addressees.1, Store.session?_id hsession]
  obtain ⟨hopen, hwrite⟩ := Store.commit_eq_ok.1 hcommit
  rw [hid] at hopen
  refine ⟨scene.input, scene.session, hv, hsession, ?_, ?_⟩
  · obtain ⟨row, hrow, hstatus⟩ := Store.isOpen_iff.1 hopen
    exact ⟨row, hrow, SessionRow.isOpen_iff.2 hstatus⟩
  · intro i row hrow ho
    refine ⟨row.update c table.now, ?_, (SessionRow.isOpen_iff.1 ho).1, hsettles.placed⟩
    have htouch : row.touch c table.now = row.update c table.now := if_pos (by rwa [hid])
    rw [hwrite, Store.write, List.getElem?_map, hrow, Option.map_some, htouch]

/-- The hero goes on to the vault. -/
theorem run_places_session_in_the_vault :
    let table := SmallGame.table
      (SmallGame.narrator { Changes.nothing with location := some "vault" } false [])
    let out := run table SmallGame.input SmallGame.store
    ∃ r row, outcome? out.1 = some (.done r) ∧ r.changes.location = some "vault" ∧
      out.2.sessions[0]? = some row ∧ row.snapshot.currentLocation = "vault" ∧
      "vault" ∈ row.snapshot.chronicle.visitedLocations := by
  intro table out
  have hdone : (result? out.1).map (fun r => r.changes.location) = some (some "vault") := by
    decide +kernel
  obtain ⟨r, hr, hl⟩ := Option.map_eq_some_iff.1 hdone
  have h := result?_eq_some.1 hr
  have hinput : TurnInput.ofValue? SmallGame.input = .ok ⟨SmallGame.id, "open the door", none⟩ := by
    decide +kernel
  have haside : aside table out.1.request SmallGame.store = SmallGame.store := by
    cases out.1.request <;> rfl
  obtain ⟨input, session, hv, -, -, hrows⟩ := run_places_session h
  cases hv.symm.trans hinput
  rw [haside] at hrows
  obtain ⟨row, hrow, -, hplaced⟩ := hrows 0 _ rfl (by decide)
  exact ⟨r, row, h, hl, hrow, hplaced.arrived hl (by decide)⟩

/-- The nameless place becomes the current location, and is not on the list of places. -/
theorem nameless_place_is_not_visited :
    let table := SmallGame.table
      (SmallGame.narrator { Changes.nothing with location := some "" } false [])
    let out := run table SmallGame.input SmallGame.store
    (result? out.1).map (fun r => r.changes.location) = some (some "") ∧
      out.2.sessions.map (fun row =>
        (row.snapshot.currentLocation, row.snapshot.chronicle.visitedLocations)) = [("", [])] := by
  decide +kernel

end Turn

/-! ## Narrators -/

/-- A narrator who leads to places with a name only. -/
def Narrator.NamesPlaces (narrator : Narrator) : Prop :=
  ∀ q narration p, (narrator q).answer = .ok narration →
    Changes.ofValue? narration.changes = .ok p → p.location ≠ some ""

theorem Response.location_ofText_ne_empty (s : String) :
    (ofText s).1.changes.location ≠ some "" :=
  fun hempty => ((changesEncodable_ofText s).location "" hempty).ne_empty rfl

/-- **A narrator who is read from text names places.** -/
theorem Registry.namesPlaces_narrator (r : Registry) (settings : Settings) :
    (r.narrator settings).NamesPlaces := by
  intro q narration p hanswer hp
  have hanswer : (r.narrate settings q).1.map Response.toNarration = .ok narration := hanswer
  obtain ⟨response, hresponse, rfl⟩ := Shape.map_eq_ok.1 hanswer
  obtain ⟨text, rfl⟩ : ∃ text, response = (Response.ofText text).1 := by
    unfold narrate at hresponse
    split at hresponse
    · cases hresponse
    · dsimp only at hresponse
      split at hresponse
      · cases hresponse
      · exact ⟨_, (Except.ok.inj hresponse).symm⟩
  have hread : Changes.ofValue? (Response.ofText text).1.toNarration.changes =
      .ok (Response.ofText text).1.changes :=
    Changes.ofValue?_toValue (Response.wellFormed_ofText text)
  obtain rfl := Except.ok.inj (hread.symm.trans hp)
  exact Response.location_ofText_ne_empty text

/-! ## All turns -/

namespace Store

/-- In every row, the current location is on the list. -/
def AllListed (s : Store) : Prop := ∀ row ∈ s.sessions, row.snapshot.Listed

variable {s : Store}

theorem AllListed.session? (h : s.AllListed) {id : String} {session : Session}
    (hs : s.session? id = some session) : session.Listed := by
  obtain ⟨row, hrow, rfl⟩ := Option.map_eq_some_iff.1 hs
  exact h row (List.mem_of_find?_eq_some hrow)

theorem allListed_completeAll (h : s.AllListed) (ids : List String) :
    (s.completeAll ids).AllListed := by
  intro row hrow
  obtain ⟨i, hi⟩ := List.mem_iff_getElem?.1 hrow
  rcases getElem?_completeAll s ids i with he | ⟨old, hold, -, he⟩
  · exact h row (List.mem_of_getElem? (he ▸ hi))
  · obtain rfl := Option.some.inj (hi.symm.trans he)
    exact h old (List.mem_of_getElem? hold)

theorem allListed_write (h : s.AllListed) {c : TurnCommit}
    (hc : c.currentLocation ∈ c.chronicle.visitedLocations) (now : Instant) :
    (s.write c now).AllListed := by
  intro row hrow
  obtain ⟨old, hold, rfl⟩ := List.mem_map.1 hrow
  unfold SessionRow.touch
  split
  · exact hc
  · exact h old hold

end Store

/-- Wherever a turn has come, the session that it has read is listed, and so is what it will
commit. -/
def Stage.Listed : Stage → Prop
  | .located _ session => session.Listed
  | .cast _ session _ => session.Listed
  | .framed scene => scene.session.Listed
  | .settled c _ => c.currentLocation ∈ c.chronicle.visitedLocations
  | .opened _ => True
  | .closed _ => True

namespace Turn

variable {σ : Type} [DiceSource σ] {table : Table σ}

/-- What is reconciled leads to no place that was not proposed. -/
theorem Settles.location_ne_empty {scene : Scene} {q : NarrativeRequest} {c : TurnCommit}
    {r : TurnResult} (h : Settles table scene q c r) (hn : table.narrator.NamesPlaces) :
    r.changes.location ≠ some "" := by
  cases h with
  | @intro resolution narration reconciled after remarks climbs checked told judged lived =>
    obtain ⟨p, hp, -, hchanges, -⟩ := reconcile_eq_ok.1 judged
    change reconciled.changes.location ≠ some ""
    rw [hchanges]
    split
    · simp
    · exact hn _ narration p told hp

/-- **A step keeps current locations on their lists.** -/
theorem listed_advance (hn : table.narrator.NamesPlaces) {t : Turn} {s : Store}
    (ht : t.stage.Listed) (hs : s.AllListed) :
    (t.advance table s).1.stage.Listed ∧ (t.advance table s).2.AllListed := by
  have hm := advance_move table t s
  generalize (t.advance table s).1 = t', (t.advance table s).2 = s' at hm
  cases hm with
  | located h => exact ⟨hs.session? (locate_eq_ok.1 h).2.1, hs⟩
  | unlocated _ => exact ⟨trivial, hs⟩
  | cast _ => exact ⟨ht, hs⟩
  | uncast _ => exact ⟨trivial, hs⟩
  | framed => exact ⟨ht, hs⟩
  | settled h =>
    exact ⟨h.placed.mem_visited (h.location_ne_empty hn) ht, Store.allListed_completeAll hs _⟩
  | unsettled _ => exact ⟨trivial, Store.allListed_completeAll hs _⟩
  | committed h =>
    obtain ⟨-, rfl⟩ := Store.commit_eq_ok.1 h
    exact ⟨trivial, Store.allListed_write hs ht _⟩
  | refused _ => exact ⟨trivial, hs⟩
  | rested => exact ⟨trivial, hs⟩

namespace Board

/-- Turns with narrators who name places, at stages that are listed, in a store that is. -/
structure Listed (b : Board σ) : Prop where
  store : b.store.AllListed
  turns : ∀ seat ∈ b.turns, seat.1.narrator.NamesPlaces ∧ seat.2.stage.Listed

variable {b : Board σ}

theorem Listed.advance (h : b.Listed) (p : Nat) : (b.advance p).Listed := by
  cases hp : b.turns[p]? with
  | none =>
    rw [advance_of_none hp]
    exact h
  | some seat =>
    obtain ⟨table, t⟩ := seat
    obtain ⟨hn, ht⟩ := h.turns _ (List.mem_of_getElem? hp)
    obtain ⟨ht', hs'⟩ := listed_advance hn ht h.store
    rw [advance_of_some hp]
    refine ⟨hs', fun seat hseat => ?_⟩
    rcases List.mem_or_eq_of_mem_set hseat with hold | rfl
    · exact h.turns seat hold
    · exact ⟨hn, ht'⟩

theorem Listed.follow (h : b.Listed) (schedule : List Nat) : (b.follow schedule).Listed := by
  induction schedule generalizing b with
  | nil => exact h
  | cons p rest ih => exact ih (h.advance p)

/-- **The current location stays on the list.** With narrators who name places, any turns in any
order of their steps keep the current location of every session on its list of places. -/
theorem follow_keeps_listed {turns : List (Table σ × Value)} {s : Store} (hs : s.AllListed)
    (hn : ∀ seat ∈ turns, seat.1.narrator.NamesPlaces) (schedule : List Nat) :
    ((Board.start turns s).follow schedule).store.AllListed := by
  have hstart : (Board.start turns s).Listed := by
    refine ⟨hs, fun seat hseat => ?_⟩
    obtain ⟨entry, hentry, rfl⟩ := List.mem_map.1 hseat
    exact ⟨hn entry hentry, trivial⟩
  exact (hstart.follow schedule).store

end Board

end Turn

end Adventure
