import Adventure.Proofs.Story.Chronicle
import Adventure.Proofs.Story.Experience
import Mathlib.Data.List.Induction
/-!
# Who has what

Items are kept in two books, the inventory of the character and the items of the chronicle, and each
is written by a rule of its own. Both rules come to the same: what a bundle gains is added, and then
what it loses is struck out (`trade`). So the last bundle that mentions an item decides whether it is
there (`possession_of_run`), and two books that agree go on to agree (`inventory_eq_items`).

A turn of a character may be refused, for the damage that comes with it, or never end, for the
experience; nothing else keeps a run of turns from its end (`done_or_stops`).
-/

namespace Adventure

/-! ## One bundle -/

/-- Nothing is gained that is there already. -/
theorem Collection.count_gain_le (things new : List String) (x : String) :
    (gain things new).count x ≤ max (things.count x) 1 := by
  obtain ⟨added, hgain, hadded⟩ := appends_gain things new
  rw [hgain, List.count_append]
  by_cases hx : x ∈ added
  · have hnone := List.count_eq_zero.2 ((hadded.mem x).1 hx).2
    have honce := List.nodup_iff_count_le_one.1 hadded.nodup x
    omega
  · have hnone := List.count_eq_zero.2 hx
    omega

namespace Changes

variable {items start now : List String} {b : Changes} {bundles : List Changes} {x : String}

/-- Whether a bundle has to do with an item. -/
def mentions (b : Changes) (x : String) : Bool := x ∈ b.itemsGained ∨ x ∈ b.itemsLost

/-- A list of items after a bundle. -/
def trade (items : List String) (b : Changes) : List String :=
  Collection.lose (Collection.gain items b.itemsGained) b.itemsLost

/-- **A bundle decides** on what it mentions, and on nothing else. -/
theorem mem_trade :
    x ∈ trade items b ↔ if b.mentions x then x ∈ b.itemsGained ∧ x ∉ b.itemsLost else x ∈ items := by
  unfold trade
  rw [Collection.mem_lose, Collection.mem_gain]
  by_cases hg : x ∈ b.itemsGained
  · simp [mentions, hg]
  · by_cases hl : x ∈ b.itemsLost
    · simp [mentions, hg, hl]
    · simp [mentions, hg, hl]

theorem count_trade_le (items : List String) (b : Changes) (x : String) :
    (trade items b).count x ≤ max (items.count x) 1 :=
  le_trans ((Collection.lose_sublist _ _).count_le x)
    (Collection.count_gain_le items b.itemsGained x)

theorem nodup_trade (h : items.Nodup) (b : Changes) : (trade items b).Nodup :=
  (Collection.nodup_gain h b.itemsGained).sublist (Collection.lose_sublist _ _)

/-- What is not lost stays in front, in its order. -/
theorem lose_isPrefix_trade (items : List String) (b : Changes) :
    Collection.lose items b.itemsLost <+: trade items b :=
  (Collection.appends_gain items b.itemsGained).isPrefix.filter _

/-! ## Many bundles -/

/-- A list of items after several bundles. -/
def trades (items : List String) (bundles : List Changes) : List String := bundles.foldl trade items

theorem trades_concat (items : List String) (bundles : List Changes) (b : Changes) :
    trades items (bundles ++ [b]) = trade (trades items bundles) b := by
  simp [trades]

/-- The last bundle that has to do with an item. -/
def lastMention? (bundles : List Changes) (x : String) : Option Changes :=
  bundles.reverse.find? fun b => b.mentions x

theorem lastMention?_concat (bundles : List Changes) (b : Changes) (x : String) :
    lastMention? (bundles ++ [b]) x = if b.mentions x then some b else lastMention? bundles x := by
  unfold lastMention?
  rw [List.reverse_append, List.reverse_singleton, List.singleton_append, List.find?_cons]
  cases b.mentions x with
  | true => rfl
  | false => rfl

/-- The items that no bundle takes away, in the order of the list. -/
def untouched (items : List String) (bundles : List Changes) : List String :=
  items.filter fun x => ∀ b ∈ bundles, x ∉ b.itemsLost

/-- What has become of a list of items after several bundles. -/
structure Possession (start : List String) (bundles : List Changes) (now : List String) : Prop where
  held : ∀ x, x ∈ now ↔
    (∃ b, lastMention? bundles x = some b ∧ x ∈ b.itemsGained ∧ x ∉ b.itemsLost) ∨
      (lastMention? bundles x = none ∧ x ∈ start)
  /-- No bundle brings in a repetition. -/
  count_le : ∀ x, now.count x ≤ max (start.count x) 1
  nodup : start.Nodup → now.Nodup
  /-- What has stayed all the time stands in front, in the order of the beginning. -/
  stays : untouched start bundles <+: now

theorem possession_nil (start : List String) : Possession start [] start where
  held x := by simp [lastMention?]
  count_le x := Nat.le_max_left _ _
  nodup := id
  stays := by simp [untouched]

/-- One bundle more has the last word on what it mentions. -/
theorem Possession.concat (h : Possession start bundles now) (b : Changes) :
    Possession start (bundles ++ [b]) (trade now b) where
  held x := by
    rw [mem_trade, lastMention?_concat]
    by_cases hb : b.mentions x
    · simp [hb]
    · simpa [hb] using h.held x
  count_le x := by
    have hone := count_trade_le now b x
    have hall := h.count_le x
    omega
  nodup hs := nodup_trade (h.nodup hs) b
  stays := by
    have hrest : untouched start (bundles ++ [b]) =
        Collection.lose (untouched start bundles) b.itemsLost := by
      simp [untouched, Collection.lose, List.filter_filter, or_imp, forall_and, and_comm]
    rw [hrest]
    exact (h.stays.filter _).trans (lose_isPrefix_trade now b)

theorem possession_trades (start : List String) (bundles : List Changes) :
    Possession start bundles (trades start bundles) := by
  -- The last bundle is split off, since it is the one that decides.
  induction bundles using List.reverseRecOn with
  | nil => exact possession_nil start
  | append_singleton bundles b ih =>
    rw [trades_concat]
    exact ih.concat b

end Changes

/-! ## The two books -/

theorem Chronicle.items_applyAll (s : Chronicle) (bundles : List Changes) :
    (s.applyAll bundles).items = Changes.trades s.items bundles := by
  induction bundles generalizing s with
  | nil => rfl
  | cons b rest ih => exact ih (s.apply b)

namespace Character

variable {c d : Character} {ms : List Moment}

theorem live_cons {m : Moment} {events : List Event} (hm : c.apply m.1 m.2 = .done (d, events)) :
    c.live (m :: ms) = d.live ms := by
  rw [live, hm]

/-- A run comes to its end just if its first turn is made and the rest comes to its end. -/
theorem live_cons_eq_done {m : Moment} :
    c.live (m :: ms) = .done d ↔
      ∃ e events, c.apply m.1 m.2 = .done (e, events) ∧ e.live ms = .done d := by
  constructor
  · intro h
    cases hm : c.apply m.1 m.2 with
    | done r => exact ⟨r.1, r.2, rfl, by rwa [live_cons hm] at h⟩
    | failed f =>
      rw [live, hm] at h
      cases h
    | endless =>
      rw [live, hm] at h
      cases h
  · rintro ⟨e, events, hm, he⟩
    exact (live_cons hm).trans he

theorem inventory_live (h : c.live ms = .done d) :
    d.inventory = Changes.trades c.inventory (ms.map Prod.fst) := by
  induction ms generalizing c with
  | nil =>
    cases h
    rfl
  | cons m rest ih =>
    obtain ⟨e, events, hm, he⟩ := live_cons_eq_done.1 h
    have hfirst : e.inventory = Changes.trade c.inventory m.1 := apply_inventory hm
    rw [ih he, hfirst]
    rfl

/-- A run of turns that does not come to its end: at one of them the damage is refused, or the climb
never ends. -/
inductive Stops (c : Character) (ms : List Moment) : Prop where
  | refused (earlier later : List Moment) (m : Moment) (d : Character)
      (split : ms = earlier ++ m :: later) (before : c.live earlier = .done d)
      (damage : ∀ n, m.2 = .number n → ¬ n.isIntegerFrom 0)
      (stop : c.live ms = .failed (.fault (.invalidSelfDamage m.2)))
  | endless (earlier later : List Moment) (m : Moment) (d : Character)
      (split : ms = earlier ++ m :: later) (before : c.live earlier = .done d)
      (climb : d.advance m.1.experienceGained = none) (stop : c.live ms = .endless)

/-- Damage is accepted, or it is named in the refusal. -/
theorem checkSelfDamage_cases (v : Value) :
    (∃ n, checkSelfDamage v = .ok n) ∨ checkSelfDamage v = .error (.invalidSelfDamage v) := by
  cases v with
  | number n =>
    unfold checkSelfDamage
    by_cases hn : n.isIntegerFrom 0
    · exact .inl ⟨n, if_pos hn⟩
    · exact .inr (if_neg hn)
  | _ => exact .inr rfl

/-- **A turn** is made, or it is refused for its damage, or it never ends for its climb. -/
theorem apply_cases (c : Character) (m : Moment) :
    (∃ d events, c.apply m.1 m.2 = .done (d, events)) ∨
      ((∀ n, m.2 = .number n → ¬ n.isIntegerFrom 0) ∧
        c.apply m.1 m.2 = .failed (.fault (.invalidSelfDamage m.2))) ∨
      (c.advance m.1.experienceGained = none ∧ c.apply m.1 m.2 = .endless) := by
  rcases checkSelfDamage_cases m.2 with ⟨n, hn⟩ | hrefused
  · cases hr : c.advance m.1.experienceGained with
    | none => exact .inr (.inr ⟨rfl, by rw [apply, hn, hr]⟩)
    | some r => exact .inl ⟨_, r.2, apply_eq_done.2 ⟨n, r.1, hn, hr, rfl⟩⟩
  · refine .inr (.inl ⟨fun n hm hn => ?_, by rw [apply, hrefused]⟩)
    rw [checkSelfDamage_eq_ok.2 ⟨hm, hn⟩] at hrefused
    cases hrefused

theorem Stops.cons {m : Moment} {events : List Event} (hm : c.apply m.1 m.2 = .done (d, events))
    (h : d.Stops ms) : c.Stops (m :: ms) := by
  cases h with
  | refused earlier later n e split before damage stop =>
    exact .refused (m :: earlier) later n e (by rw [split]; rfl) ((live_cons hm).trans before) damage
      ((live_cons hm).trans stop)
  | endless earlier later n e split before climb stop =>
    exact .endless (m :: earlier) later n e (by rw [split]; rfl) ((live_cons hm).trans before) climb
      ((live_cons hm).trans stop)

theorem Stops.not_done (h : c.Stops ms) (d : Character) : c.live ms ≠ .done d := by
  intro hd
  cases h with
  | refused earlier later m e split before damage stop =>
    rw [stop] at hd
    cases hd
  | endless earlier later m e split before climb stop =>
    rw [stop] at hd
    cases hd

/-- **A run of turns** comes to its end, or stops at a turn that is refused or never ends. -/
theorem done_or_stops (c : Character) (ms : List Moment) :
    (∃ d, c.live ms = .done d) ∨ c.Stops ms := by
  induction ms generalizing c with
  | nil => exact .inl ⟨c, rfl⟩
  | cons m rest ih =>
    rcases c.apply_cases m with ⟨d, events, hm⟩ | ⟨hdamage, hm⟩ | ⟨hclimb, hm⟩
    · rcases ih d with ⟨e, he⟩ | hstops
      · exact .inl ⟨e, live_cons_eq_done.2 ⟨d, events, hm, he⟩⟩
      · exact .inr (hstops.cons hm)
    · exact .inr (.refused [] rest m c rfl rfl hdamage (by rw [live, hm]))
    · exact .inr (.endless [] rest m c rfl rfl hclimb (by rw [live, hm]))

/-- **Who has what after a run of turns.** In either book, the chronicle's or the character's, an
item is listed just if the last bundle that mentions it gains it and does not lose it, or if no
bundle mentions it and it was listed before. No repetition is brought in, so a list without any stays
without; and the items that no bundle takes away stand in front, in their old order. The chronicle
is always written; the character's run may stop at a turn that is refused for its damage or that
never ends, and only there. -/
theorem possession_of_run (c : Character) (s : Chronicle) (ms : List Moment) :
    let bundles := ms.map Prod.fst
    Changes.Possession s.items bundles (s.applyAll bundles).items ∧
      ((∃ d, c.live ms = .done d ∧ Changes.Possession c.inventory bundles d.inventory) ∨
        c.Stops ms) := by
  intro bundles
  constructor
  · rw [Chronicle.items_applyAll]
    exact Changes.possession_trades s.items bundles
  · rcases c.done_or_stops ms with ⟨d, hd⟩ | hstops
    · refine .inl ⟨d, hd, ?_⟩
      rw [inventory_live hd]
      exact Changes.possession_trades c.inventory bundles
    · exact .inr hstops

/-- A torch that was held twice is lost and found again, and a gem is won and lost at once. -/
theorem possession_of_run_of_a_burglary :
    let hero : Character := ⟨"c1", "Mira", 1, 40, 100, 70, 70, ["torch", "rope", "torch"]⟩
    let heist : Moment := (⟨-5, 350, ["key", "key", "rope"], ["torch"], none, [], []⟩, .number 3)
    let chase : Moment := (⟨4, 0, ["torch", "gem"], ["gem"], none, [], []⟩, .number 0)
    ∃ d, hero.live [heist, chase] = .done d ∧ d.inventory = ["rope", "key", "torch"] ∧
      Changes.Possession hero.inventory [heist.1, chase.1] d.inventory := by
  intro hero heist chase
  have hlive : hero.live [heist, chase] =
      .done ⟨"c1", "Mira", 3, 116, 120, 420, 120, ["rope", "key", "torch"]⟩ := by decide +kernel
  obtain ⟨-, ⟨d, hd, hpossession⟩ | hstops⟩ := possession_of_run hero .empty [heist, chase]
  · obtain rfl := Outcome.done.inj (hlive.symm.trans hd)
    exact ⟨_, hd, rfl, hpossession⟩
  · exact absurd hlive (hstops.not_done _)

/-- **The two books never drift apart.** If the character's inventory is the list of the chronicle's
items, it is still the same list after every turn of a run, whatever else the turns do, for as long
as the character's turns are made. -/
theorem inventory_eq_items {s : Chronicle} (h : s.items = c.inventory) (ms : List Moment) (n : Nat) :
    (∃ d, c.live (ms.take n) = .done d ∧
        d.inventory = (s.applyAll ((ms.take n).map Prod.fst)).items) ∨
      c.Stops (ms.take n) := by
  rcases c.done_or_stops (ms.take n) with ⟨d, hd⟩ | hstops
  · refine .inl ⟨d, hd, ?_⟩
    rw [inventory_live hd, Chronicle.items_applyAll, h]
  · exact .inr hstops

/-- Two books that list the torch twice, a key that is lost in the turn in which it is found, and a
turn that cannot be made: it brings damage of a half. -/
theorem inventory_eq_items_until_a_refusal :
    let hero : Character := ⟨"c1", "Mira", 1, 40, 100, 70, 70, ["torch", "rope", "torch"]⟩
    let s : Chronicle := ⟨["torch", "rope", "torch"], ["gate"], [], []⟩
    let raid : Moment := (⟨-5, 350, ["key", "rope", "lamp"], ["key"], none, [], []⟩, .number 3)
    let rest : Moment := (⟨4, 0, [], ["torch"], some "camp", [], []⟩, .number 0)
    let slip : Moment := (⟨0, 0, ["coin"], [], none, [], []⟩, .number (.finite (1 / 2)))
    let now := ["rope", "lamp"]
    s.items = hero.inventory ∧
      (∃ d, hero.live ([raid, rest, slip].take 2) = .done d ∧ d.inventory = now ∧
        (s.applyAll [raid.1, rest.1]).items = now) ∧
      hero.Stops ([raid, rest, slip].take 3) := by
  intro hero s raid rest slip now
  have htwo : hero.live [raid, rest] =
      .done ⟨"c1", "Mira", 3, 116, 120, 420, 120, now⟩ := by decide +kernel
  have hthree : ∀ d, hero.live [raid, rest, slip] ≠ .done d := by
    intro d hd
    have hfails : hero.live [raid, rest, slip] =
        .failed (.fault (.invalidSelfDamage (.number (.finite (1 / 2))))) := by decide +kernel
    rw [hfails] at hd
    cases hd
  refine ⟨rfl, ?_, ?_⟩
  · rcases inventory_eq_items (c := hero) (s := s) rfl [raid, rest, slip] 2 with
      ⟨d, hd, hitems⟩ | hstops
    · obtain rfl := Outcome.done.inj (htwo.symm.trans hd)
      exact ⟨_, hd, rfl, hitems.symm⟩
    · exact absurd htwo (hstops.not_done _)
  · rcases inventory_eq_items (c := hero) (s := s) rfl [raid, rest, slip] 3 with ⟨d, hd, -⟩ | hstops
    · exact absurd hd (hthree d)
    · exact hstops

end Character

end Adventure
