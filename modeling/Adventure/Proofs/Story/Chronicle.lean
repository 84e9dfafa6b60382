import Adventure.Story.Chronicle
import Mathlib.Data.List.Basic
/-!
# A chronicle only grows

The people met, the things found and the places visited are written down in the order in which they
come up for the first time, and nothing of it is ever taken back (`applyAll_appends`). What a bundle
adds depends on the list as it is by then, which has grown by the bundles before it; still the list
comes out as if all bundles had been read at once (`part_applyAll`), so it is enough to say what one
long reading adds (`appends_gain`).
-/

namespace Adventure

/-! ## What comes up for the first time -/

namespace Collection

variable {seen said new : List String} {x : String}

/-- What is said and has not been seen before, each thing once, where it is said first. -/
structure FirstSaid (seen said new : List String) : Prop where
  mem : ∀ x, x ∈ new ↔ x ∈ said ∧ x ∉ seen
  nodup : new.Nodup
  order : new.Pairwise fun x y => said.idxOf x < said.idxOf y

/-- A list with what is said first written down behind it. -/
def Appends (old said now : List String) : Prop :=
  ∃ new, now = old ++ new ∧ FirstSaid old said new

theorem Appends.isPrefix {old now : List String} (h : Appends old said now) : old <+: now := by
  obtain ⟨new, rfl, -⟩ := h
  exact List.prefix_append old new

/-- One word before the others does not change their order. -/
theorem pairwise_idxOf_cons (h : new.Pairwise fun y z => said.idxOf y < said.idxOf z)
    (hx : x ∉ new) : new.Pairwise fun y z => (x :: said).idxOf y < (x :: said).idxOf z := by
  refine h.imp_of_mem fun {y z} hy hz hlt => ?_
  have hxy : x ≠ y := fun he => hx (he ▸ hy)
  have hxz : x ≠ z := fun he => hx (he ▸ hz)
  rw [List.idxOf_cons_ne said hxy, List.idxOf_cons_ne said hxz]
  omega

theorem firstSaid_nil (seen : List String) : FirstSaid seen [] [] := ⟨by simp, by simp, by simp⟩

/-- What has been seen is passed over. -/
theorem FirstSaid.pass (h : FirstSaid seen said new) (hx : x ∈ seen) :
    FirstSaid seen (x :: said) new where
  mem y := by
    rw [h.mem, List.mem_cons]
    constructor
    · exact fun ⟨hy, hn⟩ => ⟨.inr hy, hn⟩
    · rintro ⟨rfl | hy, hn⟩
      · exact absurd hx hn
      · exact ⟨hy, hn⟩
  nodup := h.nodup
  order := pairwise_idxOf_cons h.order fun hn => ((h.mem x).1 hn).2 hx

/-- What has not been seen comes first, and has been seen from then on. -/
theorem FirstSaid.note (h : FirstSaid (seen ++ [x]) said new) (hx : x ∉ seen) :
    FirstSaid seen (x :: said) (x :: new) := by
  have hnew : x ∉ new := fun hn => ((h.mem x).1 hn).2 (by simp)
  refine ⟨fun y => ?_, List.nodup_cons.2 ⟨hnew, h.nodup⟩, List.pairwise_cons.2 ⟨fun y hy => ?_, ?_⟩⟩
  · by_cases hy : y = x
    · simp [hy, hx]
    · simp [hy, h.mem]
  · have hxy : x ≠ y := fun he => hnew (he ▸ hy)
    rw [List.idxOf_cons_self, List.idxOf_cons_ne said hxy]
    omega
  · exact pairwise_idxOf_cons h.order hnew

/-- **Gains are appended**, each where it comes up first. -/
theorem appends_gain (old said : List String) : Appends old said (gain old said) := by
  induction said generalizing old with
  | nil => exact ⟨[], by simp, firstSaid_nil old⟩
  | cons x rest ih =>
    by_cases hx : x ∈ old
    · obtain ⟨new, hgain, hnew⟩ := ih old
      exact ⟨new, by rw [gain_cons, gainOne, if_pos hx, hgain], hnew.pass hx⟩
    · obtain ⟨new, hgain, hnew⟩ := ih (old ++ [x])
      exact ⟨x :: new, by rw [gain_cons, gainOne, if_neg hx, hgain]; simp, hnew.note hx⟩

end Collection

/-! ## Many turns -/

namespace Chronicle

open Collection

/-- The chronicle after several turns. -/
def applyAll (s : Chronicle) (bundles : List Changes) : Chronicle := bundles.foldl apply s

@[simp] theorem applyAll_nil (s : Chronicle) : s.applyAll [] = s := rfl

@[simp] theorem applyAll_cons (s : Chronicle) (b : Changes) (bundles : List Changes) :
    s.applyAll (b :: bundles) = (s.apply b).applyAll bundles := rfl

/-- A part of the chronicle that every bundle adds to is read as if the bundles were one. -/
theorem part_applyAll {part : Chronicle → List String} {said : Changes → List String}
    (h : ∀ s b, part (apply s b) = gain (part s) (said b)) (s : Chronicle)
    (bundles : List Changes) : part (s.applyAll bundles) = gain (part s) (bundles.flatMap said) := by
  induction bundles generalizing s with
  | nil => simp
  | cons b rest ih => rw [applyAll_cons, ih, h, List.flatMap_cons, gain_append]

/-- Where every place has a name, the places that are added are the places that are led to. -/
theorem flatMap_reached {bundles : List Changes} (h : ∀ b ∈ bundles, b.location ≠ some "") :
    (bundles.flatMap fun b => reached b.location) = bundles.filterMap Changes.location := by
  induction bundles with
  | nil => rfl
  | cons b rest ih =>
    rw [List.forall_mem_cons] at h
    obtain ⟨hb, hrest⟩ := h
    rw [List.flatMap_cons, ih hrest]
    cases hl : b.location with
    | none => simp [reached, hl]
    | some place =>
      have hplace : place ≠ "" := fun he => hb (by rw [hl, he])
      simp [reached, hl, hplace]

/-- **The chronicle is append-only.** After any number of turns that lead to places with a name, the
people met, the things found and the places visited are the old lists, and behind them whatever the
turns have added that was not there, each once and in the order in which it came up first. So the
old lists are prefixes of the new ones; and one bundle with everything that the bundles say, or one
reading of all their places, leads to the same lists. -/
theorem applyAll_appends (s : Chronicle) (bundles : List Changes)
    (hnames : ∀ b ∈ bundles, b.location ≠ some "") :
    let now := s.applyAll bundles
    let met := bundles.flatMap Changes.npcsMet
    let found := bundles.flatMap Changes.discoveries
    let places := bundles.filterMap Changes.location
    (Appends s.metNpcs met now.metNpcs ∧ Appends s.discoveries found now.discoveries ∧
      Appends s.visitedLocations places now.visitedLocations) ∧
    (s.metNpcs <+: now.metNpcs ∧ s.discoveries <+: now.discoveries ∧
      s.visitedLocations <+: now.visitedLocations) ∧
    (∀ whole : Changes, whole.npcsMet = met → whole.discoveries = found →
      (s.apply whole).metNpcs = now.metNpcs ∧ (s.apply whole).discoveries = now.discoveries) ∧
    gain s.visitedLocations places = now.visitedLocations := by
  intro now met found places
  have hmet : now.metNpcs = gain s.metNpcs met := part_applyAll (fun _ _ => rfl) s bundles
  have hfound : now.discoveries = gain s.discoveries found :=
    part_applyAll (fun _ _ => rfl) s bundles
  have hplaces : now.visitedLocations = gain s.visitedLocations places := by
    show _ = gain _ (bundles.filterMap Changes.location)
    rw [← flatMap_reached hnames]
    exact part_applyAll (fun _ _ => rfl) s bundles
  have happends : Appends s.metNpcs met now.metNpcs ∧ Appends s.discoveries found now.discoveries ∧
      Appends s.visitedLocations places now.visitedLocations := by
    rw [hmet, hfound, hplaces]
    exact ⟨appends_gain _ _, appends_gain _ _, appends_gain _ _⟩
  refine ⟨happends, ⟨happends.1.isPrefix, happends.2.1.isPrefix, happends.2.2.isPrefix⟩, ?_,
    hplaces.symm⟩
  rintro whole hm hf
  exact ⟨by rw [hmet, ← hm]; rfl, by rw [hfound, ← hf]; rfl⟩

/-- Two visits to the vault, and the guard among people who were met before: a name that comes up
twice, in one bundle or in two, or that was there from the beginning, is written down once. -/
theorem applyAll_appends_among_old_friends :
    let s : Chronicle := ⟨["torch"], ["gate"], ["merchant"], []⟩
    let bundles : List Changes :=
      [⟨0, 0, [], [], some "vault", ["guard", "merchant", "guard"], ["map"]⟩,
        ⟨0, 0, [], [], none, ["smith", "guard"], ["key", "map"]⟩,
        ⟨0, 0, [], [], some "vault", ["smith"], []⟩]
    let now := s.applyAll bundles
    (∀ b ∈ bundles, b.location ≠ some "") ∧
      Appends ["merchant"] ["guard", "merchant", "guard", "smith", "guard", "smith"] now.metNpcs ∧
      now.metNpcs = ["merchant", "guard", "smith"] ∧ ["merchant"] <+: now.metNpcs ∧
      now.discoveries = ["map", "key"] ∧ now.visitedLocations = ["gate", "vault"] := by
  intro s bundles now
  have hnames : ∀ b ∈ bundles, b.location ≠ some "" := by decide
  obtain ⟨⟨hmet, -, -⟩, ⟨hfront, -, -⟩, -⟩ := applyAll_appends s bundles hnames
  exact ⟨hnames, hmet, by decide, hfront, by decide, by decide⟩

end Chronicle

end Adventure
