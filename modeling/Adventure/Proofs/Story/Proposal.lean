import Adventure.Narrative.Parser
import Adventure.Proofs.Check.Perform
import Adventure.Proofs.Story.Character
import Adventure.Proofs.Story.Reconcile
/-!
# What a reader of texts proposes

Whatever a narrator's text says, what is read from it is a bundle with integers in the places of
numbers (`wellFormed_ofText`), and such a bundle passes the check of proposals (`ofValue?_toValue`).
So it is reconciled with every check that can be paid for (`reconcile_of_wellFormed`), and what then
is to be suffered fails no turn (`Character.apply_ne_failed`).
-/

namespace Adventure

namespace Changes

/-- The numbers of a bundle are integers, and nobody loses experience. -/
structure WellFormed (c : Changes) : Prop where
  hpChange : c.hpChange.isInteger
  experienceGained : c.experienceGained.isIntegerFrom 0

theorem wellFormed_nothing : nothing.WellFormed := ⟨by decide, by decide⟩

/-- A well-formed bundle passes the check, whatever its texts are. -/
theorem ofValue?_toValue {c : Changes} (h : c.WellFormed) : ofValue? c.toValue = .ok c := by
  refine ofValue?_eq_ok.2 ⟨c.toFields, rfl, ?_, ?_, Shape.textList_texts _, Shape.textList_texts _,
    Shape.textOrNull_ofText? _, Shape.textList_texts _, Shape.textList_texts _⟩
  · obtain ⟨z, hz⟩ := Number.isInteger_iff.1 h.hpChange
    exact Shape.integer_eq_ok.2 ⟨z, hz, congrArg Value.number hz⟩
  · obtain ⟨z, hz, hpos⟩ := (Number.isIntegerFrom_iff (n := 0)).1 h.experienceGained
    refine Shape.number_integer_eq_ok.2 ⟨z, rfl, hz, ?_⟩
    rw [List.forall_mem_singleton, hz]
    exact Shape.problem?_atLeast.2 (by exact_mod_cast hpos)

end Changes

namespace Response

theorem isInteger_lenientInteger (v : Value) : (lenientInteger v).isInteger := by
  unfold lenientInteger
  split
  · split
    · assumption
    · decide
  · decide

theorem isIntegerFrom_lenientCount (v : Value) : (lenientCount v).isIntegerFrom 0 := by
  unfold lenientCount
  split
  · split
    · assumption
    · decide
  · decide

theorem wellFormed_decodeChanges (v : Value) : (decodeChanges v).WellFormed := by
  unfold decodeChanges
  split
  · exact ⟨isInteger_lenientInteger _, isIntegerFrom_lenientCount _⟩
  · exact Changes.wellFormed_nothing

/-- A text is read as a part of it that is accepted, or as a narration. -/
theorem ofText_cases (s : String) :
    (∃ cs, ofCandidate? cs = some (ofText s).1) ∨ (ofText s).1 = plain s.toList := by
  unfold ofText
  dsimp only
  split
  · rename_i r hr
    obtain ⟨cs, -, hcs⟩ := List.exists_of_findSome?_eq_some hr
    exact .inl ⟨cs, hcs⟩
  · exact .inr rfl

/-- What a text proposes is read from a value in the agreed form, or it is nothing. -/
theorem changes_ofText (s : String) :
    (∃ v, (ofText s).1.changes = decodeChanges v) ∨ (ofText s).1.changes = .nothing := by
  rcases ofText_cases s with ⟨cs, hcs⟩ | hplain
  · obtain ⟨v, -, hv⟩ := Option.bind_eq_some_iff.1 hcs
    cases v with
    | object fields =>
      obtain ⟨narrative, -, hr⟩ := Option.map_eq_some_iff.1 hv
      exact .inl ⟨_, by rw [← hr]⟩
    | _ => cases hv
  · exact .inr (by rw [hplain]; rfl)

/-- **Every text is read as a well-formed proposal.** -/
theorem wellFormed_ofText (s : String) : (ofText s).1.changes.WellFormed := by
  rcases changes_ofText s with ⟨v, hv⟩ | hnothing
  · rw [hv]
    exact wellFormed_decodeChanges v
  · rw [hnothing]
    exact Changes.wellFormed_nothing

end Response

/-! ## The damage of a check -/

/-- A fumble comes with damage that can be suffered. -/
def Resolution.Payable (r : Resolution) : Prop :=
  r.isFumble → ∃ n : Int, 0 ≤ n ∧ r.damage = some (.finite n)

theorem Resolution.payable_ofParts {roll modifier target : Number} {c : Category}
    {damage : Option Number} (h : Hurts (labelOf roll (roll + modifier) target) damage) :
    (ofParts roll modifier target c damage).Payable := by
  intro hfumble
  have hlabel : labelOf roll (roll + modifier) target = .fumble := of_decide_eq_true hfumble
  rw [hlabel] at h
  exact h

theorem Verdict.isFumble_of_forcesDamage {r : Resolution} {used : Bool}
    (h : (Verdict.of r used).rule.forcesDamage) : r.isFumble := by
  unfold Verdict.of at h
  split at h
  · cases h
  · split at h
    · cases h
    · split at h
      · assumption
      · cases h

theorem Reconciled.forcedDamage_of_payable {r : Resolution} (h : r.Payable) (used : Bool) :
    ∃ n : Int, 0 ≤ n ∧
      forcedDamage (Verdict.of r used).rule r = .ok (.number (.finite n)) := by
  unfold forcedDamage
  split
  · rename_i hforced
    obtain ⟨n, hn, hd⟩ := h (Verdict.isFumble_of_forcesDamage hforced)
    refine ⟨n, hn, ?_⟩
    simp [CheckReport.damage, hd, Value.ofNumber?]
  · exact ⟨0, le_refl 0, rfl⟩

/-- **A proposal that is accepted is reconciled** with every check that can be paid for, and what is
to be suffered is an integer that is not negative. -/
theorem reconcile_of_payable {r : Resolution} {c : Changes} {proposed : Value} (hr : r.Payable)
    (hc : Changes.ofValue? proposed = .ok c) (flag : Value) :
    ∃ out remarks, reconcile r flag proposed = .ok (out, remarks) ∧
      ∃ n : Int, 0 ≤ n ∧ out.selfDamage = .number (.finite n) := by
  obtain ⟨n, hn, hforced⟩ := Reconciled.forcedDamage_of_payable hr flag.isTrue
  let verdict := Verdict.of r flag.isTrue
  let out : Reconciled Resolution :=
    ⟨verdict, if verdict.rule.blocksProgress then c.blocked else c,
      if verdict.rule.showsCheck then some r else none, .number (.finite n)⟩
  exact ⟨out, _, reconcile_eq_ok.2 ⟨c, hc, rfl, rfl, rfl, hforced, rfl⟩, n, hn, rfl⟩

/-- A well-formed proposal is accepted. -/
theorem reconcile_of_wellFormed {r : Resolution} {c : Changes} (hr : r.Payable) (hc : c.WellFormed)
    (flag : Value) :
    ∃ out remarks, reconcile r flag c.toValue = .ok (out, remarks) ∧
      ∃ n : Int, 0 ≤ n ∧ out.selfDamage = .number (.finite n) :=
  reconcile_of_payable hr (Changes.ofValue?_toValue hc) flag

/-- Damage that is an integer and not negative passes its check. -/
theorem Character.checkSelfDamage_intCast {n : Int} (hn : 0 ≤ n) :
    checkSelfDamage (.number (.finite n)) = .ok (.finite n) :=
  checkSelfDamage_eq_ok.2 ⟨rfl, (Number.isIntegerFrom_iff (n := 0)).2 ⟨n, rfl, by exact_mod_cast hn⟩⟩

/-- Damage that is an integer fails no turn of a character; only a climb may have no end. -/
theorem Character.apply_ne_failed {n : Int} (hn : 0 ≤ n) (c : Character) (changes : Changes)
    (f : Failure) : c.apply changes (.number (.finite n)) ≠ .failed f := by
  unfold apply
  rw [checkSelfDamage_intCast hn]
  dsimp only
  split <;> simp

end Adventure
