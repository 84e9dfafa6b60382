import Adventure.Proofs.Check.Rule
import Adventure.Proofs.Number.Exact
import Adventure.Proofs.Number.Numeral
import Adventure.Proofs.Story.Decision
import Adventure.Proofs.Text.Search
/-!
# Which resolutions there are

A resolution is created from exactly the consistent drafts (`exists_create_iff`): what its parts have
to pass is said by the parts alone (`Draft.Consistent`). What was created is of one piece
(`Coherent`): the flags exclude and imply each other as they should, the summary can be read back by
a reader who knows nothing but the words between the numbers (`Summary.read?`), and no verdict on it
misses its damage. Both together are `create_accepts_consistent_drafts`.
-/

namespace Adventure

namespace Resolution

variable {damage : Option Number} {label : Label} {d : Draft} {r : Resolution}

/-! ## Drafts -/

/-- A draft of which a resolution can be made. Damage belongs to the outermost rolls, and to no
other. -/
structure Draft.Consistent (d : Draft) : Prop where
  roll : ∃ n : Int, d.roll = .number (.finite n) ∧ 1 ≤ n ∧ n ≤ 20
  modifier : ∃ n : Int, d.modifier = .number (.finite n) ∧ 0 ≤ n
  target : ∃ n : Int, d.target = .number (.finite n) ∧ 1 ≤ n
  category : ∃ name ∈ ["COMBAT", "SKILL", "SOCIAL", "EXPLORATION"], d.category = .string name
  damage : if d.roll = .number 20 ∨ d.roll = .number 1 then
      ∃ n : Int, d.damage = .number (.finite n) ∧ 0 ≤ n
    else d.damage = .null

/-- The outermost rolls hurt, and no other. -/
theorem hurts_labelOf_iff {face : Int} {total target : Number} :
    Hurts (labelOf (.finite face) total target) damage ↔
      if face = 20 ∨ face = 1 then ∃ n : Int, 0 ≤ n ∧ damage = some (.finite n)
      else damage = none := by
  rw [labelOf_intCast]
  by_cases htwenty : face = 20
  · rw [if_pos htwenty, if_pos (.inl htwenty)]
    rfl
  by_cases hone : face = 1
  · rw [if_neg htwenty, if_pos hone, if_pos (.inr hone)]
    rfl
  rw [if_neg htwenty, if_neg hone, if_neg (not_or_intro htwenty hone)]
  split <;> rfl

/-- In a draft, a roll is an outermost one just if its face is. -/
theorem outermost_iff {face : Int} :
    (Value.number (.finite face) = .number 20 ∨ Value.number (.finite face) = .number 1) ↔
      face = 20 ∨ face = 1 := by
  rw [Value.number.injEq, Value.number.injEq]
  exact or_congr eq_criticalRoll_iff eq_fumbleRoll_iff

/-- **Consistent drafts are accepted, and no others.** -/
theorem exists_create_iff : (∃ r, create d = .ok r) ↔ d.Consistent := by
  constructor
  · rintro ⟨r, h⟩
    obtain ⟨roll, modifier, target, c, damage, rfl, hroll, hmodifier, htarget, hhurts, -⟩ :=
      create_eq_ok.1 h
    obtain ⟨face, rfl, hface⟩ := Number.isIntegerIn_iff.1 hroll
    obtain ⟨m, rfl, hm⟩ := (Number.isIntegerFrom_iff (n := 0)).1 hmodifier
    obtain ⟨t, rfl, ht⟩ := (Number.isIntegerFrom_iff (n := 1)).1 htarget
    refine ⟨⟨face, rfl, hface⟩, ⟨m, rfl, hm⟩, ⟨t, rfl, ht⟩,
      ⟨c.name, Category.mem_names_iff.2 ⟨c, rfl⟩, rfl⟩, ?_⟩
    simp only [outermost_iff]
    have hhurts := hurts_labelOf_iff.1 hhurts
    split
    · rw [if_pos ‹_›] at hhurts
      obtain ⟨n, hn, rfl⟩ := hhurts
      exact ⟨n, rfl, hn⟩
    · rw [if_neg ‹_›] at hhurts
      rw [hhurts]
      rfl
  · rintro ⟨⟨face, hroll, hface⟩, ⟨m, hmodifier, hm⟩, ⟨t, htarget, ht⟩, ⟨name, hname, hcategory⟩,
      hdamage⟩
    obtain ⟨c, rfl⟩ := Category.mem_names_iff.1 hname
    obtain ⟨damage, hd, hhurts⟩ : ∃ damage, d.damage = .ofNumber? damage ∧
        Hurts (labelOf (.finite face) (.finite face + .finite m) (.finite t)) damage := by
      simp only [hroll, outermost_iff] at hdamage
      simp only [hurts_labelOf_iff]
      split
      · rw [if_pos ‹_›] at hdamage
        obtain ⟨n, hn, hpos⟩ := hdamage
        exact ⟨some (.finite n), hn, n, hpos, rfl⟩
      · rw [if_neg ‹_›] at hdamage
        exact ⟨none, hdamage, rfl⟩
    refine ⟨_, create_eq_ok.2 ⟨.finite face, .finite m, .finite t, c, damage, ?_,
      Number.isIntegerIn_iff.2 ⟨face, rfl, hface⟩, (Number.isIntegerFrom_iff (n := 0)).2 ⟨m, rfl, hm⟩,
      (Number.isIntegerFrom_iff (n := 1)).2 ⟨t, rfl, ht⟩, hhurts, rfl⟩⟩
    rw [← hroll, ← hmodifier, ← htarget, ← hcategory, ← hd]

/-! ## Summaries -/

/-- What a summary says. -/
structure Summary where
  modifier : Number
  total : Number
  target : Number
  label : Label
deriving DecidableEq

def labels : List Label := [.critical, .fumble, .success, .failure]

/-- Reads a summary: three numbers and a label, with these words before and between them. -/
def Summary.read? (s : String) : Option Summary := do
  let cs ← Text.after? "🎲 1d20+".toList s.toList
  let (modifier, cs) ← Numeral.readJson cs
  let cs ← Text.after? " = ".toList cs
  let (total, cs) ← Numeral.readJson cs
  let cs ← Text.after? " vs DC ".toList cs
  let (target, cs) ← Numeral.readJson cs
  let cs ← Text.after? " → ".toList cs
  let label ← labels.find? fun label => label.text = String.ofList cs
  return ⟨modifier, total, target, label⟩

theorem toList_summarize (roll modifier target : Number) :
    let total := roll + modifier
    let label := labelOf roll total target
    (summarize roll modifier target).toList =
      "🎲 1d20+".toList ++ (modifier.chars ++ (" = ".toList ++ (total.chars ++
        (" vs DC ".toList ++ (target.chars ++ (" → ".toList ++ label.text.toList)))))) := by
  intro total label
  have hline : summarize roll modifier target =
    s!"🎲 1d20+{modifier.text} = {total.text} vs DC {target.text} → {label.text}" := rfl
  simp only [hline, String.toList_append, Number.text, String.toList_ofList, toString,
    List.append_assoc]

/-- No two labels have one text. -/
theorem find?_labels (label : Label) :
    labels.find? (fun other => other.text = String.ofList label.text.toList) = some label := by
  rw [String.ofList_toList]
  cases label <;> decide

/-- A blank ends the number before it. -/
theorem stops_blank (cs : List Char) : Numeral.Stops (' ' :: cs) := by
  intro c hc
  cases hc
  decide

/-- **A summary is read back**, if its numbers are held and have a value. -/
theorem read?_summarize {roll : Number} {modifier total target : Rat}
    (hm : Number.Held (.finite modifier)) (ht : Number.Held (.finite target))
    (htotal : roll + .finite modifier = .finite total) (hheld : Number.Held (.finite total)) :
    Summary.read? (summarize roll (.finite modifier) (.finite target)) =
      some ⟨.finite modifier, roll + .finite modifier, .finite target,
        labelOf roll (roll + .finite modifier) (.finite target)⟩ := by
  have hread {x : Rat} (h : Number.Held (.finite x)) (words cs : List Char) :
      Numeral.readJson ((Number.finite x).chars ++ (' ' :: words ++ cs)) =
        some (.finite x, ' ' :: words ++ cs) := Numeral.readJson_chars h (stops_blank _)
  have hequals : " = ".toList = ' ' :: "= ".toList := rfl
  have hversus : " vs DC ".toList = ' ' :: "vs DC ".toList := rfl
  have harrow : " → ".toList = ' ' :: "→ ".toList := rfl
  unfold Summary.read?
  simp only [toList_summarize, htotal, Option.bind_eq_bind, Option.bind_some, Text.after?_append,
    hequals, hversus, harrow, hread hm, hread hheld, hread ht, find?_labels]
  rfl

/-! ## What was created -/

/-- A resolution is of one piece, and made of a draft. Its total is the sum of roll and modifier,
rounded once, which is the sum in the integers unless the total leaves the range of exact ones. -/
structure Coherent (d : Draft) (r : Resolution) : Prop where
  kept : d = ⟨.number r.roll, .number r.modifier, .number r.target, .string r.category.name,
    .ofNumber? r.damage⟩
  total : r.total = r.roll + r.modifier
  totalExact : r.total.isSmall → ∃ roll modifier : Int, r.roll = .finite roll ∧
    r.modifier = .finite modifier ∧ r.total = .finite (roll + modifier : Int)
  apart : ¬ (r.isCritical ∧ r.isFumble)
  critical : r.isCritical → r.isSuccess
  fumble : r.isFumble → ¬ r.isSuccess
  hurts : r.damage ≠ none ↔ r.isCritical ∨ r.isFumble
  summary : r.modifier.isSmall → r.target.isSmall →
    Summary.read? r.summary = some ⟨r.modifier, r.total, r.target, r.outcome⟩
  paid : ∀ flag proposed, reconcile r flag proposed ≠ .error .fumbleWithoutDamage
  settled : ∀ flag proposed p, Changes.ofValue? proposed = .ok p →
    ∃ out remarks, reconcile r flag proposed = .ok (out, remarks)

theorem exists_damage_iff (h : Hurts label damage) :
    damage ≠ none ↔ label = .critical ∨ label = .fumble := by
  unfold Hurts at h
  cases label with
  | critical | fumble =>
    obtain ⟨n, -, rfl⟩ := h
    simp
  | success | failure =>
    obtain rfl : damage = none := h
    simp

theorem held_of_isSmall {z : Int} (h : (Number.finite z).isSmall) : Number.Held (.finite z) :=
  Number.ofRat_intCast (Number.isSmall_intCast.1 h).le

/-- A total has a value as long as the modifier is exact. It may be rounded itself. -/
theorem exists_total {face modifier : Int} (hface : 1 ≤ face ∧ face ≤ 20) (hm : 0 ≤ modifier)
    (hsmall : (Number.finite modifier).isSmall) :
    ∃ total : Rat, Number.finite face + .finite modifier = .finite total ∧
      Number.Held (.finite total) := by
  have hbound := Number.isSmall_intCast.1 hsmall
  have hlow : (0 : Rat) ≤ face + modifier := by exact_mod_cast (by omega : 0 ≤ face + modifier)
  have hhigh : (face + modifier : Rat) ≤ (2 : Rat) ^ (54 : Int) := by
    exact_mod_cast (by omega : face + modifier ≤ 2 ^ 54)
  obtain ⟨total, htotal, -⟩ :=
    Number.ofRat_eq_finite_of_le_zpow hlow hhigh (by omega) (by omega)
  exact ⟨total, htotal, htotal ▸ Number.held_ofRat _⟩

/-- A total among the exact integers is not rounded. -/
theorem total_eq_of_isSmall {face modifier : Int} (hface : 1 ≤ face ∧ face ≤ 20) (hm : 0 ≤ modifier)
    (hsmall : (Number.finite face + .finite modifier).isSmall) :
    Number.finite face + .finite modifier = .finite (face + modifier : Int) := by
  have htracks := Number.tracks_ofRat (z := face + modifier) (by omega)
  rw [Int.cast_add] at htracks
  exact htracks.eq hsmall

/-- No verdict on what was created misses its damage. -/
theorem reconcile_ne_fumbleWithoutDamage (h : create d = .ok r) (flag proposed : Value) :
    reconcile r flag proposed ≠ .error .fumbleWithoutDamage := by
  cases hp : Changes.ofValue? proposed with
  | error issues =>
    rw [reconcile, hp]
    simp
  | ok p =>
    obtain ⟨out, remarks, hok, -⟩ := reconcile_of_payable (payable_of_create h) hp flag
    rw [hok]
    simp

theorem coherent_of_create (h : create d = .ok r) : Coherent d r := by
  have hpaid := reconcile_ne_fumbleWithoutDamage h
  have hpayable := payable_of_create h
  obtain ⟨roll, modifier, target, c, damage, rfl, hroll, hmodifier, htarget, hhurts, rfl⟩ :=
    create_eq_ok.1 h
  obtain ⟨face, rfl, hface⟩ := Number.isIntegerIn_iff.1 hroll
  obtain ⟨m, rfl, hm⟩ := (Number.isIntegerFrom_iff (n := 0)).1 hmodifier
  obtain ⟨t, rfl, ht⟩ := (Number.isIntegerFrom_iff (n := 1)).1 htarget
  constructor
  case kept => rfl
  case total => rfl
  case totalExact => exact fun hsmall => ⟨face, m, rfl, rfl, total_eq_of_isSmall hface hm hsmall⟩
  case apart =>
    rintro ⟨hcritical, hfumble⟩
    cases (of_decide_eq_true hcritical).symm.trans (of_decide_eq_true hfumble)
  case critical =>
    intro hcritical
    change (labelOf _ _ _).succeeds
    rw [of_decide_eq_true hcritical]
    rfl
  case fumble =>
    intro hfumble
    change ¬ (labelOf _ _ _).succeeds
    rw [of_decide_eq_true hfumble]
    decide
  case hurts =>
    exact (exists_damage_iff hhurts).trans (or_congr decide_eq_true_iff decide_eq_true_iff).symm
  case summary =>
    intro hsmall hsmall'
    obtain ⟨total, htotal, hheld⟩ := exists_total hface hm hsmall
    rw [outcome_ofParts]
    exact read?_summarize (held_of_isSmall hsmall) (held_of_isSmall hsmall') htotal hheld
  case paid => exact hpaid
  case settled =>
    intro flag proposed p hp
    obtain ⟨out, remarks, hok, -⟩ := reconcile_of_payable hpayable hp flag
    exact ⟨out, remarks, hok⟩

/-- **Exactly the consistent drafts make a resolution, and it is of one piece.** The roll is an
integer from one to twenty, the modifier an integer that is not negative, the target one that is
positive, the category one of the four; the damage is an integer that is not negative where the roll
is one or twenty, and `null` elsewhere. The parts are any values, and everything else is refused. -/
theorem create_accepts_consistent_drafts (d : Draft) :
    ((∃ r, create d = .ok r) ↔ d.Consistent) ∧ ∀ r, create d = .ok r → Coherent d r :=
  ⟨exists_create_iff, fun _ => coherent_of_create⟩

/-- A critical hit with the largest modifier of which the total is exact. Without its damage, it is
refused. -/
theorem consistent_draft_at_the_edge :
    let d : Draft := ⟨.number 20, .number 9007199254740971, .number 12, .string "SKILL", .number 9⟩
    ∃ r, create d = .ok r ∧ r.total = .finite (20 + 9007199254740971 : Int) ∧
      Summary.read? r.summary = some ⟨9007199254740971, 9007199254740991, 12, .critical⟩ ∧
      (∃ out remarks, reconcile r (.bool true) Changes.nothing.toValue = .ok (out, remarks)) ∧
      ¬ { d with damage := .null }.Consistent := by
  intro d
  have hdone : create d = .ok (ofParts 20 9007199254740971 12 .skill (some 9)) := by rfl
  obtain ⟨-, hcoherent⟩ := create_accepts_consistent_drafts d
  have h := hcoherent _ hdone
  obtain ⟨hrefused, -⟩ := create_accepts_consistent_drafts { d with damage := .null }
  have hread := h.summary (by decide +kernel) (by decide +kernel)
  refine ⟨_, hdone, by decide +kernel, hread.trans (by decide +kernel),
    h.settled _ _ Changes.nothing (by decide +kernel), mt hrefused.2 ?_⟩
  rintro ⟨r, hr⟩
  cases hr

end Resolution

end Adventure
