import Adventure.Proofs.Story.Proposal
/-!
# The table of decisions

What becomes of a proposal is decided by a table with three questions: whether the narration says
that it used the check, whether the check succeeded, and whether it was a fumble. The table answers
for every resolution that can be created and every proposal that is a record of the right parts
(`Changes.ProposedBy`); it refuses all others, and nothing else is refused
(`reconcile_follows_table`). A fumble without damage would be refused as well, but no such resolution
can be created (`Resolution.payable_of_create`).

A bundle that was decided on is a proposal again, and nothing in it is left to decide: what the table
takes away from a proposal, it does not find there a second time.
-/

namespace Adventure

/-! ## Records of changes -/

theorem Value.isTrue_iff {v : Value} : v.isTrue ↔ v = .bool true := by
  cases v <;> simp [isTrue]

namespace Changes

/-- A value proposes changes: it is a record with an integer change of hit points, a natural number
of experience, four lists of texts, and a place that is a text or `null`. -/
structure ProposedBy (c : Changes) (v : Value) : Prop where
  hpChange : ∃ z : Int, c.hpChange = .finite z ∧ v.field "hpChange" = .number (.finite z)
  experienceGained : ∃ n : Nat, c.experienceGained = .finite n ∧
    v.field "experienceGained" = .number (.finite n)
  itemsGained : v.field "itemsGained" = .texts c.itemsGained
  itemsLost : v.field "itemsLost" = .texts c.itemsLost
  location : v.field "location" = .ofText? c.location
  npcsMet : v.field "npcsMet" = .texts c.npcsMet
  discoveries : v.field "discoveries" = .texts c.discoveries

/-- **The check of proposals accepts exactly the records of changes.** -/
theorem ofValue?_eq_ok_iff {v : Value} {c : Changes} : ofValue? v = .ok c ↔ c.ProposedBy v := by
  rw [ofValue?_eq_ok]
  simp only [Shape.integer_eq_ok, Shape.natural_eq_ok, Shape.textList_eq_ok,
    Shape.textOrNull_eq_ok]
  constructor
  · rintro ⟨fields, rfl, hp, experience, gained, lost, place, met, found⟩
    exact ⟨hp, experience, gained, lost, place, met, found⟩
  · rintro ⟨hp, experience, gained, lost, place, met, found⟩
    cases v with
    | object fields => exact ⟨fields, rfl, hp, experience, gained, lost, place, met, found⟩
    | _ =>
      -- Nothing else has fields.
      obtain ⟨z, -, hz⟩ := hp
      cases hz

theorem ProposedBy.wellFormed {c : Changes} {v : Value} (h : c.ProposedBy v) : c.WellFormed := by
  obtain ⟨z, hz, -⟩ := h.hpChange
  obtain ⟨n, hn, -⟩ := h.experienceGained
  exact ⟨Number.isInteger_iff.2 ⟨z, hz⟩,
    (Number.isIntegerFrom_iff (n := 0)).2 ⟨n, hn, by omega⟩⟩

end Changes

/-! ## Resolutions that can be created -/

namespace Resolution

/-- **No fumble comes without damage.** -/
theorem payable_of_create {draft : Draft} {r : Resolution} (h : create draft = .ok r) :
    r.Payable := by
  obtain ⟨roll, modifier, target, category, damage, -, -, -, -, hhurts, rfl⟩ := create_eq_ok.1 h
  exact payable_ofParts hhurts

theorem labelOf_eq_fumble_iff {roll total target : Number} :
    labelOf roll total target = .fumble ↔ roll = fumbleRoll := by
  unfold labelOf
  constructor
  · intro h
    split at h
    · cases h
    · split at h
      · assumption
      · split at h <;> cases h
  · rintro rfl
    rw [if_neg (by decide), if_pos rfl]

/-- A fumble is a one on the die, and never a success. -/
theorem isFumble_of_create {draft : Draft} {r : Resolution} (h : create draft = .ok r) :
    (r.isFumble ↔ r.roll = fumbleRoll) ∧ (r.isFumble → r.isSuccess = false) := by
  obtain ⟨roll, modifier, target, category, damage, -, -, -, -, -, rfl⟩ := create_eq_ok.1 h
  have hlabel : (ofParts roll modifier target category damage).isFumble ↔
      labelOf roll (roll + modifier) target = .fumble := decide_eq_true_iff
  refine ⟨hlabel.trans labelOf_eq_fumble_iff, fun hfumble => ?_⟩
  change (labelOf roll (roll + modifier) target).succeeds = false
  rw [hlabel.1 hfumble]
  rfl

end Resolution

/-! ## The table -/

open Resolution

variable {draft : Draft} {r : Resolution} {flag proposed : Value} {p : Changes}
  {out : Reconciled Resolution}

/-- The rows of the table. A check counts if the flag is exactly `true`. One that counts and failed
leaves no new place and no gains, and one that counts is shown. A one on the die that counts costs
its damage. -/
structure Decided (r : Resolution) (flag : Value) (p : Changes) (out : Reconciled Resolution) :
    Prop where
  verdict : out.verdict =
    if flag ≠ .bool true then .nonMechanical
    else if r.isSuccess then .success
    else if r.roll = fumbleRoll then .fumble
    else .failure
  changes : out.changes =
    if flag = .bool true ∧ r.isSuccess = false then { p with location := none, itemsGained := [] }
    else p
  shown : out.shown = if flag = .bool true then some r else none
  selfDamage :
    if flag = .bool true ∧ r.roll = fumbleRoll then
      ∃ damage, r.damage = some damage ∧ out.selfDamage = .number damage
    else out.selfDamage = .number 0

namespace Verdict

variable {ρ : Type} [CheckReport ρ]

/-- Only a check that was used is shown. -/
theorem showsCheck_of (report : ρ) (used : Bool) :
    (Verdict.of report used).rule.showsCheck = used := by
  cases used
  · rfl
  · cases hs : CheckReport.isSuccess report
    · cases hf : CheckReport.isFumble report <;> simp [Verdict.of, hs, hf, rule]
    · simp [Verdict.of, hs, rule]

/-- Only a fumble that was used costs its damage. -/
theorem forcesDamage_of (report : ρ) (used : Bool) :
    (Verdict.of report used).rule.forcesDamage =
      (used && !CheckReport.isSuccess report && CheckReport.isFumble report) := by
  cases used
  · rfl
  · cases hs : CheckReport.isSuccess report
    · cases hf : CheckReport.isFumble report <;> simp [Verdict.of, hs, hf, rule]
    · simp [Verdict.of, hs, rule]

/-- The verdict on a resolution that was created. -/
theorem of_create (h : create draft = .ok r) (flag : Value) :
    Verdict.of r flag.isTrue =
      if flag ≠ .bool true then .nonMechanical
      else if r.isSuccess then .success
      else if r.roll = fumbleRoll then .fumble
      else .failure := by
  obtain ⟨hroll, -⟩ := isFumble_of_create h
  by_cases hflag : flag = .bool true
  · rw [if_neg (not_not_intro hflag), Value.isTrue_iff.2 hflag]
    simp only [Verdict.of, CheckReport.isSuccess, CheckReport.isFumble, hroll]
    rfl
  · rw [if_pos hflag, Bool.eq_false_iff.2 (mt Value.isTrue_iff.1 hflag)]
    rfl

end Verdict

/-- What is suffered: the damage of a one on the die that counts, and nothing otherwise. -/
theorem Reconciled.forcedDamage_of_create (h : create draft = .ok r) {amount : Value}
    (hforced : Reconciled.forcedDamage (Verdict.of r flag.isTrue).rule r = .ok amount) :
    if flag = .bool true ∧ r.roll = fumbleRoll then
      ∃ damage, r.damage = some damage ∧ amount = .number damage
    else amount = .number 0 := by
  obtain ⟨hroll, hfails⟩ := isFumble_of_create h
  have hforces : (Verdict.of r flag.isTrue).rule.forcesDamage ↔
      flag = .bool true ∧ r.roll = fumbleRoll := by
    rw [Verdict.forcesDamage_of, ← hroll, Bool.and_eq_true, Bool.and_eq_true, Value.isTrue_iff,
      Bool.not_eq_true']
    exact ⟨fun hf => ⟨hf.1.1, hf.2⟩, fun hf => ⟨⟨hf.1, hfails hf.2⟩, hf.2⟩⟩
  unfold Reconciled.forcedDamage at hforced
  by_cases hrow : flag = .bool true ∧ r.roll = fumbleRoll
  · rw [if_pos (hforces.2 hrow)] at hforced
    obtain ⟨n, -, hdamage⟩ := payable_of_create h (hroll.2 hrow.2)
    rw [if_pos hrow]
    simp only [CheckReport.damage, hdamage, Value.ofNumber?] at hforced
    exact ⟨_, hdamage, (Except.ok.inj hforced).symm⟩
  · rw [if_neg (mt hforces.1 hrow)] at hforced
    rw [if_neg hrow]
    exact (Except.ok.inj hforced).symm

/-- What a created resolution makes of a record of changes is what the table says. -/
theorem decided_of_reconcile (h : create draft = .ok r) (hp : p.ProposedBy proposed)
    {remarks : List Event} (hok : reconcile r flag proposed = .ok (out, remarks)) :
    Decided r flag p out := by
  obtain ⟨q, hq, hverdict, hchanges, hshown, hforced, -⟩ := reconcile_eq_ok.1 hok
  obtain rfl : p = q := Except.ok.inj ((Changes.ofValue?_eq_ok_iff.2 hp).symm.trans hq)
  rw [hverdict] at hchanges hshown hforced
  refine ⟨hverdict.trans (Verdict.of_create h flag), ?_, ?_,
    Reconciled.forcedDamage_of_create h hforced⟩
  · have hblocks : (Verdict.of r flag.isTrue).rule.blocksProgress ↔
        flag = .bool true ∧ r.isSuccess = false := by
      rw [Verdict.blocksProgress_of, Bool.and_eq_true, Value.isTrue_iff, Bool.not_eq_true']
      rfl
    simp only [hchanges, hblocks]
    rfl
  · simp only [hshown, Verdict.showsCheck_of, Value.isTrue_iff]

/-- A bundle that was decided on is well formed, and has nothing left that the same verdict would
take away. -/
theorem reconcile_again {remarks : List Event}
    (hok : reconcile r flag proposed = .ok (out, remarks)) :
    ∃ again, reconcile r flag out.changes.toValue = .ok (out, again) := by
  obtain ⟨p, hp, hverdict, hchanges, hshown, hforced, -⟩ := reconcile_eq_ok.1 hok
  have hp := (Changes.ofValue?_eq_ok_iff.1 hp).wellFormed
  have hout : out.changes.WellFormed := by
    rw [hchanges]
    split
    · exact ⟨hp.hpChange, hp.experienceGained⟩
    · exact hp
  have hblocked : out.changes =
      if out.verdict.rule.blocksProgress then out.changes.blocked else out.changes := by
    rw [hchanges]
    split <;> rfl
  exact ⟨_, reconcile_eq_ok.2 ⟨out.changes, Changes.ofValue?_toValue hout, hverdict, hblocked, hshown,
    hforced, rfl⟩⟩

/-- **What is decided follows the table**, for every resolution that can be created, every flag and
every value that is proposed. What is not a record of changes violates the contract, and nothing else
does. A record of changes is decided on as the table says; and to decide on the outcome once more, by
the same resolution and the same flag, changes nothing in it. -/
theorem reconcile_follows_table (h : create draft = .ok r) (flag proposed : Value) :
    ((∃ f, reconcile r flag proposed = .error f ∧ f.kind = .contractViolation) ↔
      ¬ ∃ p : Changes, p.ProposedBy proposed) ∧
    ∀ p : Changes, p.ProposedBy proposed → ∃ out remarks,
      reconcile r flag proposed = .ok (out, remarks) ∧ Decided r flag p out ∧
        ∃ again, reconcile r flag out.changes.toValue = .ok (out, again) := by
  have haccepted : ∀ p : Changes, p.ProposedBy proposed →
      ∃ out remarks, reconcile r flag proposed = .ok (out, remarks) := by
    intro p hp
    obtain ⟨out, remarks, hok, -⟩ :=
      reconcile_of_payable (payable_of_create h) (Changes.ofValue?_eq_ok_iff.2 hp) flag
    exact ⟨out, remarks, hok⟩
  refine ⟨⟨?_, fun hnone => ?_⟩, fun p hp => ?_⟩
  · rintro ⟨f, hf, -⟩ ⟨p, hp⟩
    obtain ⟨out, remarks, hok⟩ := haccepted p hp
    rw [hf] at hok
    cases hok
  · unfold reconcile
    cases hv : Changes.ofValue? proposed with
    | error issues => exact ⟨_, rfl, rfl⟩
    | ok p => exact absurd ⟨p, Changes.ofValue?_eq_ok_iff.1 hv⟩ hnone
  · obtain ⟨out, remarks, hok⟩ := haccepted p hp
    exact ⟨out, remarks, hok, decided_of_reconcile h hp hok, reconcile_again hok⟩

/-- A fumble keeps its hero from the vault and the key, and costs four hit points. -/
theorem reconcile_follows_table_for_a_fumble :
    let draft : Draft := ⟨.number 1, .number 3, .number 12, .string "COMBAT", .number 4⟩
    let proposed : Changes := ⟨-5, 20, ["key"], ["torch"], some "vault", ["guard"], []⟩
    let left : Changes := ⟨-5, 20, [], ["torch"], none, ["guard"], []⟩
    ∃ r out remarks again, create draft = .ok r ∧ proposed.ProposedBy proposed.toValue ∧
      reconcile r (.bool true) proposed.toValue = .ok (out, remarks) ∧ out.changes = left ∧
      out.shown = some r ∧ out.selfDamage = .number 4 ∧
      reconcile r (.bool true) left.toValue = .ok (out, again) := by
  intro draft proposed left
  let r : Resolution := .ofParts 1 3 12 .combat (some 4)
  have hcreate : create draft = .ok r := by rfl
  have hproposed : proposed.ProposedBy proposed.toValue :=
    Changes.ofValue?_eq_ok_iff.1 (Changes.ofValue?_toValue ⟨by decide, by decide⟩)
  obtain ⟨-, hdecided⟩ := reconcile_follows_table hcreate (.bool true) proposed.toValue
  obtain ⟨out, remarks, hok, htable, again, hagain⟩ := hdecided proposed hproposed
  have hleft : out.changes = left := htable.changes.trans (if_pos ⟨rfl, by decide⟩)
  have hdamage := htable.selfDamage
  rw [if_pos ⟨rfl, rfl⟩] at hdamage
  obtain ⟨damage, hroll, hsuffered⟩ := hdamage
  obtain rfl : 4 = damage := Option.some.inj hroll
  rw [hleft] at hagain
  exact ⟨r, out, remarks, again, hcreate, hproposed, hok, hleft, htable.shown, hsuffered, hagain⟩

end Adventure
