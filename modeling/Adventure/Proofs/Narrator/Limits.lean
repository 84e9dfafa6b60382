import Adventure.Proofs.Narrator.Keeper
import Adventure.Proofs.Number.Grammar
/-!
# Limits that are set by the environment

Four limits of requests can be set by texts. A text that is a numeral, in any of the notations of
`Numeral.Denotes`, gives its value, and a variable that is not set gives a standard value
(`Limit.Given`). The settings hold these values if every limit may have the one that it is given;
otherwise the input is at fault, and the issues name, in their order, the limits that are given none
or one that they may not have (`Settings.load_limits`).

One kind of text is taken for a number that it does not hold: blanks are read as zero, and two of the
four limits may be zero (`Settings.load_takes_an_empty_text_for_zero`).
-/

namespace Adventure

/-- A limit of requests that the environment can set. -/
inductive Limit where
  | maxRetries
  | timeoutMs
  | maxTokens
  | temperature
deriving DecidableEq

namespace Limit

/-- The limits, in the order in which they are checked. -/
def all : List Limit := [maxRetries, timeoutMs, maxTokens, temperature]

/-- The environment variable that sets it. -/
def source : Limit → String
  | maxRetries => "LLM_MAX_RETRIES"
  | timeoutMs => "LLM_TIMEOUT_MS"
  | maxTokens => "LLM_MAX_TOKENS"
  | temperature => "LLM_TEMPERATURE"

/-- The field of the settings that holds it. -/
def field : Limit → String
  | maxRetries => "maxRetries"
  | timeoutMs => "timeoutMs"
  | maxTokens => "maxTokens"
  | temperature => "temperature"

/-- The text that stands for a variable that is not set. -/
def standardText : Limit → String
  | maxRetries => "2"
  | timeoutMs => "8000"
  | maxTokens => "1024"
  | temperature => "0.8"

/-- The value of a limit that is not set. -/
def standard : Limit → Rat
  | maxRetries => 2
  | timeoutMs => 8000
  | maxTokens => 1024
  | temperature => 8 / 10

/-- The values that a limit may have. -/
def Allows : Limit → Rat → Prop
  | maxRetries, x => ∃ n : Nat, x = n
  | timeoutMs, x => ∃ n : Nat, x = n ∧ 1 ≤ n
  | maxTokens, x => ∃ n : Nat, x = n ∧ 1 ≤ n
  | temperature, x => 0 ≤ x ∧ x ≤ 2

/-- The demands that the values are checked against. -/
def demands : Limit → List Shape.Demand
  | maxRetries => [.integer, .atLeast 0]
  | timeoutMs => [.integer, .moreThan 0]
  | maxTokens => [.integer, .moreThan 0]
  | temperature => [.atLeast 0, .atMost 2]

/-- The number that an environment gives for a limit. If the variable is not set, it is the standard
one; otherwise it is the number nearest to the value of the numeral that its text is, with or without
blanks around it. **A text of nothing but blanks gives zero**, although it is no numeral. -/
inductive Given (env : Environment) (l : Limit) : Rat → Prop where
  | unset {x : Rat} (h : env.text? l.source = none) (hx : Number.ofRat l.standard = .finite x) :
      Given env l x
  | numeral {s : String} {q x : Rat} (h : env.text? l.source = some s)
      (hq : Numeral.Denotes (Text.trim s.toList) q) (hx : Number.ofRat q = .finite x) : Given env l x
  | blank {s : String} (h : env.text? l.source = some s) (hs : Text.trim s.toList = []) :
      Given env l 0

variable {env : Environment} {l : Limit} {x : Rat} {fields : Fields}

theorem ofText_standardText (l : Limit) :
    Numeral.ofText l.standardText = Number.ofRat l.standard := by
  cases l <;> decide +kernel

/-- What an environment gives is what is read of it. -/
theorem given_iff :
    l.Given env x ↔ Numeral.ofText (env.textOr l.source l.standardText) = .finite x := by
  unfold Environment.textOr
  cases htext : env.text? l.source with
  | none =>
    rw [Option.getD_none, ofText_standardText]
    constructor
    · rintro (⟨-, hx⟩ | ⟨h, -, -⟩ | ⟨h, -⟩)
      · exact hx
      · cases htext.symm.trans h
      · cases htext.symm.trans h
    · exact .unset htext
  | some s =>
    rw [Option.getD_some, Numeral.ofText_eq_finite]
    constructor
    · rintro (⟨h, -⟩ | ⟨h, hq, hx⟩ | ⟨h, hs⟩)
      · cases htext.symm.trans h
      · obtain rfl := Option.some.inj (htext.symm.trans h)
        exact .inr ⟨_, hq, hx⟩
      · obtain rfl := Option.some.inj (htext.symm.trans h)
        exact .inl ⟨hs, rfl⟩
    · rintro (⟨hs, rfl⟩ | ⟨q, hq, hx⟩)
      · exact .blank htext hs
      · exact .numeral htext hq hx

theorem get_fieldsOf (env : Environment) (l : Limit) :
    Fields.get (Settings.fieldsOf env) l.field =
      .number (Numeral.ofText (env.textOr l.source l.standardText)) := by
  cases l <;> rfl

/-! ## Checks -/

theorem number_demands_eq_ok {v : Value} {y : Number} :
    Shape.number l.demands v = .ok y ↔
      ∃ x, v = .number (.finite x) ∧ y = .finite x ∧ l.Allows x := by
  have hpositive : Shape.number [.integer, .moreThan 0] v = .ok y ↔
      ∃ x, v = .number (.finite x) ∧ y = .finite x ∧ ∃ n : Nat, x = n ∧ 1 ≤ n := by
    rw [Shape.positive_eq_ok]
    constructor
    · rintro ⟨n, rfl, rfl, hn⟩
      exact ⟨n, rfl, rfl, n, rfl, hn⟩
    · rintro ⟨_, rfl, rfl, n, rfl, hn⟩
      exact ⟨n, rfl, rfl, hn⟩
  cases l with
  | maxRetries =>
    rw [demands, Shape.natural_eq_ok]
    constructor
    · rintro ⟨n, rfl, rfl⟩
      exact ⟨n, rfl, rfl, n, rfl⟩
    · rintro ⟨_, rfl, rfl, n, rfl⟩
      exact ⟨n, rfl, rfl⟩
  | timeoutMs => exact hpositive
  | maxTokens => exact hpositive
  | temperature =>
    rw [demands, Shape.number_between_eq_ok, Nat.cast_zero, Nat.cast_ofNat]
    constructor
    · rintro ⟨rfl, x, rfl, hrange⟩
      exact ⟨x, rfl, rfl, hrange⟩
    · rintro ⟨x, rfl, rfl, hrange⟩
      exact ⟨rfl, x, rfl, hrange⟩

theorem problems_eq_nil {v : Value} :
    Shape.problems l.demands v = [] ↔ ∃ x, v = .number (.finite x) ∧ l.Allows x := by
  simp only [Shape.problems_eq_nil, number_demands_eq_ok]
  constructor
  · rintro ⟨_, x, hv, -, hx⟩
    exact ⟨x, hv, hx⟩
  · rintro ⟨x, hv, hx⟩
    exact ⟨_, x, hv, rfl, hx⟩

/-- A record is in order if every limit has a value that it may have. -/
theorem limited_iff :
    Fields.Limited fields ↔
      ∀ l : Limit, ∃ x, Fields.get fields l.field = .number (.finite x) ∧ l.Allows x := by
  constructor
  · rintro ⟨⟨r, hr⟩, ⟨t, ht, ht1⟩, ⟨m, hm, hm1⟩, x, hx, hrange⟩ l
    cases l with
    | maxRetries => exact ⟨r, hr, r, rfl⟩
    | timeoutMs => exact ⟨t, ht, t, rfl, ht1⟩
    | maxTokens => exact ⟨m, hm, m, rfl, hm1⟩
    | temperature => exact ⟨x, hx, hrange⟩
  · intro h
    obtain ⟨_, hr, r, rfl⟩ := h .maxRetries
    obtain ⟨_, ht, t, rfl, ht1⟩ := h .timeoutMs
    obtain ⟨_, hm, m, rfl, hm1⟩ := h .maxTokens
    obtain ⟨x, hx, hrange⟩ := h .temperature
    exact ⟨⟨r, hr⟩, ⟨t, ht, ht1⟩, ⟨m, hm, hm1⟩, x, hx, hrange⟩

/-- All that is wrong with a record, limit by limit. -/
theorem issues_checkLimits (fields : Fields) :
    Shape.issues (Settings.checkLimits fields) = all.flatMap fun l =>
      (Shape.problems l.demands (Fields.get fields l.field)).map (⟨[l.field], ·⟩) := by
  unfold Settings.checkLimits Settings.count
  simp only [Shape.issues_both, Shape.issues_fieldOf, Shape.issues_map, Shape.issues_number,
    List.map_map, all, List.flatMap_cons, List.flatMap_nil, List.append_nil]
  rfl

/-- A refused record is refused with all that is wrong with its limits. -/
theorem issues_of_ofFields? {issues : List Shape.Issue}
    (h : Settings.ofFields? fields = .error (.malformedSettings issues)) :
    issues = all.flatMap fun l =>
      (Shape.problems l.demands (Fields.get fields l.field)).map (⟨[l.field], ·⟩) := by
  rw [← issues_checkLimits]
  unfold Settings.ofFields? at h
  cases hc : Settings.checkLimits fields with
  | ok limits =>
    rw [hc] at h
    cases h
  | error found =>
    rw [hc] at h
    cases h
    rfl

end Limit

namespace Settings

/-- **Limits are read from the environment, or refused by name.** Either every limit has a value that
the environment gives for it and that it may have, and the settings hold these values; or the input is
at fault, and the issues are the problems with each limit, in the order of the limits: a limit has
problems if the environment gives no value for it that it may have, and one of them does. -/
theorem load_limits (env : Environment) :
    (∃ s, load env = .ok s ∧ ∀ l : Limit, ∃ x, l.Given env x ∧ l.Allows x ∧
      Fields.get s.toFields l.field = .number (.finite x)) ∨
    ∃ (f : Fault) (problems : Limit → List Shape.Problem), load env = .error f ∧ f.kind = .invalidInput ∧
      f.details = some (Fault.issueDetails
        (Limit.all.flatMap fun l => (problems l).map (⟨[l.field], ·⟩))) ∧
      (∃ l, problems l ≠ []) ∧
      ∀ l : Limit, problems l = [] ↔ ∃ x, l.Given env x ∧ l.Allows x := by
  have hgiven (l : Limit) : (∃ x, l.Given env x ∧ l.Allows x) ↔
      ∃ x, Fields.get (fieldsOf env) l.field = .number (.finite x) ∧ l.Allows x := by
    simp only [Limit.get_fieldsOf, Limit.given_iff, Value.number.injEq]
  rcases ofFields?_cases (fieldsOf env) with ⟨hlimited, s, hs, -, hget⟩ | ⟨hlimited, issues, hs⟩
  · refine .inl ⟨s, hs, ?_⟩
    intro l
    obtain ⟨x, hx, hallows⟩ := Limit.limited_iff.1 hlimited l
    refine ⟨x, ?_, hallows, ?_⟩
    · rw [Limit.get_fieldsOf, Value.number.injEq] at hx
      exact Limit.given_iff.2 hx
    · rw [hget, hx]
  · obtain rfl := Limit.issues_of_ofFields? hs
    refine .inr ⟨_, fun l => Shape.problems l.demands (Fields.get (fieldsOf env) l.field), hs, rfl,
      rfl, ?_, ?_⟩
    · by_contra hall
      refine hlimited (Limit.limited_iff.2 fun l => ?_)
      exact Limit.problems_eq_nil.1 (not_not.1 fun hne => hall ⟨l, hne⟩)
    · intro l
      rw [hgiven, Limit.problems_eq_nil]

/-- An empty text holds no numeral, and yet it sets the retries to zero. -/
theorem load_takes_an_empty_text_for_zero :
    (∃ s, load [("LLM_MAX_RETRIES", "")] = .ok s ∧
      Fields.get s.toFields "maxRetries" = .number (.finite 0)) ∧
    ∀ q, ¬ Numeral.Denotes (Text.trim "".toList) q := by
  refine ⟨?_, ?_⟩
  · have hshown : (load [("LLM_MAX_RETRIES", "")]).toOption.map
        (fun s => Fields.get s.toFields "maxRetries") = some (.number (.finite 0)) := by
      decide +kernel
    cases hload : load [("LLM_MAX_RETRIES", "")] with
    | error f =>
      rw [hload] at hshown
      cases hshown
    | ok s =>
      rw [hload] at hshown
      exact ⟨s, rfl, Option.some.inj hshown⟩
  · intro q h
    obtain ⟨c, r, hcons⟩ := h.exists_cons
    cases hcons

end Settings

end Adventure
