import Adventure.Narrator.Registry
/-!
# Providers that are asked, and kept

Asking a provider adds to what it has been asked and leaves its name alone. Keeping it in the
registry is a write to its name: it is found under that name afterwards, and every other name finds
what it found before.
-/

namespace Adventure

namespace Provider

variable {p : Provider} {s : Settings} {q : Query}

/-- Only the key of a new connection can be refused. -/
theorem connect_eq_error {f : Failure} (h : p.connection.connect (p.newKey s) = .error f) :
    p.newKey s = .error f := by
  unfold Connection.connect at h
  cases hk : p.connection.key with
  | some key =>
    rw [hk] at h
    cases h
  | none =>
    rw [hk] at h
    cases hn : p.newKey s with
    | error g =>
      rw [hn] at h
      cases h
      rfl
    | ok key =>
      rw [hn] at h
      cases h

/-- **What a provider does when it is asked.** It fails on the key of a new connection, or answers
over its connection; either way it remembers the query, and nothing else about it changes. -/
theorem ask_cases (p : Provider) (s : Settings) (q : Query) :
    (∃ f, p.newKey s = .error f ∧ p.ask s q = (.error f, { p with asked := p.asked ++ [q] })) ∨
    ∃ c, p.connection.connect (p.newKey s) = .ok c ∧
      p.ask s q =
        (p.answer s c p.asked.length q, { p with connection := c, asked := p.asked ++ [q] }) := by
  cases hc : p.connection.connect (p.newKey s) with
  | error f =>
    refine .inl ⟨f, connect_eq_error hc, ?_⟩
    simp [ask, connect, hc, Except.map]
  | ok c =>
    refine .inr ⟨c, rfl, ?_⟩
    simp [ask, connect, hc, Except.map]

@[simp] theorem ask_name (p : Provider) (s : Settings) (q : Query) : (p.ask s q).2.name = p.name := by
  rcases ask_cases p s q with ⟨f, -, h⟩ | ⟨c, -, h⟩ <;> rw [h]

/-- Every query is remembered, whatever comes of it. -/
@[simp] theorem ask_asked (p : Provider) (s : Settings) (q : Query) :
    (p.ask s q).2.asked = p.asked ++ [q] := by
  rcases ask_cases p s q with ⟨f, -, h⟩ | ⟨c, -, h⟩ <;> rw [h]

end Provider

namespace Registry

theorem find?_name {r : Registry} {name : String} {p : Provider} (h : r.find? name = some p) :
    p.name = name := by
  simpa using List.find?_some h

/-- Only texts name providers, each the one that is found under it. -/
theorem seated_eq_ok {r : Registry} {seat : Seat} {v : Value} {p : Provider} :
    r.seated seat v = .ok p ↔ ∃ name, v = .string name ∧ r.find? name = some p := by
  unfold seated
  cases v with
  | string name =>
    dsimp only
    cases hf : r.find? name <;> simp [hf]
  | _ => simp

/-- What is kept is found under its name, if something was. -/
theorem find?_keep_self {r : Registry} {p old : Provider} (h : r.find? p.name = some old) :
    (r.keep p).find? p.name = some p := by
  obtain ⟨providers⟩ := r
  change (replaceFirst p providers).find? _ = some p
  replace h : providers.find? (fun q => q.name == p.name) = some old := h
  induction providers with
  | nil => cases h
  | cons q rest ih =>
    unfold replaceFirst
    by_cases hq : q.name = p.name
    · simp [hq]
    · rw [List.find?_cons_of_neg (by simpa using hq)] at h
      rw [if_neg hq, List.find?_cons_of_neg (by simpa using hq)]
      exact ih h

theorem find?_keep_of_ne (r : Registry) {p : Provider} {name : String} (h : name ≠ p.name) :
    (r.keep p).find? name = r.find? name := by
  obtain ⟨providers⟩ := r
  change (replaceFirst p providers).find? _ = providers.find? _
  induction providers with
  | nil => rfl
  | cons q rest ih =>
    unfold replaceFirst
    by_cases hq : q.name = p.name
    · have hp : ¬ p.name = name := fun e => h e.symm
      rw [if_pos hq, List.find?_cons_of_neg (by simpa using hp),
        List.find?_cons_of_neg (by simpa [hq] using hp)]
    · rw [if_neg hq, List.find?_cons, List.find?_cons, ih]

end Registry

end Adventure
