import Adventure.Json.Value
/-!
# Records of named values

A record is read by name, the last value under a name counting. On a record in which no name comes
twice, a write is read back under its own name and nowhere else (`get_set`), and a record put over
another is read where it has a name, the other one elsewhere (`get_merge`).
-/

namespace Adventure.Fields

variable {fields base : Fields} {key : String}

/-- The names of a record, in order. -/
def keys (fields : Fields) : List String := fields.map Prod.fst

/-! ## Reading -/

theorem find?_reverse_eq_none :
    (fields.reverse.find? fun f => f.1 == key) = none ↔ key ∉ keys fields := by
  simp only [List.find?_eq_none, List.mem_reverse, beq_iff_eq, keys, List.mem_map, not_exists,
    not_and]

theorem get_of_not_mem (h : key ∉ keys fields) : get fields key = .missing := by
  unfold get
  rw [find?_reverse_eq_none.2 h]
  rfl

theorem mem_of_get {v : Value} (h : get fields key = v) (hv : v ≠ .missing) : (key, v) ∈ fields := by
  unfold get at h
  cases hf : fields.reverse.find? fun f => f.1 == key with
  | none =>
    rw [hf] at h
    exact absurd h.symm hv
  | some f =>
    rw [hf] at h
    obtain rfl : f.2 = v := h
    obtain rfl : f.1 = key := by simpa using List.find?_some hf
    exact List.mem_reverse.1 (List.mem_of_find?_eq_some hf)

theorem get_append (a b : Fields) (key : String) :
    get (a ++ b) key = if key ∈ keys b then get b key else get a key := by
  unfold get
  rw [List.reverse_append, List.find?_append]
  by_cases h : key ∈ keys b
  · cases hf : b.reverse.find? fun f => f.1 == key with
    | none => exact absurd h (find?_reverse_eq_none.1 hf)
    | some f => rw [if_pos h, Option.some_or]
  · rw [if_neg h, find?_reverse_eq_none.2 h, Option.none_or]

theorem get_cons (f : String × Value) (rest : Fields) (key : String) :
    get (f :: rest) key =
      if key ∈ keys rest then get rest key else if f.1 = key then f.2 else .missing := by
  refine (get_append [f] rest key).trans ?_
  congr 1
  by_cases h : f.1 = key <;> simp [get, h]

theorem get_without {names : List String} (h : key ∉ names) :
    get (without names fields) key = get fields key := by
  unfold get without
  rw [← List.filter_reverse, List.find?_filter]
  congr 3
  funext f
  by_cases hf : f.1 = key
  · simp [hf, h]
  · simp [hf]

theorem mem_keys_without {names : List String} :
    key ∈ keys (without names fields) ↔ key ∈ keys fields ∧ key ∉ names := by
  simp only [keys, without, List.mem_map, List.mem_filter, Bool.not_eq_true', List.contains_eq_mem,
    decide_eq_false_iff_not]
  constructor
  · rintro ⟨f, ⟨hf, hn⟩, rfl⟩
    exact ⟨⟨f, hf, rfl⟩, hn⟩
  · rintro ⟨⟨f, hf, rfl⟩, hn⟩
    exact ⟨f, ⟨hf, hn⟩, rfl⟩

theorem nodup_keys_without (names : List String) (h : (keys fields).Nodup) :
    (keys (without names fields)).Nodup :=
  h.sublist (List.filter_sublist.map Prod.fst)

/-! ## Writing -/

/-- A write under a new name adds the name at the end. -/
theorem keys_set (key : String) (v : Value) (fields : Fields) :
    keys (set key v fields) =
      if key ∈ keys fields then keys fields else keys fields ++ [key] := by
  induction fields with
  | nil => rfl
  | cons f rest ih =>
    unfold set
    by_cases hf : f.1 = key
    · subst hf
      simp [keys]
    · have hne : ¬ key = f.1 := fun e => hf e.symm
      rw [if_neg hf]
      change f.1 :: keys (set key v rest) = _
      rw [ih]
      by_cases hk : key ∈ keys rest
      · have hk' : key ∈ keys (f :: rest) := List.mem_cons_of_mem _ hk
        rw [if_pos hk, if_pos hk']
        rfl
      · have hk' : key ∉ keys (f :: rest) := fun hm => (List.mem_cons.1 hm).elim hne hk
        rw [if_neg hk, if_neg hk']
        rfl

theorem mem_keys_set {v : Value} {other : String} :
    other ∈ keys (set key v fields) ↔ other = key ∨ other ∈ keys fields := by
  rw [keys_set]
  split
  · rename_i h
    exact ⟨Or.inr, fun ho => ho.elim (fun e => e ▸ h) id⟩
  · rw [List.mem_append, List.mem_singleton, or_comm]

theorem nodup_keys_set (key : String) (v : Value) (h : (keys fields).Nodup) :
    (keys (set key v fields)).Nodup := by
  rw [keys_set]
  split
  · exact h
  · rename_i hk
    rw [List.nodup_append]
    refine ⟨h, List.nodup_cons.2 ⟨List.not_mem_nil, List.nodup_nil⟩, ?_⟩
    rintro a ha b hb rfl
    exact hk (List.mem_singleton.1 hb ▸ ha)

/-- **A write is read back** under its own name, and nowhere else. -/
theorem get_set (h : (keys fields).Nodup) (key : String) (v : Value) (other : String) :
    get (set key v fields) other = if other = key then v else get fields other := by
  induction fields with
  | nil =>
    unfold set
    rw [get_cons, if_neg (by simp [keys])]
    simp only [eq_comm]
    rfl
  | cons f rest ih =>
    obtain ⟨hfresh, hrest⟩ := List.nodup_cons.1 h
    unfold set
    by_cases hf : f.1 = key
    · rw [if_pos hf, get_cons, get_cons, hf]
      by_cases ho : other = key
      · rw [ho, if_neg (hf ▸ hfresh), if_pos rfl, if_pos rfl]
      · rw [if_neg ho, if_neg (Ne.symm ho), if_neg (Ne.symm ho)]
    · rw [if_neg hf, get_cons, get_cons, ih hrest]
      by_cases ho : other = key
      · rw [if_pos (mem_keys_set.2 (.inl ho)), if_pos ho, if_pos ho]
      · rw [if_neg ho, if_neg ho]
        simp only [mem_keys_set, ho, false_or]

/-! ## Putting one record over another -/

theorem nodup_keys_merge (h : (keys base).Nodup) (patch : Fields) :
    (keys (merge base patch)).Nodup := by
  unfold merge
  induction patch generalizing base with
  | nil => exact h
  | cons f rest ih => exact ih (nodup_keys_set f.1 f.2 h)

/-- **A record over another** is read where it has a name, and the other one elsewhere. -/
theorem get_merge (h : (keys base).Nodup) (patch : Fields) (key : String) :
    get (merge base patch) key = if key ∈ keys patch then get patch key else get base key := by
  unfold merge
  induction patch generalizing base with
  | nil => rfl
  | cons f rest ih =>
    rw [List.foldl_cons, ih (nodup_keys_set f.1 f.2 h), get_cons, get_set h]
    by_cases hk : key ∈ keys rest
    · have hk' : key ∈ keys (f :: rest) := List.mem_cons_of_mem _ hk
      rw [if_pos hk, if_pos hk', if_pos hk]
    · by_cases hf : key = f.1
      · have hk' : key ∈ keys (f :: rest) := List.mem_cons.2 (.inl hf)
        rw [if_neg hk, if_pos hf, if_pos hk', if_neg hk, if_pos hf.symm]
      · have hk' : key ∉ keys (f :: rest) := fun hm => (List.mem_cons.1 hm).elim hf hk
        rw [if_neg hk, if_neg hf, if_neg hk']

end Adventure.Fields
