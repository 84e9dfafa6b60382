import Adventure.Narrator.Keeper
import Adventure.Proofs.Json.Fields
import Adventure.Proofs.Narrator.Call
import Adventure.Proofs.Number.Rounding
import Adventure.Proofs.Shape
/-!
# Settings that stay valid

The settings in force are read as a record. Its limits are in order from the start on
(`Fields.Limited`), and every patch, whatever it holds, either is put over the record as it is or
leaves no trace (`settings_stay_valid`). What has to be carried along is that no name comes twice in
the record (`Settings.Sound`); the fields that patches bring in are kept apart from those that are
read, so this is a fact about both together.
-/

namespace Adventure

/-- A record of settings whose limits are in order: retries are counted from zero, the time and the
length of an answer from one, and the temperature is from zero to two. -/
structure Fields.Limited (fields : Fields) : Prop where
  maxRetries : ∃ n : Nat, Fields.get fields "maxRetries" = .ofNat n
  timeoutMs : ∃ n : Nat, Fields.get fields "timeoutMs" = .ofNat n ∧ 1 ≤ n
  maxTokens : ∃ n : Nat, Fields.get fields "maxTokens" = .ofNat n ∧ 1 ≤ n
  temperature : ∃ x : Rat, Fields.get fields "temperature" = .number (.finite x) ∧ 0 ≤ x ∧ x ≤ 2

/-- Limits are judged by what is read. -/
theorem Fields.Limited.congr {fields other : Fields} (h : Fields.Limited fields)
    (hsame : ∀ key, Fields.get other key = Fields.get fields key) : Fields.Limited other := by
  obtain ⟨retries, timeout, tokens, temperature⟩ := h
  simp only [← hsame] at retries timeout tokens temperature
  exact ⟨retries, timeout, tokens, temperature⟩

namespace Settings

variable {fields : Fields} {s : Settings} {v : Value}

/-! ## Checked limits -/

/-- A checked count is the natural number that it is read as. -/
theorem count_eq_ok {demand : Shape.Demand} {n : Nat}
    (hd : ∀ z : Int, demand.problem? (.finite z) = none → 0 ≤ z) :
    count demand v = .ok n ↔ v = .ofNat n ∧ demand.problem? (.ofNat n) = none := by
  unfold count
  rw [Shape.map_eq_ok]
  simp only [Shape.number_integer_eq_ok, List.mem_singleton, forall_eq]
  constructor
  · rintro ⟨_, ⟨z, rfl, rfl, hz⟩, rfl⟩
    obtain ⟨m, rfl⟩ := Int.eq_ofNat_of_zero_le (hd z hz)
    have hm : natural (.finite (m : Int)) = m := by simp [natural, Number.toNat?]
    rw [hm]
    exact ⟨rfl, hz⟩
  · rintro ⟨rfl, hn⟩
    exact ⟨.ofNat n, ⟨n, rfl, rfl, hn⟩, by simp [natural, Number.toNat?, Number.ofNat]⟩

theorem count_atLeast_eq_ok {n : Nat} : count (.atLeast 0) v = .ok n ↔ v = .ofNat n := by
  rw [count_eq_ok fun z hz => by exact_mod_cast Shape.problem?_atLeast.1 hz]
  exact and_iff_left (Shape.problem?_atLeast.2 (by positivity))

theorem count_moreThan_eq_ok {n : Nat} :
    count (.moreThan 0) v = .ok n ↔ v = .ofNat n ∧ 1 ≤ n := by
  rw [count_eq_ok fun z hz => by exact_mod_cast (Shape.problem?_moreThan.1 hz).le]
  refine and_congr_right fun _ => Shape.problem?_moreThan.trans ?_
  exact_mod_cast Iff.rfl

/-- Limits pass just when they are in order, each read as it stands in the record. -/
theorem checkLimits_eq_ok {limits : Nat × Nat × Nat × Number} :
    checkLimits fields = .ok limits ↔
      Fields.get fields "maxRetries" = .ofNat limits.1 ∧
      (Fields.get fields "timeoutMs" = .ofNat limits.2.1 ∧ 1 ≤ limits.2.1) ∧
      (Fields.get fields "maxTokens" = .ofNat limits.2.2.1 ∧ 1 ≤ limits.2.2.1) ∧
      Fields.get fields "temperature" = .number limits.2.2.2 ∧
        ∃ x : Rat, limits.2.2.2 = .finite x ∧ 0 ≤ x ∧ x ≤ 2 := by
  unfold checkLimits
  simp only [Shape.both_eq_ok, Shape.fieldOf_eq_ok, count_atLeast_eq_ok, count_moreThan_eq_ok,
    Shape.number_between_eq_ok, Nat.cast_zero, Nat.cast_ofNat]

theorem limited_iff : Fields.Limited fields ↔ ∃ limits, checkLimits fields = .ok limits := by
  simp only [checkLimits_eq_ok]
  constructor
  · rintro ⟨⟨retries, hr⟩, ⟨timeout, ht⟩, ⟨tokens, hm⟩, x, hx, hrange⟩
    exact ⟨(retries, timeout, tokens, .finite x), hr, ht, hm, hx, x, rfl, hrange⟩
  · rintro ⟨⟨retries, timeout, tokens, _⟩, hr, ht, hm, hx, x, rfl, hrange⟩
    exact ⟨⟨retries, hr⟩, ⟨timeout, ht⟩, ⟨tokens, hm⟩, x, hx, hrange⟩

/-! ## Records that are read back -/

theorem keys_toFields (s : Settings) :
    Fields.keys s.toFields = fieldNames ++ Fields.keys s.extra := rfl

/-- Under a name that is not read, settings have what patches have brought in. -/
theorem get_toFields_of_not_mem {key : String} (h : key ∉ fieldNames) :
    Fields.get s.toFields key = Fields.get s.extra key := by
  unfold toFields
  rw [Fields.get_append]
  by_cases hkey : key ∈ Fields.keys s.extra
  · rw [if_pos hkey]
  · rw [if_neg hkey, Fields.get_of_not_mem hkey, Fields.get_of_not_mem h]

/-- **What a record gives** is read as the record is, field by field; a record whose limits are not
in order gives nothing. -/
theorem ofFields?_cases (fields : Fields) :
    (Fields.Limited fields ∧ ∃ s, ofFields? fields = .ok s ∧
      s.extra = Fields.without fieldNames fields ∧
      ∀ key, Fields.get s.toFields key = Fields.get fields key) ∨
    (¬ Fields.Limited fields ∧ ∃ issues, ofFields? fields = .error (.malformedSettings issues)) := by
  rw [limited_iff]
  unfold ofFields?
  cases hc : checkLimits fields with
  | error issues =>
    refine .inr ⟨?_, issues, rfl⟩
    rintro ⟨_, h⟩
    cases h
  | ok limits =>
    obtain ⟨retries, timeout, tokens, temperature⟩ := limits
    refine .inl ⟨⟨_, rfl⟩, _, rfl, rfl, ?_⟩
    intro key
    by_cases hkey : key ∈ fieldNames
    · obtain ⟨hr, ⟨ht, -⟩, ⟨hm, -⟩, hx, -⟩ := checkLimits_eq_ok.1 hc
      unfold toFields
      rw [Fields.get_append, if_neg fun h => (Fields.mem_keys_without.1 h).2 hkey]
      -- Each field that is read is in its place, with the value that the record has there.
      simp only [fieldNames, List.mem_cons, List.not_mem_nil, or_false] at hkey
      rcases hkey with rfl | rfl | rfl | rfl | rfl | rfl | rfl | rfl | rfl | rfl | rfl | rfl
      all_goals simp [Fields.get_cons, Fields.keys, hr, ht, hm, hx]
    · rw [get_toFields_of_not_mem hkey, Fields.get_without hkey]

/-! ## Every step -/

/-- What every step keeps: the limits are in order, and no name comes twice. -/
structure Sound (s : Settings) : Prop where
  limited : Fields.Limited s.toFields
  nodup : (Fields.keys s.toFields).Nodup

theorem nodup_fieldNames : fieldNames.Nodup := by decide

/-- Fields that patches bring in are kept apart from those that are read. -/
theorem nodup_toFields (h : (Fields.keys fields).Nodup)
    (hs : s.extra = Fields.without fieldNames fields) : (Fields.keys s.toFields).Nodup := by
  rw [keys_toFields, hs, List.nodup_append]
  refine ⟨nodup_fieldNames, Fields.nodup_keys_without fieldNames h, ?_⟩
  rintro a ha b hb rfl
  exact (Fields.mem_keys_without.1 hb).2 ha

theorem sound_of_ofFields? (h : (Fields.keys fields).Nodup) (hs : ofFields? fields = .ok s) :
    s.Sound := by
  rcases ofFields?_cases fields with ⟨hlimited, s', hs', hextra, hget⟩ | ⟨-, issues, hs'⟩
  · obtain rfl : s' = s := Except.ok.inj (hs'.symm.trans hs)
    exact ⟨hlimited.congr hget, nodup_toFields h hextra⟩
  · cases hs'.symm.trans hs

theorem sound_load {env : Environment} (h : load env = .ok s) : s.Sound := by
  have hnodup : (Fields.keys (fieldsOf env)).Nodup := nodup_fieldNames
  exact sound_of_ofFields? hnodup h

/-- Nothing that patches have brought in stands in the place of a field that is read. -/
theorem Sound.not_mem_extra (h : s.Sound) {key : String} (hkey : key ∈ fieldNames) :
    key ∉ Fields.keys s.extra := by
  have hnodup := h.nodup
  rw [keys_toFields, List.nodup_append] at hnodup
  exact fun hextra => hnodup.2.2 key hkey key hextra rfl

/-- The retries of a call are those that can be read. -/
theorem Sound.get_maxRetries (h : s.Sound) :
    Fields.get s.toFields "maxRetries" = .ofNat s.maxRetries := by
  unfold toFields
  rw [Fields.get_append, if_neg (h.not_mem_extra (by decide))]
  rfl

/-- **A patch** is put over the record as it is, or refused because of the limits that it would lead
to. -/
theorem update?_cases (h : s.Sound) (patch : Value) :
    let merged := Fields.merge s.toFields patch.ownFields
    (Fields.Limited merged ∧ ∃ s', s.update? patch = .ok s' ∧ s'.Sound ∧
      ∀ key, Fields.get s'.toFields key =
        if key ∈ Fields.keys patch.ownFields then Fields.get patch.ownFields key
        else Fields.get s.toFields key) ∨
    (¬ Fields.Limited merged ∧ ∃ f, s.update? patch = .error f ∧ f.kind = .invalidInput) := by
  intro merged
  rcases ofFields?_cases merged with ⟨hlimited, s', hs', -, hget⟩ | ⟨hlimited, issues, hs'⟩
  · refine .inl ⟨hlimited, s', hs', ?_, ?_⟩
    · exact sound_of_ofFields? (Fields.nodup_keys_merge h.nodup patch.ownFields) hs'
    · intro key
      rw [hget, Fields.get_merge h.nodup]
  · exact .inr ⟨hlimited, _, hs', rfl⟩

end Settings

namespace Keeper

variable {k keeper : Keeper} {patch : Value} {s : Settings} {f : Fault}

/-! ## Updates -/

/-- An accepted update: the fields of the patch change, and no other; the patch is noted down; and the
answer is what is in force from then on. -/
def Accepts (k : Keeper) (patch : Value) : Prop :=
  ∃ s, (update patch).run k = (.ok s, ⟨s, k.events ++ [.settingsUpdated patch]⟩) ∧
    ∀ key, Fields.get s.toFields key =
      if key ∈ Fields.keys patch.ownFields then Fields.get patch.ownFields key
      else Fields.get k.settings.toFields key

/-- A refused update: the input is at fault, nothing changes, and nothing is noted down. -/
def Refuses (k : Keeper) (patch : Value) : Prop :=
  ∃ f, (update patch).run k = (.error f, k) ∧ f.kind = .invalidInput

/-- The patch is judged before anything is put in force or noted down. -/
theorem run_update (k : Keeper) (patch : Value) :
    (update patch).run k =
      match k.settings.update? patch with
      | .ok s => (.ok s, ⟨s, k.events ++ [.settingsUpdated patch]⟩)
      | .error f => (.error f, k) := by
  simp only [update, ExceptT.run_bind]
  change (MonadExcept.ofExcept (k.settings.update? patch) >>= _ : Keeping Settings).run k = _
  cases k.settings.update? patch <;> rfl

/-- **An update** is accepted or refused, by the limits that it would lead to. -/
theorem update_cases (h : k.settings.Sound) (patch : Value) :
    let merged := Fields.merge k.settings.toFields patch.ownFields
    (Fields.Limited merged ∧ k.Accepts patch) ∨ (¬ Fields.Limited merged ∧ k.Refuses patch) := by
  intro merged
  have hrun := run_update k patch
  rcases Settings.update?_cases h patch with ⟨hlimited, s, hs, -, hget⟩ | ⟨hlimited, f, hf, hkind⟩
  · rw [hs] at hrun
    exact .inl ⟨hlimited, s, hrun, hget⟩
  · rw [hf] at hrun
    exact .inr ⟨hlimited, f, hrun, hkind⟩

theorem sound_after (h : k.settings.Sound) (patch : Value) : (k.after patch).settings.Sound := by
  unfold after
  rw [run_update]
  rcases Settings.update?_cases h patch with ⟨-, s, hs, hsound, -⟩ | ⟨-, f, hf, -⟩
  · rw [hs]
    exact hsound
  · rw [hf]
    exact h

theorem sound_follow (h : k.settings.Sound) (patches : List Value) :
    (patches.foldl after k).settings.Sound := by
  induction patches generalizing k with
  | nil => exact h
  | cons patch rest ih => exact ih (sound_after h patch)

theorem sound_start {env : Environment} (h : start env = .ok keeper) : keeper.settings.Sound := by
  obtain ⟨s, hs, rfl⟩ := Shape.map_eq_ok.1 h
  exact Settings.sound_load hs

/-! ## All updates -/

/-- **The settings stay valid.** Whatever patches are sent after a start that succeeds, the limits
that can be read are in order. Each further patch is accepted or refused, by the limits that it would
lead to: then the settings change in the fields of the patch alone, or there is no trace of it. And a
call, if there is a primary provider for the settings, asks it at least once, and no more often than
the retries that can be read allow. -/
theorem settings_stay_valid {env : Environment} (h : start env = .ok keeper)
    (patches : List Value) :
    let k := patches.foldl after keeper
    Fields.Limited k.settings.toFields ∧
    (∀ patch, let merged := Fields.merge k.settings.toFields patch.ownFields
      (Fields.Limited merged ∧ k.Accepts patch) ∨ (¬ Fields.Limited merged ∧ k.Refuses patch)) ∧
    ∀ (r : Registry) (q : Query) (p : Provider), r.primary k.settings = .ok p →
      ∃ retries n : Nat, Fields.get k.settings.toFields "maxRetries" = .ofNat retries ∧
        0 < n ∧ n ≤ max 1 retries ∧
        (r.call k.settings q).2.1.queries p.name = some (p.asked ++ List.replicate n q) := by
  intro k
  have hsound : k.settings.Sound := sound_follow (sound_start h) patches
  refine ⟨hsound.limited, update_cases hsound, ?_⟩
  intro r q p hp
  obtain ⟨n, hpos, hle, hasked⟩ := Registry.call_asks_primary hp q
  exact ⟨k.settings.maxRetries, n, hsound.get_maxRetries, hpos, hle, hasked⟩

/-- Retries that are no number are refused, together with the provider that comes with them, before
and after a patch that is accepted. -/
theorem settings_stay_valid_among_bad_patches :
    let bad : Value := .object [("provider", .string "claude"), ("maxRetries", .number .nan)]
    let good : Value := .object [("provider", .string "openai"), ("maxRetries", .number 0)]
    ∃ keeper, start [("LLM_MAX_RETRIES", "3")] = .ok keeper ∧
      let k := [bad, good, bad].foldl after keeper
      k.settings.provider = .string "openai" ∧ k.events.length = 1 ∧
      Fields.Limited k.settings.toFields ∧ k.Refuses bad ∧ k.Accepts good := by
  intro bad good
  have hshown : (start [("LLM_MAX_RETRIES", "3")]).toOption.map (fun keeper =>
      let k := [bad, good, bad].foldl after keeper
      (k.settings.provider, k.events.length, ((update bad).run k).1.isOk,
        ((update good).run k).1.isOk)) = some (.string "openai", 1, false, true) := by
    decide +kernel
  cases hstart : start [("LLM_MAX_RETRIES", "3")] with
  | error f =>
    rw [hstart] at hshown
    cases hshown
  | ok keeper =>
    rw [hstart] at hshown
    obtain ⟨hlimited, hupdates, -⟩ := settings_stay_valid hstart [bad, good, bad]
    simp only [Except.toOption, Option.map_some, Option.some.injEq, Prod.mk.injEq] at hshown
    obtain ⟨hprovider, hevents, hbad, hgood⟩ := hshown
    refine ⟨keeper, rfl, hprovider, hevents, hlimited, ?_, ?_⟩
    · rcases hupdates bad with ⟨-, s, hs, -⟩ | ⟨-, hrefused⟩
      · rw [hs] at hbad
        cases hbad
      · exact hrefused
    · rcases hupdates good with ⟨-, haccepted⟩ | ⟨-, f, hf, -⟩
      · exact haccepted
      · rw [hf] at hgood
        cases hgood

end Keeper

end Adventure
