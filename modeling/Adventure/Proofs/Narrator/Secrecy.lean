import Adventure.Narrator.Startup
import Adventure.Proofs.Narrator.Keeper
/-!
# Keys stay hidden

Of a key nothing is shown but whether it is empty. Settings with their keys veiled have the same
views as the settings themselves, and a patch that names no key does to them what it does to the
settings (`Settings.update?_veiled`). So what is shown in the course of any updates is determined by
the veiled settings at the beginning, and these are the same in environments that differ in the
contents of their keys alone (`Keeper.keys_stay_hidden`).
-/

namespace Adventure

/-! ## Veiled records -/

/-- What may be known of a key: whether it is empty. -/
def Value.veiled : Value → Value
  | .string s => .string (if s = "" then "" else "*")
  | v => v

theorem Value.holds_veiled (v : Value) : v.veiled.holds = v.holds := by
  cases v with
  | string s => by_cases h : s = "" <;> simp [veiled, holds, h]
  | _ => rfl

theorem Settings.isSet_veiled (v : Value) : isSet v.veiled = isSet v := by
  cases v with
  | string s => by_cases h : s = "" <;> simp [Value.veiled, isSet, h]
  | _ => rfl

/-- A patch that names no key; those of the fields that may be changed are of this kind. -/
def Value.NamesNoKey (patch : Value) : Prop :=
  ∀ key ∈ Fields.keys patch.ownFields, key ∉ Settings.keyNames

instance (patch : Value) : Decidable patch.NamesNoKey :=
  inferInstanceAs (Decidable (∀ key ∈ Fields.keys patch.ownFields, key ∉ Settings.keyNames))

namespace Fields

variable {fields base patch : Fields} {key : String}

/-- The record with its keys veiled. -/
def veiled (fields : Fields) : Fields :=
  fields.map fun f => (f.1, if f.1 ∈ Settings.keyNames then f.2.veiled else f.2)

theorem keys_veiled (fields : Fields) : keys (veiled fields) = keys fields := by
  simp [keys, veiled]

theorem get_veiled (fields : Fields) (key : String) :
    get (veiled fields) key =
      if key ∈ Settings.keyNames then (get fields key).veiled else get fields key := by
  induction fields with
  | nil => simp [veiled, get, Value.veiled]
  | cons f rest ih =>
    change get ((f.1, _) :: veiled rest) key = _
    rw [get_cons, get_cons, keys_veiled, ih]
    by_cases hrest : key ∈ keys rest
    · rw [if_pos hrest, if_pos hrest]
    · rw [if_neg hrest, if_neg hrest]
      by_cases hf : f.1 = key
      · rw [if_pos hf, if_pos hf, hf]
      · rw [if_neg hf, if_neg hf]
        simp [Value.veiled]

/-- A record without keys shows none. -/
theorem veiled_of_no_key (h : ∀ key ∈ keys fields, key ∉ Settings.keyNames) :
    veiled fields = fields := by
  refine (List.map_congr_left fun f hf => ?_).trans (List.map_id fields)
  rw [if_neg (h f.1 (List.mem_map_of_mem hf))]
  rfl

theorem veiled_set (h : key ∉ Settings.keyNames) (v : Value) (fields : Fields) :
    veiled (set key v fields) = set key v (veiled fields) := by
  induction fields with
  | nil => simp [veiled, set, h]
  | cons f rest ih =>
    change veiled (if f.1 = key then _ else _) = if f.1 = key then _ else _
    split
    · simp [veiled, h]
    · exact congrArg _ ih

theorem veiled_merge (h : ∀ key ∈ keys patch, key ∉ Settings.keyNames) (base : Fields) :
    veiled (merge base patch) = merge (veiled base) patch := by
  unfold merge
  induction patch generalizing base with
  | nil => rfl
  | cons f rest ih =>
    rw [List.foldl_cons, ih (fun key hkey => h key (List.mem_cons_of_mem _ hkey)),
      veiled_set (h f.1 List.mem_cons_self)]
    rfl

/-- Where the keys are left out, there is nothing to veil. -/
theorem without_veiled {names : List String} (h : ∀ key ∈ Settings.keyNames, key ∈ names)
    (fields : Fields) : without names (veiled fields) = without names fields := by
  induction fields with
  | nil => rfl
  | cons f rest ih =>
    have ih : (veiled rest).filter _ = rest.filter _ := ih
    change List.filter _ (_ :: veiled rest) = List.filter _ (f :: rest)
    rw [List.filter_cons, List.filter_cons, ih]
    by_cases hf : f.1 ∈ names
    · simp [hf]
    · have hkey : f.1 ∉ Settings.keyNames := fun hkey => hf (h f.1 hkey)
      simp [hf, hkey]

end Fields

/-! ## Environments -/

namespace Environment

/-- The variables that hold keys. -/
def keyVariables : List String := ["OPENAI_API_KEY", "CLAUDE_API_KEY", "GEMINI_API_KEY"]

/-- Two environments that differ in the contents of their keys alone: what is not a key is the same,
and a key is empty, or not set, in both or in none. -/
structure SameButKeys (env env' : Environment) : Prop where
  others : ∀ name, name ∉ keyVariables → text? env name = text? env' name
  emptiness : ∀ name ∈ keyVariables, textOr env name "" = "" ↔ textOr env' name "" = ""

end Environment

/-! ## Veiled settings -/

namespace Settings

variable {s : Settings} {patch : Value}

/-- The settings with their keys veiled. -/
def veiled (s : Settings) : Settings :=
  { s with
    openAi := ⟨s.openAi.key.veiled, s.openAi.model⟩
    claude := ⟨s.claude.key.veiled, s.claude.model⟩
    gemini := ⟨s.gemini.key.veiled, s.gemini.model⟩ }

theorem fieldNames_of_keyNames : ∀ key ∈ keyNames, key ∈ fieldNames := by decide

theorem ofFields?_veiled (fields : Fields) :
    ofFields? (Fields.veiled fields) = (ofFields? fields).map veiled := by
  have hlimits : checkLimits (Fields.veiled fields) = checkLimits fields := by
    simp [checkLimits, Shape.fieldOf, Fields.get_veiled, keyNames]
  have hextra : Fields.without fieldNames (Fields.veiled fields) = Fields.without fieldNames fields :=
    Fields.without_veiled fieldNames_of_keyNames fields
  unfold ofFields?
  rw [hlimits, hextra]
  cases checkLimits fields with
  | error issues => rfl
  | ok limits => simp [Fields.get_veiled, keyNames, Except.map, veiled]

/-- **Environments that differ in the contents of their keys alone** are refused for the same fault, or
give the same settings but for their keys. -/
theorem load_cases {env env' : Environment} (h : Environment.SameButKeys env env') :
    (∃ f, load env = .error f ∧ load env' = .error f) ∨
    ∃ s s', load env = .ok s ∧ load env' = .ok s' ∧ s.veiled = s'.veiled := by
  have hother {name : String} (hname : name ∉ Environment.keyVariables) (fallback : String) :
      Environment.textOr env name fallback = Environment.textOr env' name fallback :=
    congrArg (Option.getD · fallback) (h.others name hname)
  have hkeys : ∀ name ∈ Environment.keyVariables,
      (Value.string (Environment.textOr env name "")).veiled =
        (Value.string (Environment.textOr env' name "")).veiled := by
    intro name hname
    simp only [Value.veiled, h.emptiness name hname]
  have hfields : Fields.veiled (fieldsOf env) = Fields.veiled (fieldsOf env') := by
    simpa [fieldsOf, Fields.veiled, keyNames, Environment.keyVariables, hother] using hkeys
  have hload : (load env).map veiled = (load env').map veiled := by
    rw [load, load, ← ofFields?_veiled, ← ofFields?_veiled, hfields]
  cases hs : load env with
  | error f =>
    rw [hs] at hload
    cases hs' : load env' with
    | error f' =>
      rw [hs'] at hload
      exact .inl ⟨f, rfl, (Except.error.inj hload).symm ▸ rfl⟩
    | ok s' =>
      rw [hs'] at hload
      cases hload
  | ok s =>
    rw [hs] at hload
    cases hs' : load env' with
    | error f' =>
      rw [hs'] at hload
      cases hload
    | ok s' =>
      rw [hs'] at hload
      exact .inr ⟨s, s', rfl, rfl, Except.ok.inj hload⟩

/-- No field that a patch has brought in is a key. -/
theorem Sound.toFields_veiled (h : s.Sound) : s.veiled.toFields = Fields.veiled s.toFields := by
  have hextra : Fields.veiled s.extra = s.extra :=
    Fields.veiled_of_no_key fun key hkey hname =>
      h.not_mem_extra (fieldNames_of_keyNames key hname) hkey
  unfold toFields
  rw [Fields.veiled, List.map_append]
  change _ ++ s.extra = _ ++ Fields.veiled s.extra
  rw [hextra]
  simp [keyNames, veiled]

/-- **A patch that names no key** does to veiled settings what it does to the settings. -/
theorem update?_veiled (h : s.Sound) (hpatch : patch.NamesNoKey) :
    s.veiled.update? patch = (s.update? patch).map veiled := by
  rw [update?, update?, h.toFields_veiled, ← Fields.veiled_merge hpatch, ofFields?_veiled]

/-! ## Views -/

theorem availableProviders_veiled (s : Settings) :
    s.veiled.availableProviders = s.availableProviders := by
  simp [availableProviders, veiled, Value.holds_veiled]

theorem publicFields_veiled (h : s.Sound) : s.veiled.publicFields = s.publicFields := by
  have hopen : Fields.without keyNames s.veiled.toFields = Fields.without keyNames s.toFields := by
    rw [h.toFields_veiled, Fields.without_veiled fun _ hkey => hkey]
  unfold publicFields
  rw [hopen, availableProviders_veiled]
  simp only [veiled, isSet_veiled]

theorem isAvailable_veiled (s : Settings) (w w' : Wires) :
    (knownProviders w).map (fun p => p.isAvailable s.veiled) =
      (knownProviders w').map fun p => p.isAvailable s := by
  simp [knownProviders, Mock.provider, OpenAi.provider, Claude.provider, Gemini.provider,
    OpenAi.isAvailable, Claude.isAvailable, Gemini.isAvailable, veiled, Value.holds_veiled]

/-- The start notes down each provider with its availability, and then that the narrator is ready. -/
theorem events_start (s : Settings) (w : Wires) :
    (Registry.start s w).2 =
      [.providerRegistered Settings.keylessProvider true,
        .providerRegistered OpenAi.name s.openAi.key.holds,
        .providerRegistered Claude.name s.claude.key.holds,
        .providerRegistered Gemini.name s.gemini.key.holds, s.readyEvent] := rfl

theorem start_veiled (s : Settings) (w w' : Wires) :
    (Registry.start s.veiled w).2 = (Registry.start s w').2 := by
  rw [events_start, events_start, readyEvent, readyEvent, availableProviders_veiled]
  simp [veiled, Value.holds_veiled]

/-! ## Keys -/

/-- The keys, in the order of their names. -/
def keys (s : Settings) : List Value := [s.openAi.key, s.claude.key, s.gemini.key]

theorem Sound.keys_eq (h : s.Sound) : s.keys = keyNames.map (Fields.get s.toFields) := by
  have hget {key : String} (hkey : key ∈ fieldNames) :
      Fields.get s.toFields key = Fields.get { s with extra := [] }.toFields key := by
    unfold toFields
    rw [Fields.get_append, if_neg (h.not_mem_extra hkey), List.append_nil]
  simp only [keyNames, List.map_cons, List.map_nil, hget (by decide : "openaiApiKey" ∈ fieldNames),
    hget (by decide : "claudeApiKey" ∈ fieldNames), hget (by decide : "geminiApiKey" ∈ fieldNames)]
  rfl

/-- The keys are those of the environment, -/
theorem keys_load {env : Environment} (h : load env = .ok s) :
    s.keys = Environment.keyVariables.map fun name => .string (Environment.textOr env name "") := by
  rcases ofFields?_cases (fieldsOf env) with ⟨-, s', hs', -, hget⟩ | ⟨-, issues, hs'⟩
  · obtain rfl : s' = s := Except.ok.inj (hs'.symm.trans h)
    rw [(sound_load h).keys_eq, funext hget]
    rfl
  · cases hs'.symm.trans h

/-- and a patch that names none leaves them as they are. -/
theorem keys_update? (h : s.Sound) (hpatch : patch.NamesNoKey) {s' : Settings}
    (hs' : s.update? patch = .ok s') : s'.keys = s.keys := by
  rcases update?_cases h patch with ⟨-, s'', hs'', hsound, hget⟩ | ⟨-, f, hf, -⟩
  · obtain rfl : s'' = s' := Except.ok.inj (hs''.symm.trans hs')
    rw [hsound.keys_eq, h.keys_eq]
    refine List.map_congr_left fun key hkey => ?_
    rw [hget, if_neg fun hnamed => hpatch key hnamed hkey]
  · cases hf.symm.trans hs'

/-- With texts for keys there is a public view. -/
theorem exists_publicFields (h : ∀ v ∈ s.keys, ∃ text, v = .string text) :
    ∃ view, s.publicFields = .ok view := by
  obtain ⟨a, ha⟩ := h s.openAi.key (by simp [keys])
  obtain ⟨b, hb⟩ := h s.claude.key (by simp [keys])
  obtain ⟨c, hc⟩ := h s.gemini.key (by simp [keys])
  rw [publicFields, ha, hb, hc]
  exact ⟨_, rfl⟩

end Settings

/-! ## Keepers -/

namespace Keeper

variable {k k' : Keeper} {patch : Value} {patches : List Value}

/-- A keeper with its keys veiled. -/
def veiled (k : Keeper) : Keeper := ⟨k.settings.veiled, k.events⟩

/-- What comes of an update, the new settings apart: nothing, or why it is refused. -/
def verdict (k : Keeper) (patch : Value) : Except Fault Unit :=
  ((update patch).run k).1.map fun _ => ()

theorem verdict_veiled (h : k.settings.Sound) (hpatch : patch.NamesNoKey) :
    k.veiled.verdict patch = k.verdict patch := by
  have hupdate : k.veiled.settings.update? patch = _ := Settings.update?_veiled h hpatch
  rw [verdict, verdict, run_update, run_update, hupdate]
  cases k.settings.update? patch <;> rfl

theorem after_veiled (h : k.settings.Sound) (hpatch : patch.NamesNoKey) :
    k.veiled.after patch = (k.after patch).veiled := by
  have hupdate : k.veiled.settings.update? patch = _ := Settings.update?_veiled h hpatch
  rw [after, after, run_update, run_update, hupdate]
  cases k.settings.update? patch <;> rfl

/-- All updates see the veiled settings only. -/
theorem follow_veiled (h : k.settings.Sound) (hpatches : ∀ patch ∈ patches, patch.NamesNoKey) :
    patches.foldl after k.veiled = (patches.foldl after k).veiled := by
  induction patches generalizing k with
  | nil => rfl
  | cons patch rest ih =>
    rw [List.foldl_cons, List.foldl_cons, after_veiled h (hpatches patch List.mem_cons_self)]
    exact ih (sound_after h patch) fun p hp => hpatches p (List.mem_cons_of_mem _ hp)

theorem keys_after (h : k.settings.Sound) (hpatch : patch.NamesNoKey) :
    (k.after patch).settings.keys = k.settings.keys := by
  rw [after, run_update]
  cases hs : k.settings.update? patch with
  | error f => rfl
  | ok s => exact Settings.keys_update? h hpatch hs

theorem keys_follow (h : k.settings.Sound) (hpatches : ∀ patch ∈ patches, patch.NamesNoKey) :
    (patches.foldl after k).settings.keys = k.settings.keys := by
  induction patches generalizing k with
  | nil => rfl
  | cons patch rest ih =>
    rw [List.foldl_cons, ih (sound_after h patch) fun p hp => hpatches p (List.mem_cons_of_mem _ hp),
      keys_after h (hpatches patch List.mem_cons_self)]

/-! ## What is shown -/

/-- Two keepers that cannot be told apart from outside: not by the public view, by the providers that
are listed or say of themselves that they are available, by what has been noted down, by what a start
of the narrator notes down, or by what comes of an update. -/
structure Indistinct (k k' : Keeper) : Prop where
  view : ∃ view, k.settings.publicFields = .ok view ∧ k'.settings.publicFields = .ok view
  listed : k.settings.availableProviders = k'.settings.availableProviders
  available : ∀ w w', (knownProviders w).map (fun p => p.isAvailable k.settings) =
    (knownProviders w').map fun p => p.isAvailable k'.settings
  noted : k.events = k'.events
  started : ∀ w w', (Registry.start k.settings w).2 = (Registry.start k'.settings w').2
  updated : ∀ patch, patch.NamesNoKey → k.verdict patch = k'.verdict patch

/-- Keepers with the same veil cannot be told apart. -/
theorem indistinct_of_veiled (h : k.settings.Sound) (h' : k'.settings.Sound)
    (htexts : ∀ v ∈ k.settings.keys, ∃ text, v = .string text) (hveil : k.veiled = k'.veiled) :
    Indistinct k k' := by
  have hsettings : k.settings.veiled = k'.settings.veiled := congrArg Keeper.settings hveil
  have hevents : k.veiled.events = k'.veiled.events := congrArg Keeper.events hveil
  obtain ⟨view, hview⟩ := Settings.exists_publicFields htexts
  refine ⟨⟨view, hview, ?_⟩, ?_, fun w w' => ?_, hevents, fun w w' => ?_, ?_⟩
  · rw [← hview, ← Settings.publicFields_veiled h, ← Settings.publicFields_veiled h', hsettings]
  · rw [← Settings.availableProviders_veiled, hsettings, Settings.availableProviders_veiled]
  · rw [← Settings.isAvailable_veiled k.settings w w, hsettings, Settings.isAvailable_veiled _ w w']
  · rw [← Settings.start_veiled k.settings w w, hsettings, Settings.start_veiled _ w w']
  · intro patch hpatch
    rw [← verdict_veiled h hpatch, ← verdict_veiled h' hpatch, hveil]

/-- **Keys stay hidden.** Environments that differ in the contents of their keys alone are refused for
the same fault or both accepted; and then, whatever patches are sent that name no key, the two runs
cannot be told apart at any time. -/
theorem keys_stay_hidden {env env' : Environment} (h : Environment.SameButKeys env env') :
    (∃ f, start env = .error f ∧ start env' = .error f) ∨
    ∃ k k', start env = .ok k ∧ start env' = .ok k' ∧
      ∀ patches : List Value, (∀ patch ∈ patches, patch.NamesNoKey) →
        Indistinct (patches.foldl after k) (patches.foldl after k') := by
  unfold start
  rcases Settings.load_cases h with ⟨f, hf, hf'⟩ | ⟨s, s', hs, hs', hveil⟩
  · exact .inl ⟨f, by rw [hf]; rfl, by rw [hf']; rfl⟩
  · refine .inr ⟨⟨s, []⟩, ⟨s', []⟩, by rw [hs]; rfl, by rw [hs']; rfl, fun patches hpatches => ?_⟩
    have hsound := Settings.sound_load hs
    have hsound' := Settings.sound_load hs'
    have hveil : (⟨s, []⟩ : Keeper).veiled = (⟨s', []⟩ : Keeper).veiled :=
      congrArg (Keeper.mk · []) hveil
    refine indistinct_of_veiled (sound_follow hsound patches) (sound_follow hsound' patches) ?_ ?_
    · rw [keys_follow hsound hpatches]
      change ∀ v ∈ s.keys, _
      rw [Settings.keys_load hs]
      exact List.forall_mem_map.2 fun name _ => ⟨_, rfl⟩
    · rw [← follow_veiled hsound hpatches, ← follow_veiled hsound' hpatches, hveil]

/-- Two accounts of one vendor, with a patch of all that may be changed and one that is refused. -/
theorem keys_stay_hidden_of_two_accounts :
    let env (key : String) : Environment := [("OPENAI_API_KEY", key)]
    let good : Value := .object
      [("provider", .string "gemini"), ("openaiModel", .string "o"), ("claudeModel", .string "c"),
        ("geminiModel", .string "g"), ("maxRetries", .number 0), ("timeoutMs", .number 1),
        ("maxTokens", .number 2), ("temperature", .number 1), ("fallbackProvider", .string "openai")]
    let bad : Value := .object [("provider", .string "claude"), ("maxRetries", .number .nan)]
    ∃ k k', start (env "first") = .ok k ∧ start (env "second") = .ok k' ∧
      k.settings.openAi.key = .string "first" ∧ k'.settings.openAi.key = .string "second" ∧
      Indistinct ([good, bad].foldl after k) ([good, bad].foldl after k') := by
  intro env good bad
  have hsame : Environment.SameButKeys (env "first") (env "second") := by
    refine ⟨fun name hname => ?_, by decide +kernel⟩
    have hname : ¬ "OPENAI_API_KEY" = name := fun h => hname (h ▸ List.mem_cons_self)
    simp [env, Environment.text?, hname]
  have hfirst : (start (env "first")).toOption.map (fun k => k.settings.openAi.key) =
      some (.string "first") := by decide +kernel
  have hsecond : (start (env "second")).toOption.map (fun k => k.settings.openAi.key) =
      some (.string "second") := by decide +kernel
  rcases keys_stay_hidden hsame with ⟨f, hf, -⟩ | ⟨k, k', hk, hk', hindistinct⟩
  · rw [hf] at hfirst
    cases hfirst
  · rw [hk] at hfirst
    rw [hk'] at hsecond
    exact ⟨k, k', hk, hk', Option.some.inj hfirst, Option.some.inj hsecond,
      hindistinct _ (by decide +kernel)⟩

end Keeper

end Adventure
