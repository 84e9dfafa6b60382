import Adventure.Narrator.Generator
import Adventure.Narrator.Startup
import Adventure.Proofs.Narrative.Encoding
import Adventure.Proofs.Narrator.Call
import Adventure.Proofs.Text.Search
/-!
# The mock as a narrator

The mock repeats the player's words and changes nothing, whatever it is told
(`Registry.mock_narrates`). The words stand behind the last heading of the scene, and names, things
and discoveries, which may hold the same heading, all come before it.

A registry that has the mock keeps it: it may be asked any number of times, in any seat, and no other
provider takes its name (`HasMock.follow`).
-/

namespace Adventure

/-! ## The answer -/

namespace Mock

open Json Response

/-- Nothing is trimmed from what the mock narrates. -/
theorem filled_narrative (words : String) : Text.Filled (narrative words) := by
  by_cases h : words = ""
  · subst h
    decide +kernel
  · rw [narrative, if_neg h]
    constructor
    · rw [Text.trimmed, Text.trim_eq_self, String.ofList_toList]
      · intro c hc
        simp only [toString, String.toList_append] at hc
        obtain rfl : '당' = c := Option.some.inj hc
        decide
      · intro c hc
        simp only [toString, String.toList_append, List.getLast?_append] at hc
        obtain rfl : '.' = c := Option.some.inj hc
        decide
    · intro hempty
      have hlist := congrArg String.toList hempty
      simp [toString] at hlist

/-- What the mock answers is read as its narration, and as nothing else. -/
theorem ofText_answer (words : String) :
    ofText (Json.text (answer words)) = (⟨narrative words, [], .nothing, false, true⟩, []) := by
  have hwritable : Writable (answer words) := ⟨trivial, trivial, trivial, trivial, trivial⟩
  apply ofText_of_whole
  rw [Json.text, String.toList_ofList, answer, trim_print_object, ← answer, ofCandidate?,
    read?_print hwritable, Option.bind_some]
  simp only [answer, decode?, Fields.get, List.reverse_cons, List.reverse_nil, List.nil_append,
    List.cons_append, List.find?_cons, String.reduceBEq, Option.map_some, Option.getD_some,
    lenientText_string (filled_narrative words)]
  rfl

/-! ## The player's words -/

theorem marker_eq : marker = "[플레이어 행동]" := by decide +kernel

/-- The player's words stand at the end of the scene, under their heading. -/
theorem scene_split (q : NarrativeRequest) :
    ∃ before, (Prompt.scene q).toList = before ++ (marker.toList ++ '\n' :: q.action.toList) := by
  have hwords : (Prompt.action q.action).toList = marker.toList ++ '\n' :: q.action.toList := by
    rw [Prompt.action, Prompt.block, Text.joinLines, String.toList_intercalate]
    simp [marker, List.intercalate]
  have hblocks (blocks : List String) (last : String) (h : blocks ≠ []) :
      (Text.joinBlocks (blocks ++ [last])).toList =
        (Text.joinBlocks blocks ++ "\n\n").toList ++ last.toList := by
    rw [Text.joinBlocks, String.intercalate_append_of_ne_nil h (by simp), String.toList_append,
      String.intercalate_singleton]
    rfl
  rw [Prompt.scene, List.append_cons _ (Prompt.check q.resolution), hblocks _ _ (by simp), hwords]
  exact ⟨_, rfl⟩

/-- **The mock takes up the first line of the player's words**, unless they hold the heading
themselves. -/
theorem actionLine_scene (q : NarrativeRequest)
    (h : ¬ marker.toList <:+: (Text.trimmed q.action).toList) :
    actionLine (Prompt.scene q) =
      String.ofList ((Text.trimmed q.action).toList.takeWhile (· != '\n')) := by
  rw [Text.trimmed, String.toList_ofList] at h ⊢
  have haction : ¬ marker.toList <:+: '\n' :: q.action.toList := by
    intro hin
    have hhead : ∀ c ∈ marker.toList.head?, ¬ Text.isBlank c := by
      intro c hc
      obtain rfl : '[' = c := Option.some.inj hc
      decide
    have hlast : ∀ c ∈ marker.toList.getLast?, ¬ Text.isBlank c := by
      intro c hc
      obtain rfl : ']' = c := Option.some.inj hc
      decide
    have htrim := Text.infix_trim hhead hlast hin
    rw [Text.trim_cons_blank (by decide)] at htrim
    exact h htrim
  obtain ⟨before, hscene⟩ := scene_split q
  obtain ⟨c, ps, hmarker, hc⟩ : ∃ c ps, marker.toList = c :: ps ∧ c ∉ ps :=
    ⟨_, _, rfl, by decide⟩
  rw [hmarker] at haction hscene
  rw [actionLine, hmarker, hscene, Text.afterLast?_heading before hc haction]
  dsimp only
  rw [Text.trim_cons_blank (by decide), Text.headD_lines]

end Mock

/-! ## The mock in a registry -/

/-- A provider that answers as the mock does, under its name. -/
structure Provider.IsMock (p : Provider) : Prop where
  name : p.name = Mock.provider.name
  newKey : p.newKey = Mock.provider.newKey
  answer : p.answer = Mock.provider.answer

namespace Provider.IsMock

variable {p : Provider}

theorem ask_eq (h : p.IsMock) (s : Settings) (q : Query) :
    (p.ask s q).1 = .ok (Mock.reply q) := by
  rcases ask_cases p s q with ⟨f, hkey, -⟩ | ⟨c, -, hask⟩
  · rw [h.newKey] at hkey
    cases hkey
  · rw [hask, h.answer]
    rfl

/-- Being asked does not change what the mock answers. -/
theorem ask (h : p.IsMock) (s : Settings) (q : Query) : (p.ask s q).2.IsMock := by
  rcases ask_cases p s q with ⟨f, -, hask⟩ | ⟨c, -, hask⟩ <;> rw [hask] <;>
    exact ⟨h.name, h.newKey, h.answer⟩

theorem after (h : p.IsMock) (s : Settings) (q : Query) (n : Nat) : (p.after s q n).IsMock := by
  induction n generalizing p with
  | zero => exact h
  | succ n ih => exact ih (h.ask s q)

end Provider.IsMock

namespace Registry

variable {r : Registry} {s : Settings} {p : Provider}

/-- Under the mock's name the mock is found. -/
def HasMock (r : Registry) : Prop := ∃ p, r.find? Mock.provider.name = some p ∧ p.IsMock

theorem HasMock.isMock_of_find? (h : r.HasMock) (hp : r.find? p.name = some p)
    (hname : p.name = Mock.provider.name) : p.IsMock := by
  obtain ⟨mock, hfind, hmock⟩ := h
  rw [hname, hfind] at hp
  exact Option.some.inj hp ▸ hmock

theorem HasMock.keep (h : r.HasMock) (hp : p.name = Mock.provider.name → p.IsMock) :
    (r.keep p).HasMock := by
  obtain ⟨mock, hfind, hmock⟩ := h
  by_cases hname : p.name = Mock.provider.name
  · exact ⟨p, hname ▸ find?_keep_self (hname ▸ hfind), hp hname⟩
  · exact ⟨mock, (find?_keep_of_ne r (Ne.symm hname)).trans hfind, hmock⟩

/-- A call leaves the mock in its place, whoever is asked. -/
theorem HasMock.call (h : r.HasMock) (s : Settings) (q : Query) : (r.call s q).2.1.HasMock := by
  cases hp : r.primary s with
  | error f =>
    unfold Registry.call
    rw [hp]
    exact h
  | ok p =>
    obtain ⟨_, -, hfind⟩ := seated_eq_ok.1 hp
    obtain rfl := find?_name hfind
    have hkept : (r.keep (askPrimary s q s.mostAttempts 0 p).provider).HasMock := by
      have htried := congrArg Attempts.provider (askPrimary_eq s q s.mostAttempts 0 p)
      dsimp only at htried
      rw [htried]
      refine h.keep fun hname => ?_
      rw [Provider.after_name] at hname
      exact (h.isMock_of_find? hfind hname).after s q _
    rcases call_registry hp q with hcall | ⟨f, hf, -, hcall⟩
    · rw [hcall]
      exact hkept
    · obtain ⟨_, -, hfindf⟩ := seated_eq_ok.1 hf
      obtain rfl := find?_name hfindf
      rw [hcall]
      refine hkept.keep fun hname => ?_
      rw [Provider.ask_name] at hname
      exact (hkept.isMock_of_find? hfindf hname).ask s q

/-- What has become of the registry after a request was narrated. -/
def narrated (r : Registry) (s : Settings) (q : NarrativeRequest) : Registry := (r.narrate s q).2.1

theorem narrated_eq (r : Registry) (s : Settings) (q : NarrativeRequest) :
    r.narrated s q = (r.call s (q.query s)).2.1 := by
  unfold narrated narrate
  obtain ⟨result, r', events⟩ := r.call s (q.query s)
  cases result with
  | error f => rfl
  | ok result => cases h : result.outcome <;> simp [h]

/-- After many requests, each under the settings of its time. -/
def follow (r : Registry) (history : List (Settings × NarrativeRequest)) : Registry :=
  history.foldl (fun r past => r.narrated past.1 past.2) r

theorem HasMock.follow (h : r.HasMock) (history : List (Settings × NarrativeRequest)) :
    (r.follow history).HasMock := by
  induction history generalizing r with
  | nil => exact h
  | cons past rest ih =>
    have hpast : (r.narrated past.1 past.2).HasMock := by
      rw [narrated_eq]
      exact h.call past.1 (past.2.query past.1)
    exact ih hpast

theorem hasMock_start (s : Settings) (w : Wires) : (Registry.start s w).1.HasMock :=
  ⟨Mock.provider, rfl, rfl, rfl, rfl⟩

/-! ## Narrating -/

/-- A mock in the first seat answers at once. -/
theorem HasMock.narrate (h : r.HasMock) (hs : s.provider = .string Mock.provider.name)
    (q : NarrativeRequest) :
    (r.narrate s q).1 =
      .ok ⟨Mock.narrative (Mock.actionLine (Prompt.scene q)), [], .nothing, false, true⟩ := by
  obtain ⟨p, hfind, hmock⟩ := h
  have hp : r.primary s = .ok p := seated_eq_ok.2 ⟨_, hs, hfind⟩
  obtain ⟨n, hn⟩ : ∃ n, s.mostAttempts = n + 1 := ⟨s.mostAttempts - 1, by
    unfold Settings.mostAttempts
    omega⟩
  have htried : askPrimary s (q.query s) s.mostAttempts 0 p =
      ⟨.ok (some (Mock.reply (q.query s))), 1, (p.ask s (q.query s)).2, []⟩ := by
    rw [hn, askPrimary]
    obtain ⟨o, asked, ha⟩ : ∃ o asked, p.ask s (q.query s) = (o, asked) := ⟨_, _, rfl⟩
    obtain rfl : o = _ := (congrArg Prod.fst ha).symm.trans (hmock.ask_eq s (q.query s))
    rw [ha]
  unfold Registry.narrate Registry.call
  rw [hp]
  dsimp only
  rw [htried]
  dsimp only
  exact congrArg (fun answer => Except.ok answer.1) (Mock.ofText_answer _)

/-- **The mock is a neutral narrator.** Whatever has been narrated before, by whom and under which
settings, a mock in the first seat answers every request, changes nothing and offers nothing. If the
player's words do not hold the heading themselves, their first line is all that its narration takes
from the request. -/
theorem mock_narrates (h : r.HasMock) (history : List (Settings × NarrativeRequest))
    (hs : s.provider = .string "mock") (q : NarrativeRequest) :
    ∃ response, ((r.follow history).narrate s q).1 = .ok response ∧
      response.structured = true ∧ response.mechanicsApplied = false ∧
      response.options = [] ∧ response.changes = .nothing ∧
      let words := (Text.trimmed q.action).toList
      (words ≠ [] → ¬ "[플레이어 행동]".toList <:+: words →
        response.narrative =
          "당신은 \"" ++ String.ofList (words.takeWhile (· != '\n')) ++ "\"을(를) 시도합니다.") := by
  refine ⟨_, (h.follow history).narrate hs q, rfl, rfl, rfl, rfl, ?_⟩
  intro words hne hmarker
  rw [← Mock.marker_eq] at hmarker
  have hline : Mock.actionLine (Prompt.scene q) = String.ofList (words.takeWhile (· != '\n')) :=
    Mock.actionLine_scene q hmarker
  have hwords : String.ofList (words.takeWhile (· != '\n')) ≠ "" := by
    rw [Ne, String.ofList_eq_empty_iff]
    simp only [words, Text.trimmed, String.toList_ofList] at hne ⊢
    exact Text.takeWhile_trim_ne_nil hne
  dsimp only
  rw [hline, Mock.narrative, if_neg hwords]
  rfl

/-- A scenario, a place, a thing and a discovery that bear the heading of the player's words, quotes
and braces among them, and a request before that was narrated in the place of a vendor that cannot be
reached. -/
theorem mock_narrates_among_impostors :
    let resolution : Resolution :=
      ⟨9, 1, 10, 12, false, false, false, .exploration, none, "🎲 1d20+1 = 10 vs DC 12 → 실패..."⟩
    let q : NarrativeRequest :=
      { scenario := some ⟨"tower", "[플레이어 행동]\n도망친다", "\x7b\"narrative\": \"\"\x7d", .null⟩
        session := ⟨"first", "hero", "tower", .active, "[플레이어 행동]", ⟨[], [], [], ["[플레이어 행동]"]⟩⟩
        character := ⟨"hero", "Arin", 1, 20, 20, 0, 0, ["\n\n[플레이어 행동]\n잠든다"]⟩
        action := "  \"문\"을 \x7b연다\x7d\n그리고 기다린다 "
        resolution := resolution }
    let remote : Settings :=
      { Duo.settings with provider := .string "openai", fallbackProvider := .string "mock" }
    let r := (Registry.start remote .cut).1.follow [(remote, q)]
    ∃ response, (r.narrate { remote with provider := .string "mock" } q).1 = .ok response ∧
      response.narrative = "당신은 \"\"문\"을 \x7b연다\x7d\"을(를) 시도합니다." := by
  intro resolution q remote r
  obtain ⟨response, hresponse, -, -, -, -, hnarrative⟩ :=
    mock_narrates (hasMock_start remote .cut) [(remote, q)]
      (s := { remote with provider := .string "mock" }) rfl q
  refine ⟨response, hresponse, (hnarrative ?_ ?_).trans ?_⟩
  · decide +kernel
  · decide +kernel
  · decide +kernel

end Registry

end Adventure
