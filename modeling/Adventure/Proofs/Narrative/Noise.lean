import Adventure.Narrative.Parser
import Adventure.Proofs.Json.Fields
import Adventure.Proofs.Json.Scan
import Adventure.Proofs.Text.Search
/-!
# Noise around an answer

A narrator's JSON object is found in whatever it is wrapped in, as long as no brace opens before it
and none closes after it (`ofText_noise`).

The outermost braces are exactly the object. The two parts that are tried before them are harder:
noise may open a fence that ends in one of the object's own texts, and one of these texts may hold a
whole fenced block. Such a part lies in the object. If it begins where the object begins, it is the
object; if not, a fence stands before it, and fences only stand inside of texts, so the part is
followed out of step with the object, and has no place for the name of the narration
(`eq_of_fenced`).
-/

namespace Adventure

open Json

namespace Response

variable {cs block before after : List Char} {r : Response}

/-! ## Accepted parts -/

/-- What is accepted is an object with a narration. -/
theorem exists_fields (h : ofCandidate? cs = some r) :
    ∃ fields t, read? cs = some (.object fields) ∧ Fields.get fields "narrative" = .string t := by
  obtain ⟨v, hread, hv⟩ := Option.bind_eq_some_iff.1 h
  cases v with
  | object fields =>
    obtain ⟨narrative, hn, -⟩ := Option.map_eq_some_iff.1 hv
    cases ht : Fields.get fields "narrative" with
    | string t => exact ⟨fields, t, hread, ht⟩
    | _ => rw [ht] at hn; cases hn
  | _ => cases hv

theorem structured_of_accepted (h : ofCandidate? cs = some r) : r.structured = true := by
  obtain ⟨v, -, hv⟩ := Option.bind_eq_some_iff.1 h
  cases v with
  | object fields =>
    obtain ⟨narrative, -, rfl⟩ := Option.map_eq_some_iff.1 hv
    rfl
  | _ => cases hv

/-- An accepted part without blanks at its ends is a block. -/
theorem block_of_accepted (h : ofCandidate? cs = some r)
    (hhead : ∀ c, cs.head? = some c → ¬ Text.isBlank c)
    (hlast : ∀ c, cs.getLast? = some c → ¬ Text.isBlank c) : Block cs := by
  obtain ⟨fields, -, hread, -⟩ := exists_fields h
  obtain ⟨rest, hv, hspace⟩ := exists_rest hread
  obtain ⟨block, hb, hblock⟩ := block_of_readValue hv
  have hskip : skipSpace cs = cs := by
    cases cs with
    | nil => rfl
    | cons c cs => exact List.dropWhile_cons_of_neg fun hc => hhead c rfl (isBlank_of_isSpace hc)
  rw [hskip] at hb
  rcases List.eq_nil_or_concat' rest with rfl | ⟨rest', c, rfl⟩
  · rwa [hb, List.append_nil]
  · have hc : Text.isBlank c := isBlank_of_isSpace (hspace c (by simp))
    exact absurd hc (hlast c (by simp [hb]))

/-- The name of the narration has a letter that stands only in texts, or is written with escapes. -/
theorem mem_of_accepted (h : ofCandidate? cs = some r) : 'v' ∈ cs ∨ '\\' ∈ cs := by
  obtain ⟨fields, t, hread, ht⟩ := exists_fields h
  obtain ⟨rest, hv, -⟩ := exists_rest hread
  have hmem : ("narrative", .string t) ∈ fields := Fields.mem_of_get ht (by simp)
  rcases readValue_succ_eq_some.1 hv with
    ⟨_, _, _, _, hv⟩ | ⟨_, _, _, hv, _⟩ | ⟨fs, r, ho, hv, hr⟩ | hp
  · cases hv
  · cases hv
  · obtain rfl : fields = fs := Value.object.inj hv
    rcases hr with ⟨-, rfl⟩ | ⟨hr, -⟩
    · cases hmem
    · have hsub : r <:+ cs :=
        (List.suffix_cons _ _).trans (ho ▸ (passed_skipSpace cs).suffix)
      by_cases hs : '\\' ∈ cs
      · exact .inr hs
      · exact .inl (hsub.mem (mem_of_key hr (fun hm => hs (hsub.mem hm)) hmem 'v' (by decide)))
  · exact absurd hp readPlain_ne_object

/-! ## Parts in noise -/

/-- A part that begins and ends with a brace lies in the object, if the noise before the object has
no opening brace and the noise after it no closing one. -/
theorem exists_within {p j s x : List Char} (hp : '\x7b' ∉ p) (hs : '\x7d' ∉ s)
    (hopen : x.head? = some '\x7b') (hclose : x.getLast? = some '\x7d')
    (h : p ++ j ++ s = before ++ x ++ after) :
    ∃ u v, before = p ++ u ∧ after = v ++ s ∧ j = u ++ x ++ v := by
  obtain ⟨u, hu, hj⟩ : ∃ u, before = p ++ u ∧ j ++ s = u ++ x ++ after := by
    rw [List.append_assoc, List.append_assoc, List.append_eq_append_iff] at h
    rcases h with ⟨u, hb, hj⟩ | ⟨u, hpu, hj⟩
    · exact ⟨u, hb, by simpa using hj⟩
    · cases u with
      | nil => exact ⟨[], by simpa using hpu.symm, by simpa using hj.symm⟩
      | cons c u =>
        have hc := congrArg List.head? hj
        rw [List.head?_append, hopen, Option.some_or, List.cons_append, List.head?_cons] at hc
        obtain rfl := Option.some.inj hc
        exact absurd (hpu ▸ List.mem_append_right _ List.mem_cons_self) hp
  rw [List.append_eq_append_iff] at hj
  rcases hj with ⟨v, hxv, hsv⟩ | ⟨v, hjv, hav⟩
  · cases v with
    | nil => exact ⟨u, [], hu, by simpa using hsv.symm, by simpa using hxv.symm⟩
    | cons c v =>
      have hc := congrArg List.getLast? hxv
      rw [List.getLast?_append, List.getLast?_append, hclose, Option.some_or, List.getLast?_cons,
        Option.some_or, ← List.getLast?_cons] at hc
      exact absurd (hsv ▸ List.mem_append_left _ (List.mem_of_getLast? hc.symm)) hs
  · exact ⟨u, v, hu, hav, hjv⟩

theorem dropWhile_noise {d : Char} {p rest : List Char} (hp : d ∉ p)
    (hrest : rest.head? = some d) : (p ++ rest).dropWhile (· != d) = rest := by
  rw [List.dropWhile_append_of_pos fun c hc => by simpa using fun e : c = d => hp (e ▸ hc)]
  cases rest with
  | nil => cases hrest
  | cons c rest =>
    obtain rfl := Option.some.inj hrest
    exact List.dropWhile_cons_of_neg (by simp)

/-- The outermost braces are the object. -/
theorem braced_eq {p j s : List Char} (hp : '\x7b' ∉ p) (hs : '\x7d' ∉ s)
    (hopen : j.head? = some '\x7b') (hclose : j.getLast? = some '\x7d') :
    braced (p ++ j ++ s) = j := by
  have hleft : (p ++ j ++ s).dropWhile (· != '\x7b') = j ++ s := by
    rw [List.append_assoc]
    exact dropWhile_noise hp (by rw [List.head?_append, hopen, Option.some_or])
  have hright : (j ++ s).reverse.dropWhile (· != '\x7d') = j.reverse := by
    rw [List.reverse_append]
    exact dropWhile_noise (by simpa using hs) (by rw [List.head?_reverse, hclose])
  rw [braced, hleft, hright, List.reverse_reverse]

/-- The inside of a fenced block comes after a fence and perhaps the name of the format. -/
theorem fenced_split (h : fenced cs ≠ []) :
    ∃ a gap after, cs = a ++ fence ++ gap ++ fenced cs ++ after ∧
      ∀ c ∈ gap, Text.isBlank c ∨ c ∈ "json".toList := by
  unfold fenced at h ⊢
  split at h
  · exact absurd rfl h
  rename_i a rest hopen
  split at h
  · exact absurd rfl h
  rename_i inside after hclose
  obtain ⟨format, hrest, hf⟩ : ∃ format, rest = format ++ withoutFormat rest ∧
      ∀ c ∈ format, c ∈ "json".toList := by
    unfold withoutFormat
    cases hf : Text.after? "json".toList rest with
    | none => exact ⟨[], rfl, by simp⟩
    | some r => exact ⟨"json".toList, Text.after?_eq_some hf, fun c hc => hc⟩
  obtain ⟨blank, blank', hinside, hb, -⟩ := Text.trim_split inside
  refine ⟨a, format ++ blank, blank' ++ fence ++ after, ?_, ?_⟩
  · rw [Text.splitFirst?_eq_some hclose] at hrest
    generalize Text.trim inside = t at hinside
    rw [Text.splitFirst?_eq_some hopen, hrest, hinside]
    simp
  · intro c hc
    rcases List.mem_append.1 hc with hc | hc
    · exact .inr (hf c hc)
    · exact .inl (hb c hc)

theorem next_tick {spot spot' : Spot} (h : spot.next '\x60' = some spot') :
    ∃ d, spot' = .inside d := by
  cases spot with
  | outside d => cases h
  | inside d => exact ⟨d, (Option.some.inj h).symm⟩
  | escaping d => cases h

/-- A fence only stands inside of texts. -/
theorem follow_fence {spot spot' : Spot} (h : follow spot (cs ++ fence) = some spot') :
    ∃ d, spot' = .inside d := by
  rw [fence, List.append_cons, List.append_cons, follow_append] at h
  obtain ⟨mid, -, h⟩ := Option.bind_eq_some_iff.1 h
  rw [follow_cons] at h
  obtain ⟨last, hlast, h⟩ := Option.bind_eq_some_iff.1 h
  obtain rfl := Option.some.inj h
  exact next_tick hlast

/-- What may stand between a fence and the inside of its block neither begins nor ends a text, and
has no brace. -/
theorem ne_of_gap {c : Char} (h : Text.isBlank c ∨ c ∈ "json".toList) :
    c ≠ '"' ∧ c ≠ '\\' ∧ c ≠ '\x7b' := by
  refine ⟨?_, ?_, ?_⟩ <;> rintro rfl <;> revert h <;> decide

/-- **A part that comes after a fence** and lies in an object is the object. -/
theorem eq_of_fenced {p j s x a gap : List Char} (hp : '\x7b' ∉ p) (hs : '\x7d' ∉ s)
    (hj : Block j) (hx : Block x) (haccepted : ofCandidate? x = some r)
    (hgap : ∀ c ∈ gap, Text.isBlank c ∨ c ∈ "json".toList)
    (h : p ++ j ++ s = a ++ fence ++ gap ++ x ++ after) : x = j := by
  obtain ⟨u, v, hu, -, rfl⟩ := exists_within hp hs hx.head? hx.getLast? h
  cases u with
  | nil =>
    rw [List.nil_append] at hj ⊢
    rw [eq_nil_of_block_append hx hj, List.append_nil]
  | cons c u =>
    obtain rfl : c = '\x7b' := Option.some.inj hj.head?
    rw [List.append_assoc, List.append_eq_append_iff] at hu
    rcases hu with ⟨w, -, hw⟩ | ⟨w, -, hw⟩
    · -- The object would begin in the fence or in the gap.
      have hmem : '\x7b' ∈ fence ++ gap := hw ▸ List.mem_append_right _ List.mem_cons_self
      rcases List.mem_append.1 hmem with hm | hm
      · exact absurd hm (by decide)
      · exact absurd rfl (ne_of_gap (hgap _ hm)).2.2
    · -- The fence stands in the object, and the part is followed from the inside of a text.
      have hall : follow (.outside 0) ((w ++ fence) ++ (gap ++ (x ++ v))) = some (.outside 0) := by
        have hcl := hj.closed 0
        rw [hw] at hcl
        simpa only [List.append_assoc] using hcl
      rw [follow_append] at hall
      obtain ⟨spot, hspot, hall⟩ := Option.bind_eq_some_iff.1 hall
      obtain ⟨d, rfl⟩ := follow_fence hspot
      have hstay : follow (.inside d) gap = some (.inside d) :=
        follow_inside (fun c hc => ⟨(ne_of_gap (hgap c hc)).1, (ne_of_gap (hgap c hc)).2.1⟩) d
      rw [follow_append, hstay, Option.bind_some, follow_append] at hall
      obtain ⟨_, hin, -⟩ := Option.bind_eq_some_iff.1 hall
      have hmarks := isMark_of_follow_both (hx.closed 0) hin
      rcases mem_of_accepted haccepted with hm | hm
      · exact absurd (hmarks _ hm) (by decide)
      · exact absurd (hmarks _ hm) (by decide)

/-- What is accepted as the whole text is the object: the noise is blank then. -/
theorem eq_of_whole {p j s x : List Char} (hp : '\x7b' ∉ p) (hs : '\x7d' ∉ s) (hj : Block j)
    (hx : Block x) (hb : ∀ c ∈ before, Text.isBlank c) (ha : ∀ c ∈ after, Text.isBlank c)
    (h : p ++ j ++ s = before ++ x ++ after) : x = j := by
  obtain ⟨u, v, rfl, rfl, rfl⟩ := exists_within hp hs hx.head? hx.getLast? h
  have hu : u = [] := by
    cases u with
    | nil => rfl
    | cons c u =>
      obtain rfl : c = '\x7b' := Option.some.inj hj.head?
      exact absurd (hb _ (List.mem_append_right _ List.mem_cons_self)) (by decide)
  have hv : v = [] := by
    rcases List.eq_nil_or_concat' v with rfl | ⟨v, c, rfl⟩
    · rfl
    · have hlast := hj.getLast?
      rw [← List.append_assoc, List.getLast?_concat] at hlast
      obtain rfl := Option.some.inj hlast
      exact absurd (ha '\x7d' (by simp)) (by decide)
  rw [hu, hv, List.nil_append, List.append_nil]

/-! ## The whole text -/

theorem block_of_trim (h : ofCandidate? (Text.trim cs) = some r) : Block (Text.trim cs) :=
  block_of_accepted h (fun _ => Text.not_isBlank_of_head?_trim)
    fun _ => Text.not_isBlank_of_getLast?_trim

theorem fenced_eq_trim (cs : List Char) : ∃ inside, fenced cs = Text.trim inside := by
  unfold fenced
  split
  · exact ⟨[], rfl⟩
  · split
    · exact ⟨[], rfl⟩
    · exact ⟨_, rfl⟩

/-- An acceptable object is what is read from every text that has it between such noise. -/
theorem findSome?_candidates {p j s : List Char} (hp : '\x7b' ∉ p) (hs : '\x7d' ∉ s)
    (hj : Block j) (hr : ofCandidate? j = some r) :
    (candidates (p ++ j ++ s)).findSome? ofCandidate? = some r := by
  have hwhole (r') (h : ofCandidate? (Text.trim (p ++ j ++ s)) = some r') :
      Text.trim (p ++ j ++ s) = j := by
    obtain ⟨before, after, hsplit, hb, ha⟩ := Text.trim_split (p ++ j ++ s)
    exact eq_of_whole hp hs hj (block_of_trim h) hb ha hsplit
  have hfenced (r') (h : ofCandidate? (fenced (p ++ j ++ s)) = some r') :
      fenced (p ++ j ++ s) = j := by
    have hne : fenced (p ++ j ++ s) ≠ [] := by
      intro hnil
      rw [hnil] at h
      cases h
    obtain ⟨a, gap, after, hsplit, hgap⟩ := fenced_split hne
    obtain ⟨inside, hinside⟩ := fenced_eq_trim (p ++ j ++ s)
    exact eq_of_fenced hp hs hj (hinside ▸ block_of_trim (hinside ▸ h)) h hgap hsplit
  have hbraced := braced_eq hp hs hj.head? hj.getLast?
  have hpart (x) (h : ∀ r', ofCandidate? x = some r' → x = j) :
      ofCandidate? x = none ∨ ofCandidate? x = some r := by
    cases hx : ofCandidate? x with
    | none => exact .inl rfl
    | some r' =>
      obtain rfl := h r' hx
      exact .inr (hx.symm.trans hr)
  rw [candidates, hbraced]
  rcases hpart _ hwhole with hw | hw <;> rcases hpart _ hfenced with hf | hf <;>
    simp only [List.findSome?_cons, hw, hf, hr]

variable {p j s : String} {fields : Fields} {t : String}

/-- **Noise around an answer does not change it**: what stands before the first opening and after
the last closing brace of an acceptable object is of no account. -/
theorem ofText_noise (hopen : j.toList.head? = some '\x7b') (hclose : j.toList.getLast? = some '\x7d')
    (hread : Json.read? j.toList = some (.object fields))
    (hnarrative : Fields.get fields "narrative" = .string t) (ht : Text.trimmed t ≠ "")
    (hp : '\x7b' ∉ p.toList) (hs : '\x7d' ∉ s.toList) :
    ofText (p ++ j ++ s) = ofText j ∧ (ofText j).1.structured = true := by
  obtain ⟨r, hr⟩ : ∃ r, ofCandidate? j.toList = some r := by
    rw [← Option.isSome_iff_exists, ofCandidate?, hread, Option.bind_some, decode?, hnarrative,
      lenientText, if_neg ht, Option.isSome_map, Option.isSome_some]
  have hj : Block j.toList := by
    apply block_of_accepted hr
    · intro c hc
      obtain rfl := Option.some.inj (hopen.symm.trans hc)
      decide
    · intro c hc
      obtain rfl := Option.some.inj (hclose.symm.trans hc)
      decide
  have hnoisy : ofText (p ++ j ++ s) = (r, []) := by
    rw [ofText, String.toList_append, String.toList_append, findSome?_candidates hp hs hj hr]
  have halone : ofText j = (r, []) := by
    have h := findSome?_candidates (List.not_mem_nil) (List.not_mem_nil) hj hr
    rw [List.nil_append, List.append_nil] at h
    rw [ofText, h]
  rw [hnoisy, halone]
  exact ⟨rfl, structured_of_accepted hr⟩

/-- A fence that is opened in the noise and ends in the narration, which has a block of its own. -/
theorem ofText_noise_of_fences :
    let j := "\x7b\"narrative\": \"You read: ```\x7bx\x7d``` [a rune].\"\x7d"
    ofText ("Here \"it\" is: ```json\n" ++ j ++ "\n``` [done] ```") = ofText j ∧
      (ofText j).1.structured = true := by
  intro j
  have hread : read? j.toList =
      some (.object [("narrative", .string "You read: ```\x7bx\x7d``` [a rune].")]) := by
    decide +kernel
  exact ofText_noise (by decide) (by decide) hread rfl (by decide +kernel) (by decide) (by decide)

end Response

end Adventure
