import Adventure.Proofs.Json.Rounded
import Adventure.Proofs.Narrative.Encoding
import Adventure.Proofs.Story.Proposal
/-!
# The form of what is read

Whatever a narrator's text is, what is read from it is in normal form (`normal_ofText`): its texts are
trimmed and its lists hold no empty ones, its numbers are integers that rounding keeps, and nothing is
left for a second reading to repair. So a response that was read from JSON is what is read from the
JSON that it is written as.
-/

namespace Adventure

open Json Text

namespace Response

variable {cs : List Char} {r : Response} {s : String} {v : Value}

/-- A response in normal form. -/
structure Normal (r : Response) : Prop where
  narrative : trimmed r.narrative = r.narrative
  options : ∀ t ∈ r.options, Filled t
  few : r.options.length ≤ 5
  changes : ChangesEncodable r.changes
  applied : r.mechanicsApplied = true → r.structured = true

theorem Encodable.normal (h : Encodable r) : r.Normal :=
  ⟨h.narrative.trimmed, h.options, h.few, h.changes, fun _ => h.isStructured⟩

/-! ## What falls back -/

theorem filled_trimmed (h : trimmed s ≠ "") : Filled (trimmed s) :=
  ⟨trimmed_ofList_trim s.toList, h⟩

theorem filled_of_lenientText {t : String} (h : lenientText v = some t) : Filled t := by
  unfold lenientText at h
  split at h
  · split at h
    · cases h
    · rename_i hne
      cases h
      exact filled_trimmed hne
  · cases h

theorem filled_of_mem_lenientTexts {t : String} (h : t ∈ lenientTexts v) : Filled t := by
  unfold lenientTexts at h
  split at h
  · obtain ⟨item, -, hitem⟩ := List.mem_filterMap.1 h
    exact filled_of_lenientText hitem
  · cases h

theorem held_lenientInteger (h : Rounded v) : (lenientInteger v).Held := by
  unfold lenientInteger
  split
  · split
    · exact h
    · exact Number.ofRat_zero
  · exact Number.ofRat_zero

theorem held_lenientCount (h : Rounded v) : (lenientCount v).Held := by
  unfold lenientCount
  split
  · split
    · exact h
    · exact Number.ofRat_zero
  · exact Number.ofRat_zero

theorem changesEncodable_nothing : ChangesEncodable .nothing where
  hpChange := Changes.wellFormed_nothing.hpChange
  hpHeld := Number.ofRat_zero
  experienceGained := Changes.wellFormed_nothing.experienceGained
  experienceHeld := Number.ofRat_zero
  itemsGained := by simp [Changes.nothing]
  itemsLost := by simp [Changes.nothing]
  location := by simp [Changes.nothing]
  npcsMet := by simp [Changes.nothing]
  discoveries := by simp [Changes.nothing]

/-- Every value is read as changes that the agreed form can hold. -/
theorem changesEncodable_decodeChanges (h : Rounded v) : ChangesEncodable (decodeChanges v) := by
  unfold decodeChanges
  split
  · rename_i fields
    have hget (key : String) : Rounded (Fields.get fields key) := FieldsRounded.get h key
    exact
      { hpChange := isInteger_lenientInteger _
        hpHeld := held_lenientInteger (hget _)
        experienceGained := isIntegerFrom_lenientCount _
        experienceHeld := held_lenientCount (hget _)
        itemsGained := fun _ => filled_of_mem_lenientTexts
        itemsLost := fun _ => filled_of_mem_lenientTexts
        location := fun _ => filled_of_lenientText
        npcsMet := fun _ => filled_of_mem_lenientTexts
        discoveries := fun _ => filled_of_mem_lenientTexts }
  · exact changesEncodable_nothing

theorem encodable_of_decode? (hv : Rounded v) (h : decode? v = some r) : Encodable r := by
  unfold decode? at h
  split at h
  · rename_i fields
    obtain ⟨narrative, hnarrative, rfl⟩ := Option.map_eq_some_iff.1 h
    exact
      { narrative := filled_of_lenientText hnarrative
        options := fun t ht => filled_of_mem_lenientTexts (List.mem_of_mem_take ht)
        few := List.length_take_le _ _
        changes := changesEncodable_decodeChanges (FieldsRounded.get hv _)
        isStructured := rfl }
  · cases h

/-- What is accepted as JSON can be written in the agreed form. -/
theorem encodable_of_accepted (h : ofCandidate? cs = some r) : Encodable r := by
  obtain ⟨v, hread, hv⟩ := Option.bind_eq_some_iff.1 h
  exact encodable_of_decode? (rounded_of_read? hread) hv

/-! ## Texts without a response -/

theorem filled_of_mem_optionLines {t : String} (h : t ∈ optionLines cs) : Filled t := by
  obtain ⟨line, hline, rfl⟩ := List.mem_map.1 h
  obtain ⟨hmem, hoption⟩ := List.mem_filter.1 (List.mem_of_mem_take hline)
  obtain ⟨whole, -, rfl⟩ := List.mem_map.1 hmem
  refine ⟨trimmed_ofList_trim whole, fun hempty => ?_⟩
  -- An empty line offers nothing.
  rw [String.ofList_eq_empty_iff] at hempty
  rw [hempty] at hoption
  cases hoption

theorem length_optionLines_le (cs : List Char) : (optionLines cs).length ≤ 5 := by
  rw [optionLines, List.length_map]
  exact List.length_take_le _ _

theorem normal_plain (cs : List Char) : (plain cs).Normal where
  narrative := trimmed_ofList_trim cs
  options := fun _ => filled_of_mem_optionLines
  few := length_optionLines_le cs
  changes := changesEncodable_nothing
  applied := fun h => by cases h

/-! ## All texts -/

/-- What is read can be written in the agreed form, or it is a narration. -/
theorem encodable_or_plain (s : String) : Encodable (ofText s).1 ∨ (ofText s).1 = plain s.toList :=
  (ofText_cases s).imp_left fun ⟨_, hcs⟩ => encodable_of_accepted hcs

theorem changesEncodable_ofText (s : String) : ChangesEncodable (ofText s).1.changes := by
  rcases encodable_or_plain s with hr | hplain
  · exact hr.changes
  · rw [hplain]
    exact changesEncodable_nothing

/-- **What is read is in normal form**, whatever the text is, and a second reading changes nothing:
if the text was read as JSON, the JSON of the response is read as the same response. -/
theorem normal_ofText (s : String) :
    (ofText s).1.Normal ∧
      ((ofText s).1.structured = true →
        ofText (Json.text (ofText s).1.encode) = ((ofText s).1, [])) := by
  rcases encodable_or_plain s with hr | hplain
  · exact ⟨hr.normal, fun _ => ofText_of_whole (ofCandidate?_encode hr)⟩
  · rw [hplain]
    exact ⟨normal_plain s.toList, fun h => by cases h⟩

/-- Words before the answer, blanks around its texts, an empty option and a number among them, a
fraction, an exponent, and a list in a list. -/
theorem normal_ofText_of_a_careless_answer :
    let s := "So: \x7b\"narrative\":\" Ow.\\n\",\"options\":[\" Run \",\"\",7],\"state_changes\":" ++
      "\x7b\"hp_change\":-0.5,\"experience_gained\":1e21,\"items_gained\":[\" bow \",[]]\x7d\x7d"
    let changes : Changes :=
      { Changes.nothing with experienceGained := .finite (10 ^ 21), itemsGained := ["bow"] }
    let r : Response := ⟨"Ow.", ["Run"], changes, false, true⟩
    (ofText s).1 = r ∧ r.structured = true ∧ r.Normal ∧
      ofText (Json.text r.encode) = (r, []) := by
  intro s changes r
  have hread : (ofText s).1 = r := by decide +kernel
  obtain ⟨hnormal, hstable⟩ := normal_ofText s
  rw [hread] at hnormal hstable
  exact ⟨hread, rfl, hnormal, hstable rfl⟩

end Response

end Adventure
