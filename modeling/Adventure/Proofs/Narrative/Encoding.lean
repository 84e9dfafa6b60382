import Adventure.Narrative.Parser
import Adventure.Proofs.Json.RoundTrip
import Adventure.Proofs.Text.Blank
/-!
# Answers in the agreed form

A response that is written in the agreed form is read as that response (`ofText_encode`). Every part
of the form has a value that it falls back to, so a name that is spelled in two ways, or a rule that
drops a legal value, would go unnoticed in a turn.
-/

namespace Adventure

open Json

namespace Text

/-- A text with neither blanks at its ends nor nothing in it: reading leaves it as it is. -/
structure Filled (s : String) : Prop where
  trimmed : trimmed s = s
  ne_empty : s ≠ ""

instance (s : String) : Decidable (Filled s) :=
  decidable_of_iff (trimmed s = s ∧ s ≠ "") ⟨fun h => ⟨h.1, h.2⟩, fun h => ⟨h.1, h.2⟩⟩

end Text

namespace Response

open Text

variable {r : Response} {c : Changes}

/-- Changes whose numbers are integers, the experience not negative, and whose texts are filled. -/
structure ChangesEncodable (c : Changes) : Prop where
  hpChange : c.hpChange.isInteger
  hpHeld : c.hpChange.Held
  experienceGained : c.experienceGained.isIntegerFrom 0
  experienceHeld : c.experienceGained.Held
  itemsGained : ∀ t ∈ c.itemsGained, Filled t
  itemsLost : ∀ t ∈ c.itemsLost, Filled t
  location : ∀ t, c.location = some t → Filled t
  npcsMet : ∀ t ∈ c.npcsMet, Filled t
  discoveries : ∀ t ∈ c.discoveries, Filled t

/-- A response that the agreed form can hold. -/
structure Encodable (r : Response) : Prop where
  narrative : Filled r.narrative
  options : ∀ t ∈ r.options, Filled t
  few : r.options.length ≤ mostOptions
  changes : ChangesEncodable r.changes
  isStructured : r.structured = true

/-! ## Parts that do not fall back -/

theorem lenientText_string {s : String} (h : Filled s) : lenientText (.string s) = some s := by
  rw [lenientText, h.trimmed, if_neg h.ne_empty]

theorem lenientText_ofText? {t : Option String} (h : ∀ s, t = some s → Filled s) :
    lenientText (.ofText? t) = t := by
  cases t with
  | none => rfl
  | some s => exact lenientText_string (h s rfl)

theorem lenientTexts_texts {ts : List String} (h : ∀ t ∈ ts, Filled t) :
    lenientTexts (.texts ts) = ts := by
  change (ts.map Value.string).filterMap _ = ts
  rw [List.filterMap_map]
  induction ts with
  | nil => rfl
  | cons t ts ih =>
    have ht := h t List.mem_cons_self
    rw [List.filterMap_cons_some (b := t) ?_, ih fun s hs => h s (List.mem_cons_of_mem _ hs)]
    simp [ht.trimmed, ht.ne_empty]

theorem decodeChanges_encodeChanges (h : ChangesEncodable c) :
    decodeChanges (encodeChanges c) = c := by
  have hhp : lenientInteger (.number c.hpChange) = c.hpChange := if_pos h.hpChange
  have hexperience : lenientCount (.number c.experienceGained) = c.experienceGained :=
    if_pos h.experienceGained
  simp only [encodeChanges, decodeChanges, Fields.get, List.reverse_cons, List.reverse_nil,
    List.nil_append, List.cons_append, List.find?_cons, String.reduceBEq, Option.map_some,
    Option.getD_some, hhp, hexperience, lenientTexts_texts h.itemsGained,
    lenientTexts_texts h.itemsLost, lenientText_ofText? h.location, lenientTexts_texts h.npcsMet,
    lenientTexts_texts h.discoveries]

theorem decode?_encode (h : Encodable r) : decode? r.encode = some r := by
  simp only [encode, decode?, Fields.get, List.reverse_cons, List.reverse_nil,
    List.nil_append, List.cons_append, List.find?_cons, String.reduceBEq, Option.map_some,
    Option.getD_some, lenientText_string h.narrative, lenientTexts_texts h.options,
    List.take_of_length_le h.few, decodeChanges_encodeChanges h.changes, Value.isTrue,
    ← h.isStructured]

/-! ## The text -/

theorem itemsWritable_map_string (ts : List String) : ItemsWritable (ts.map .string) := by
  induction ts with
  | nil => trivial
  | cons t ts ih => exact ⟨trivial, ih⟩

theorem writable_ofText? (t : Option String) : Writable (.ofText? t) := by
  cases t <;> trivial

theorem writable_of_isInteger {x : Number} (h : x.isInteger) (hx : x.Held) :
    Writable (.number x) := by
  obtain ⟨q, rfl⟩ := Number.eq_finite_of_isInteger h
  exact ⟨q, rfl, hx⟩

theorem writable_encodeChanges (h : ChangesEncodable c) : Writable (encodeChanges c) := by
  have hexperience := (Bool.and_eq_true_iff.1 h.experienceGained).1
  exact ⟨writable_of_isInteger h.hpChange h.hpHeld,
    writable_of_isInteger hexperience h.experienceHeld, itemsWritable_map_string _,
    itemsWritable_map_string _, writable_ofText? _, itemsWritable_map_string _,
    itemsWritable_map_string _, trivial⟩

theorem writable_encode (h : Encodable r) : Writable r.encode :=
  ⟨trivial, itemsWritable_map_string _, writable_encodeChanges h.changes, trivial, trivial⟩

/-- Nothing is trimmed from the text of an object. -/
theorem trim_print_object (fields : Fields) :
    trim (print (.object fields)) = print (.object fields) := by
  apply trim_eq_self
  · intro c hc
    obtain rfl := Option.some.inj hc
    decide
  · intro c hc
    rw [print, ← List.cons_append, List.getLast?_concat] at hc
    obtain rfl := Option.some.inj hc
    decide

/-- The whole text is the first part that is tried. -/
theorem ofText_of_whole {s : String} (h : ofCandidate? (trim s.toList) = some r) :
    ofText s = (r, []) := by
  have hfirst : (candidates s.toList).findSome? ofCandidate? = some r := by
    rw [candidates, List.findSome?_cons, h]
  rw [ofText, hfirst]

theorem ofCandidate?_encode (h : Encodable r) :
    ofCandidate? (trim (Json.text r.encode).toList) = some r := by
  rw [Json.text, String.toList_ofList, encode, trim_print_object, ← encode, ofCandidate?,
    read?_print (writable_encode h), Option.bind_some, decode?_encode h]

/-- **What is written in the agreed form is read as it was**: all of it, whatever characters its
texts have and however large its numbers are. -/
theorem ofText_encode (h : Encodable r) : ofText (Json.text r.encode) = (r, []) :=
  ofText_of_whole (ofCandidate?_encode h)

/-- Quotes, backslashes, braces, a fence and a control character in the texts, and numbers beyond
those that are written digit by digit. -/
theorem ofText_encode_of_marks :
    let r : Response :=
      { narrative := "The rune reads \"\\n\": ```json \x7b\"narrative\": \"\"\x7d```\n\x01\tand fades."
        options := ["1. \x7bRun\x7d", "Say \"no\"", "\\", "ひらめき 🎲"]
        changes :=
          { hpChange := .finite (-9007199254740994), experienceGained := .finite (10 ^ 21)
            itemsGained := ["a \\ b", "\""], itemsLost := [], location := some "\x7d"
            npcsMet := ["null"], discoveries := ["\x1f.", "\x7f"] }
        mechanicsApplied := true, structured := true }
    Encodable r ∧ ofText (Json.text r.encode) = (r, []) := by
  intro r
  have hr : Encodable r :=
    { narrative := by decide +kernel
      options := by decide +kernel
      few := by decide
      changes :=
        { hpChange := by decide +kernel
          hpHeld := by decide +kernel
          experienceGained := by decide +kernel
          experienceHeld := by decide +kernel
          itemsGained := by decide +kernel
          itemsLost := by decide +kernel
          location := by rintro t ⟨⟩; decide +kernel
          npcsMet := by decide +kernel
          discoveries := by decide +kernel }
      isStructured := rfl }
  exact ⟨hr, ofText_encode hr⟩

end Response

end Adventure
