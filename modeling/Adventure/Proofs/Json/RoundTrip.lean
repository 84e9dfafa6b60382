import Adventure.Json.Printer
import Adventure.Proofs.Json.Scan
import Adventure.Proofs.Number.Numeral
/-!
# JSON that is read back

A value is read back from its JSON text (`read?_print`), if nothing in it is missing and all its
numbers have a value. Every character of a text comes back, whether it is written as it stands, with
a letter behind a backslash or in hexadecimal digits.

What follows a value must not go on with it: a comma or a bracket does not go on with a numeral, and
numerals are the only values that do not say where they end.
-/

namespace Adventure.Json

open Number

variable {cs rest : List Char}

/-! ## Texts -/

theorem hexUnit?_hexDigits (n : Nat) (h : n < 0x20) :
    hexUnit? '0' '0' (hexDigit (n / 16)) (hexDigit (n % 16)) = some n := by
  revert h
  revert n
  decide

theorem charUnits_of_lt {c : Char} (h : c.toNat < 0x10000) : Text.charUnits c = [c.toNat] := by
  rw [Text.charUnits, if_pos h]

/-- The letter behind a backslash stands for the character that it was written for. -/
theorem unescape?_of_escapeLetter? {c letter : Char} (h : escapeLetter? c = some letter) :
    unescape? letter = some c.toNat ∧ letter ≠ 'u' ∧ c.toNat < 0x10000 := by
  unfold escapeLetter? at h
  split at h
  all_goals cases h
  all_goals decide

theorem readUnits_letter {letter : Char} {n : Nat} (hu : letter ≠ 'u')
    (h : unescape? letter = some n) (cs : List Char) :
    readUnits ('\\' :: letter :: cs) = (readUnits cs).map fun p => (n :: p.1, p.2) := by
  rw [readUnits]
  · rw [h]
    cases readUnits cs <;> rfl
  · rintro a b c d r rfl -
    exact hu rfl

theorem readUnits_plain {c : Char} (hq : c ≠ '"') (hs : c ≠ '\\') (hc : ¬ c.toNat < 0x20)
    (cs : List Char) :
    readUnits (c :: cs) = (readUnits cs).map fun p => (Text.charUnits c ++ p.1, p.2) := by
  rw [readUnits]
  · rw [if_neg (by simp [hs, hc])]
    cases readUnits cs <;> rfl
  all_goals simp [hq, hs]

/-- What a character is written as is read as that character. -/
theorem readUnits_escape (c : Char) (cs : List Char) :
    readUnits (escape c ++ cs) =
      (readUnits cs).map fun p => (Text.charUnits c ++ p.1, p.2) := by
  unfold escape
  split
  · rename_i letter hletter
    obtain ⟨hunit, hu, hc⟩ := unescape?_of_escapeLetter? hletter
    rw [charUnits_of_lt hc]
    exact readUnits_letter hu hunit cs
  · rename_i hletter
    split
    · rename_i hc
      have hhex := hexUnit?_hexDigits c.toNat hc
      simp only [List.cons_append, List.nil_append]
      rw [readUnits, hhex, charUnits_of_lt (by omega)]
      cases readUnits cs <;> rfl
    · rename_i hc
      have hq : c ≠ '"' := by
        rintro rfl
        cases hletter
      have hs : c ≠ '\\' := by
        rintro rfl
        cases hletter
      exact readUnits_plain hq hs hc cs

theorem readUnits_flatMap_escape (cs rest : List Char) :
    readUnits (cs.flatMap escape ++ '"' :: rest) = some (Text.units cs, rest) := by
  induction cs with
  | nil => rfl
  | cons c cs ih =>
    rw [List.flatMap_cons, List.append_assoc, readUnits_escape, ih, Option.map_some]
    rfl

/-- **A text is read back**, whatever it holds. -/
theorem readText_quoted (s : String) (rest : List Char) :
    readText (s.toList.flatMap escape ++ '"' :: rest) = some (s, rest) := by
  rw [readText, readUnits_flatMap_escape, Option.map_some]
  simp only [Text.ofUnits_units, String.ofList_toList]

/-! ## Values -/

mutual

/-- Whether a value has a JSON text of its own: nothing in it is missing, and its numbers have a
value. -/
def Writable : Value → Prop
  | .missing => False
  | .number x => ∃ q, x = .finite q ∧ Held x
  | .array items => ItemsWritable items
  | .object fields => FieldsWritable fields
  | _ => True

def ItemsWritable : List Value → Prop
  | [] => True
  | v :: rest => Writable v ∧ ItemsWritable rest

def FieldsWritable : List (String × Value) → Prop
  | [] => True
  | (_, v) :: rest => Writable v ∧ FieldsWritable rest

end

/-- The characters that end a value in a list or an object. -/
def isEnd (c : Char) : Bool := c == ',' || isClosing c

theorem stops_of_isEnd {c : Char} (h : isEnd c) : Numeral.Stops (c :: rest) := by
  intro d hd
  obtain rfl := Option.some.inj hd
  simp only [isEnd, isClosing, Bool.or_eq_true, beq_iff_eq] at h
  rcases h with rfl | rfl | rfl <;> decide

theorem skipSpace_cons {c : Char} (h : ¬ isSpace c) (cs : List Char) :
    skipSpace (c :: cs) = c :: cs :=
  List.dropWhile_cons_of_neg h

theorem readPlain_chars {x : Rat} (h : Held (finite x)) (hr : Numeral.Stops rest) :
    readPlain ((finite x).chars ++ rest) = some (.number (finite x), rest) :=
  readPlain_of_readJson (Numeral.readJson_chars h hr)

/-- The text of a value begins neither with a blank nor with the end of a list. -/
theorem exists_cons_print {v : Value} (h : Writable v) :
    ∃ c cs, print v = c :: cs ∧ ¬ isSpace c ∧ c ≠ ']' := by
  cases v with
  | missing => exact h.elim
  | null => exact ⟨'n', _, rfl, by decide, by decide⟩
  | bool b => cases b <;> exact ⟨_, _, rfl, by decide, by decide⟩
  | number x =>
    obtain ⟨q, rfl, -⟩ := h
    obtain ⟨c, cs, hc, hd⟩ := exists_cons_chars q
    refine ⟨c, cs, hc, ?_, ?_⟩
    · intro hs
      simp only [isSpace, Bool.or_eq_true, beq_iff_eq] at hs
      rcases hs with ((rfl | rfl) | rfl) | rfl <;> revert hd <;> decide
    · rintro rfl
      revert hd
      decide
  | string s => exact ⟨'"', _, rfl, by decide, by decide⟩
  | array items => exact ⟨'[', _, rfl, by decide, by decide⟩
  | object fields => exact ⟨'\x7b', _, rfl, by decide, by decide⟩

theorem printFields_cons {key : String} {v : Value} {fields : Fields} (h : Writable v) :
    printFields ((key, v) :: fields) =
      (quoted key.toList ++ ':' :: print v) :: printFields fields := by
  cases v <;> first | rfl | exact h.elim

theorem exists_cons_printItems {v : Value} (h : Writable v) (vs : List Value) :
    ∃ c cs, List.intercalate [','] (printItems (v :: vs)) = c :: cs ∧ ¬ isSpace c ∧ c ≠ ']' := by
  obtain ⟨c, cs, hc, hs, hend⟩ := exists_cons_print h
  cases vs with
  | nil => exact ⟨c, cs, by rw [printItems, printItems, List.intercalate_singleton, hc], hs, hend⟩
  | cons w vs =>
    refine ⟨c, cs ++ [','] ++ List.intercalate [','] (printItems (w :: vs)), ?_, hs, hend⟩
    rw [printItems, printItems, List.intercalate_cons_cons, hc, ← printItems]
    rfl

theorem exists_cons_printFields {v : Value} (h : Writable v) (key : String) (fields : Fields) :
    ∃ cs, List.intercalate [','] (printFields ((key, v) :: fields)) = '"' :: cs := by
  rw [printFields_cons h]
  cases printFields fields with
  | nil => exact ⟨_, by rw [List.intercalate_singleton, quoted, List.cons_append]⟩
  | cons field fields => exact ⟨_, by rw [List.intercalate_cons_cons, quoted]; rfl⟩

theorem readValue_number {x : Rat} (h : Held (finite x)) (hr : Numeral.Stops rest) (n : Nat) :
    readValue (n + 1) ((finite x).chars ++ rest) = some (.number (finite x), rest) := by
  have hread := readPlain_chars h hr
  obtain ⟨c, cs, hc, hs, -⟩ := exists_cons_print (v := .number (finite x)) ⟨x, rfl, h⟩
  have hc : (finite x).chars = c :: cs := hc
  refine readValue_succ_eq_some.2 (.inr (.inr (.inr ?_)))
  rw [hc, List.cons_append] at hread ⊢
  rwa [skipSpace_cons hs]

/-- What stands between quotes is followed by its closing quote. -/
theorem quoted_append (cs rest : List Char) :
    quoted cs ++ rest = '"' :: (cs.flatMap escape ++ '"' :: rest) := by
  simp [quoted]

mutual

/-- A value is read from its text and what follows is left over, within as many steps as the text
has characters. -/
theorem readValue_print : (v : Value) → Writable v → (n : Nat) → (rest : List Char) →
    (print v).length ≤ n → Numeral.Stops rest → readValue n (print v ++ rest) = some (v, rest)
  | v, h, 0, rest, hn, _ => by
    obtain ⟨c, cs, hc, -⟩ := exists_cons_print h
    simp [hc] at hn
  | .missing, h, _ + 1, _, _, _ => h.elim
  | .null, _, n + 1, rest, _, _ => rfl
  | .bool true, _, n + 1, rest, _, _ => rfl
  | .bool false, _, n + 1, rest, _, _ => rfl
  | .number x, h, n + 1, rest, _, hr => by
    obtain ⟨q, rfl, hq⟩ := h
    exact readValue_number hq hr n
  | .string s, _, n + 1, rest, _, _ => by
    have hread := readText_quoted s rest
    rw [print, quoted_append]
    exact readValue_succ_eq_some.2 (.inl ⟨s, _, skipSpace_cons (by decide) _, hread, rfl⟩)
  | .array [], _, n + 1, rest, _, _ => rfl
  | .array (v :: vs), h, n + 1, rest, hn, _ => by
    have hread := readItems_print (v :: vs) (by simp) h n rest (by simp [print] at hn; omega)
    obtain ⟨c, cs, hc, hs, hend⟩ := exists_cons_printItems h.1 vs
    rw [print, List.cons_append, List.append_assoc, List.singleton_append]
    rw [hc, List.cons_append] at hread ⊢
    refine readValue_succ_eq_some.2
      (.inr (.inl ⟨_, _, skipSpace_cons (by decide) _, rfl, .inr ⟨hread, ?_⟩⟩))
    rw [skipSpace_cons hs, List.head?_cons]
    exact fun heq => hend (Option.some.inj heq)
  | .object [], _, n + 1, rest, _, _ => rfl
  | .object ((key, v) :: fs), h, n + 1, rest, hn, _ => by
    have hread := readFields_print ((key, v) :: fs) (by simp) h n rest (by simp [print] at hn; omega)
    obtain ⟨cs, hc⟩ := exists_cons_printFields h.1 key fs
    rw [print, List.cons_append, List.append_assoc, List.singleton_append]
    rw [hc, List.cons_append] at hread ⊢
    refine readValue_succ_eq_some.2
      (.inr (.inr (.inl ⟨_, _, skipSpace_cons (by decide) _, rfl, .inr ⟨hread, ?_⟩⟩)))
    rw [skipSpace_cons (by decide), List.head?_cons]
    decide

theorem readItems_print : (vs : List Value) → vs ≠ [] → ItemsWritable vs → (n : Nat) →
    (rest : List Char) → (List.intercalate [','] (printItems vs)).length < n →
    readItems n (List.intercalate [','] (printItems vs) ++ ']' :: rest) = some (vs, rest)
  | _, _, _, 0, _, hn => absurd hn (Nat.not_lt_zero _)
  | [], hne, _, _ + 1, _, _ => absurd rfl hne
  | [v], _, h, n + 1, rest, hn => by
    rw [printItems, printItems, List.intercalate_singleton] at hn ⊢
    have hv := readValue_print v h.1 n (']' :: rest) (by omega) (stops_of_isEnd rfl)
    exact readItems_succ_eq_some.2 ⟨v, _, hv, .inl ⟨skipSpace_cons (by decide) _, rfl⟩⟩
  | v :: w :: vs, _, h, n + 1, rest, hn => by
    rw [printItems, printItems, List.intercalate_cons_cons, ← printItems] at hn ⊢
    simp only [List.length_append, List.length_singleton] at hn
    have hv := readValue_print v h.1 n
      (',' :: (List.intercalate [','] (printItems (w :: vs)) ++ ']' :: rest)) (by omega)
      (stops_of_isEnd rfl)
    have hvs := readItems_print (w :: vs) (by simp) h.2 n rest (by omega)
    rw [List.append_assoc, List.append_assoc, List.singleton_append]
    exact readItems_succ_eq_some.2
      ⟨v, _, hv, .inr ⟨_, _, skipSpace_cons (by decide) _, hvs, rfl⟩⟩

theorem readFields_print : (fs : Fields) → fs ≠ [] → FieldsWritable fs → (n : Nat) →
    (rest : List Char) → (List.intercalate [','] (printFields fs)).length < n →
    readFields n (List.intercalate [','] (printFields fs) ++ '\x7d' :: rest) = some (fs, rest)
  | _, _, _, 0, _, hn => absurd hn (Nat.not_lt_zero _)
  | [], hne, _, _ + 1, _, _ => absurd rfl hne
  | [(key, v)], _, h, n + 1, rest, hn => by
    rw [printFields_cons h.1, printFields, List.intercalate_singleton] at hn ⊢
    simp only [List.length_append, List.length_cons] at hn
    have hv := readValue_print v h.1 n ('\x7d' :: rest) (by omega) (stops_of_isEnd rfl)
    rw [List.append_assoc, quoted_append]
    exact readFields_succ_eq_some.2 ⟨key, v, _, _, _, _, skipSpace_cons (by decide) _,
      readText_quoted key _, skipSpace_cons (by decide) _, hv,
      .inl ⟨skipSpace_cons (by decide) _, rfl⟩⟩
  | (key, v) :: g :: fs, _, h, n + 1, rest, hn => by
    obtain ⟨key', w⟩ := g
    rw [printFields_cons h.1, printFields_cons h.2.1, List.intercalate_cons_cons,
      ← printFields_cons h.2.1] at hn ⊢
    simp only [List.length_append, List.length_cons, List.length_nil] at hn
    have hv := readValue_print v h.1 n
      (',' :: (List.intercalate [','] (printFields ((key', w) :: fs)) ++ '\x7d' :: rest)) (by omega)
      (stops_of_isEnd rfl)
    have hfs := readFields_print ((key', w) :: fs) (by simp) h.2 n rest (by omega)
    rw [List.append_assoc, List.append_assoc, List.singleton_append, List.append_assoc,
      quoted_append]
    exact readFields_succ_eq_some.2 ⟨key, v, _, _, _, _, skipSpace_cons (by decide) _,
      readText_quoted key _, skipSpace_cons (by decide) _, hv,
      .inr ⟨_, _, skipSpace_cons (by decide) _, hfs, rfl⟩⟩

end

/-- **A value is read back from its JSON text.** -/
theorem read?_print {v : Value} (h : Writable v) : read? (print v) = some v := by
  have hread := readValue_print v h ((print v).length + 1) [] (Nat.le_succ _) Numeral.stops_nil
  rw [List.append_nil] at hread
  rw [read?, hread]
  rfl

end Adventure.Json
