import Adventure.Proofs.Text.Blank
import Adventure.Text.Search
/-!
# Occurrences in texts

Searching for a pattern splits a text around it (`splitFirst?_eq_some`), and finds nothing just where
the pattern is no part of the text (`afterLast?_eq_none`). What follows a heading is found behind it,
whatever stands before, if the heading does not come up in it once more (`afterLast?_heading`).
-/

namespace Adventure.Text

variable {pattern cs rest : List Char} {c : Char}

/-! ## Patterns -/

theorem after?_append (pattern cs : List Char) : after? pattern (pattern ++ cs) = some cs := by
  induction pattern with
  | nil => cases cs <;> rfl
  | cons p ps ih => rw [List.cons_append, after?, if_pos rfl, ih]

theorem after?_eq_some (h : after? pattern cs = some rest) : cs = pattern ++ rest := by
  fun_induction after? pattern cs with
  | case1 => exact Option.some.inj h
  | case2 => cases h
  | case3 p ps cs ih => rw [ih h, List.cons_append]
  | case4 => cases h

theorem after?_eq_none : after? pattern cs = none ↔ ¬ pattern <+: cs := by
  constructor
  · rintro h ⟨rest, rfl⟩
    cases h.symm.trans (after?_append pattern rest)
  · intro h
    cases hr : after? pattern cs with
    | none => rfl
    | some rest => exact absurd ⟨rest, (after?_eq_some hr).symm⟩ h

theorem splitFirst?_eq_some {before : List Char}
    (h : splitFirst? pattern cs = some (before, rest)) : cs = before ++ pattern ++ rest := by
  fun_induction splitFirst? pattern cs generalizing before with
  | case1 hp =>
    obtain ⟨rfl, rfl⟩ : [] = before ∧ [] = rest := by simpa using h
    simpa using hp
  | case2 => cases h
  | case3 c cs r hr =>
    obtain ⟨rfl, rfl⟩ : [] = before ∧ r = rest := by simpa using h
    exact after?_eq_some hr
  | case4 c cs _ ih =>
    obtain ⟨⟨b, r⟩, hb, he⟩ := Option.map_eq_some_iff.1 h
    obtain ⟨rfl, rfl⟩ := Prod.mk.inj he
    rw [ih hb, List.cons_append, List.cons_append]

/-- Nothing is found just where the pattern is no part of the text. -/
theorem afterLast?_eq_none : afterLast? pattern cs = none ↔ ¬ pattern <:+: cs := by
  fun_induction afterLast? pattern cs with
  | case1 hp => simp [List.isEmpty_iff.1 hp]
  | case2 hp => simpa using hp
  | case3 c cs r hr ih =>
    have hin : pattern <:+: cs := by
      by_contra hnot
      cases hr.symm.trans (ih.2 hnot)
    simp [List.infix_cons hin]
  | case4 c cs hr ih => rw [after?_eq_none, List.infix_cons_iff, not_or, and_iff_left (ih.1 hr)]

/-- The last occurrence, if the pattern comes up neither across its end nor behind it. -/
theorem afterLast?_append (before : List Char) (h : ¬ pattern <:+: (pattern ++ cs).tail) :
    afterLast? pattern (before ++ (pattern ++ cs)) = some cs := by
  have hne : pattern ≠ [] := by
    rintro rfl
    exact h List.nil_infix
  induction before with
  | nil =>
    obtain ⟨p, ps, rfl⟩ := List.exists_cons_of_ne_nil hne
    have hlast := afterLast?_eq_none.2 h
    rw [List.cons_append, List.tail_cons] at hlast
    rw [List.nil_append, List.cons_append, afterLast?, hlast, ← List.cons_append, after?_append]
  | cons b before ih => rw [List.cons_append, afterLast?, ih]

/-- **What follows a heading** is found behind it. The first character of a heading is not repeated
in it, so a heading does not come up across its own end. -/
theorem afterLast?_heading {ps : List Char} (before : List Char) (hp : c ∉ ps)
    (h : ¬ c :: ps <:+: cs) : afterLast? (c :: ps) (before ++ (c :: ps ++ cs)) = some cs := by
  apply afterLast?_append
  rw [List.cons_append, List.tail_cons, List.infix_append_iff]
  rintro (hin | hin | ⟨front, back, hsplit, hfront, hback⟩)
  · exact hp (hin.subset List.mem_cons_self)
  · exact h hin
  · cases front with
    | nil => exact h (hsplit ▸ hback.isInfix)
    | cons d front =>
      obtain rfl : c = d := (List.cons.inj hsplit).1
      exact hp (hfront.subset List.mem_cons_self)

/-! ## Blanks around a text -/

/-- A text that does not begin with a blank is no part of another one by way of the blanks before
it. -/
theorem infix_of_infix_blank_append {before : List Char} (hhead : ∀ c ∈ pattern.head?, ¬ isBlank c)
    (hb : ∀ c ∈ before, isBlank c) (h : pattern <:+: before ++ cs) : pattern <:+: cs := by
  induction before with
  | nil => exact h
  | cons b before ih =>
    rw [List.cons_append, List.infix_cons_iff] at h
    rcases h with h | h
    · cases pattern with
      | nil => exact List.nil_infix
      | cons p ps =>
        obtain rfl : p = b := (List.cons_prefix_cons.1 h).1
        exact absurd (hb p List.mem_cons_self) (hhead p rfl)
    · exact ih (fun c hc => hb c (List.mem_cons_of_mem _ hc)) h

/-- Trimming a text takes no part away that has no blank at its ends. -/
theorem infix_trim (hhead : ∀ c ∈ pattern.head?, ¬ isBlank c)
    (hlast : ∀ c ∈ pattern.getLast?, ¬ isBlank c) (h : pattern <:+: cs) : pattern <:+: trim cs := by
  obtain ⟨before, after, hsplit, hb, ha⟩ := trim_split cs
  rw [hsplit, List.append_assoc] at h
  have hright := List.reverse_infix.2 (infix_of_infix_blank_append hhead hb h)
  rw [List.reverse_append] at hright
  have hreverse := infix_of_infix_blank_append (by simpa using hlast) (by simpa using ha) hright
  exact List.reverse_infix.1 hreverse

theorem trim_cons_blank (h : isBlank c) (cs : List Char) : trim (c :: cs) = trim cs := by
  rw [trim, trimLeft, List.dropWhile_cons_of_pos h]
  rfl

/-! ## Lines -/

/-- The first line of a text is what stands before the first line end. -/
theorem headD_lines (cs : List Char) : (lines cs).headD [] = cs.takeWhile (· != '\n') := by
  induction cs with
  | nil => rfl
  | cons c cs ih =>
    by_cases hc : c = '\n'
    · rw [lines, if_pos hc, List.takeWhile_cons_of_neg (by simpa using hc)]
      rfl
    · rw [lines, if_neg hc, List.takeWhile_cons_of_pos (by simpa using hc), ← ih]
      cases lines cs <;> rfl

/-- The first line of a trimmed text has something in it, if the text has. -/
theorem takeWhile_trim_ne_nil (h : trim cs ≠ []) : (trim cs).takeWhile (· != '\n') ≠ [] := by
  obtain ⟨c, rest, hc⟩ := List.exists_cons_of_ne_nil h
  have hblank : ¬ isBlank c := not_isBlank_of_head?_trim (by rw [hc]; rfl)
  have hne : c ≠ '\n' := by
    rintro rfl
    exact hblank (by decide)
  rw [hc, List.takeWhile_cons_of_pos (by simpa using hne)]
  exact List.cons_ne_nil _ _

end Adventure.Text
