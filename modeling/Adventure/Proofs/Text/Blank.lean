import Adventure.Text.Blank
import Mathlib.Data.List.Basic
import Mathlib.Data.List.TakeWhile
/-!
# Trimmed texts

Trimming takes blanks away at both ends and nothing else (`trim_split`), and leaves no blank there.
So what was trimmed once is not trimmed again (`trim_trim`).

The blanks are listed one by one (`isBlank_iff`), and the trimmed text is the only one that can be
left over (`trims_iff`).
-/

namespace Adventure.Text

variable {cs : List Char} {c : Char}

theorem trim_split (cs : List Char) :
    ∃ before after, cs = before ++ trim cs ++ after ∧ (∀ c ∈ before, isBlank c) ∧
      ∀ c ∈ after, isBlank c := by
  refine ⟨cs.takeWhile isBlank, ((trimLeft cs).reverse.takeWhile isBlank).reverse, ?_, ?_, ?_⟩
  · have hleft : cs.takeWhile isBlank ++ trimLeft cs = cs := List.takeWhile_append_dropWhile
    have hright : trim cs ++ ((trimLeft cs).reverse.takeWhile isBlank).reverse = trimLeft cs := by
      rw [trim, trimRight, ← List.reverse_append, List.takeWhile_append_dropWhile,
        List.reverse_reverse]
    rw [List.append_assoc, hright, hleft]
  · exact fun c hc => List.mem_takeWhile_imp hc
  · exact fun c hc => List.mem_takeWhile_imp (List.mem_reverse.1 hc)

theorem not_isBlank_of_head?_dropWhile (h : (cs.dropWhile isBlank).head? = some c) :
    ¬ isBlank c := by
  have hnot := List.head?_dropWhile_not isBlank cs
  rw [h] at hnot
  simpa using hnot

/-- Nothing blank is left in front. -/
theorem not_isBlank_of_head?_trim (h : (trim cs).head? = some c) : ¬ isBlank c := by
  obtain ⟨after, ha⟩ : trim cs <+: trimLeft cs := by
    rw [← List.reverse_suffix, trim, trimRight, List.reverse_reverse]
    exact List.dropWhile_suffix _
  have hleft : (trimLeft cs).head? = some c := by
    rw [← ha, List.head?_append, h, Option.some_or]
  exact not_isBlank_of_head?_dropWhile hleft

/-- Nothing blank is left at the end. -/
theorem not_isBlank_of_getLast?_trim (h : (trim cs).getLast? = some c) : ¬ isBlank c := by
  rw [trim, trimRight, List.getLast?_reverse] at h
  exact not_isBlank_of_head?_dropWhile h

/-- What has no blank at its ends is not trimmed. -/
theorem trim_eq_self (hhead : ∀ c, cs.head? = some c → ¬ isBlank c)
    (hlast : ∀ c, cs.getLast? = some c → ¬ isBlank c) : trim cs = cs := by
  have keep {cs : List Char} (h : ∀ c, cs.head? = some c → ¬ isBlank c) :
      cs.dropWhile isBlank = cs := by
    cases cs with
    | nil => rfl
    | cons c cs => exact List.dropWhile_cons_of_neg (h c rfl)
  rw [trim, trimLeft, keep hhead, trimRight, keep, List.reverse_reverse]
  intro c hc
  rw [List.head?_reverse] at hc
  exact hlast c hc

/-- What has no blank at its ends is what is left of it among blanks. -/
theorem trim_blanks {before after : List Char} (hbefore : ∀ c ∈ before, isBlank c)
    (hafter : ∀ c ∈ after, isBlank c) (hne : cs ≠ []) (hhead : ∀ c, cs.head? = some c → ¬ isBlank c)
    (hlast : ∀ c, cs.getLast? = some c → ¬ isBlank c) : trim (before ++ (cs ++ after)) = cs := by
  obtain ⟨c, more, rfl⟩ := List.exists_cons_of_ne_nil hne
  have hleft : trimLeft (before ++ (c :: more ++ after)) = c :: more ++ after := by
    rw [trimLeft, List.dropWhile_append_of_pos hbefore, List.cons_append]
    exact List.dropWhile_cons_of_neg (hhead c rfl)
  obtain ⟨d, rest, hd⟩ := List.exists_cons_of_ne_nil (List.reverse_ne_nil_iff.2 hne)
  have hdlast : (c :: more).getLast? = some d := by
    rw [← List.head?_reverse, hd]
    rfl
  rw [trim, hleft, trimRight, List.reverse_append,
    List.dropWhile_append_of_pos fun c hc => hafter c (List.mem_reverse.1 hc), hd,
    List.dropWhile_cons_of_neg (hlast d hdlast), ← hd, List.reverse_reverse]

theorem trim_trim (cs : List Char) : trim (trim cs) = trim cs :=
  trim_eq_self (fun _ => not_isBlank_of_head?_trim) fun _ => not_isBlank_of_getLast?_trim

theorem trimmed_ofList_trim (cs : List Char) :
    trimmed (String.ofList (trim cs)) = String.ofList (trim cs) := by
  rw [trimmed, String.toList_ofList, trim_trim]

/-! ## What is left over -/

/-- The blanks, one by one: the blanks of a line, the line ends and the byte order mark. -/
def blanks : List Char :=
  ("\t\n\u000B\u000C\r \u00A0\u1680\u2000\u2001\u2002\u2003\u2004\u2005\u2006\u2007\u2008" ++
    "\u2009\u200A\u2028\u2029\u202F\u205F\u3000\uFEFF").toList

theorem mem_iff_toNat {cs : List Char} : c ∈ cs ↔ c.toNat ∈ cs.map Char.toNat :=
  (List.mem_map_of_injective fun _ _ => Char.toNat_inj.1).symm

theorem isBlank_iff : isBlank c ↔ c ∈ blanks := by
  have hranges : blanks.map Char.toNat =
      blankRanges.flatMap fun r => List.range' r.1 (r.2 + 1 - r.1) := by decide
  have hmem (r : Nat × Nat) : c.toNat ∈ List.range' r.1 (r.2 + 1 - r.1) ↔
      r.1 ≤ c.toNat ∧ c.toNat ≤ r.2 := by
    rw [List.mem_range'_1]
    omega
  simp [mem_iff_toNat, hranges, isBlank, hmem]

/-- What is left of a text without the blanks at its ends. -/
structure Trims (s words : String) : Prop where
  around : ∃ before after, s.toList = before ++ (words.toList ++ after) ∧
    ∀ c ∈ before ++ after, c ∈ blanks
  bare : ∀ c ∈ blanks, words.toList.head? ≠ some c ∧ words.toList.getLast? ≠ some c

/-- Nothing is left of blanks. -/
theorem trim_of_blanks (h : ∀ c ∈ cs, isBlank c) : trim cs = [] := by
  obtain ⟨before, after, hsplit, -, -⟩ := trim_split cs
  cases hleft : trim cs with
  | nil => rfl
  | cons c more =>
    have hmem : c ∈ cs := by
      rw [hsplit, hleft]
      simp
    exact absurd (h c hmem) (not_isBlank_of_head?_trim (by rw [hleft]; rfl))

/-- **The trimmed text is what is left over**, and nothing else is. -/
theorem trims_iff {s words : String} : Trims s words ↔ trimmed s = words := by
  constructor
  · rintro ⟨⟨before, after, hs, hblank⟩, hbare⟩
    simp only [← isBlank_iff] at hblank hbare
    have hwords : trim s.toList = words.toList := by
      rw [hs]
      by_cases hne : words.toList = []
      · rw [hne, List.nil_append]
        exact trim_of_blanks hblank
      · exact trim_blanks (fun c hc => hblank c (List.mem_append_left _ hc))
          (fun c hc => hblank c (List.mem_append_right _ hc)) hne
          (fun c hc hc' => (hbare c hc').1 hc) fun c hc hc' => (hbare c hc').2 hc
    rw [trimmed, hwords, String.ofList_toList]
  · rintro rfl
    obtain ⟨before, after, hsplit, hbefore, hafter⟩ := trim_split s.toList
    simp only [isBlank_iff] at hbefore hafter
    constructor
    case around =>
      refine ⟨before, after, ?_, fun c hc => ?_⟩
      · rw [trimmed, String.toList_ofList, ← List.append_assoc, ← hsplit]
      · exact (List.mem_append.1 hc).elim (hbefore c) (hafter c)
    case bare =>
      intro c hc
      rw [trimmed, String.toList_ofList]
      exact ⟨fun h => not_isBlank_of_head?_trim h (isBlank_iff.2 hc),
        fun h => not_isBlank_of_getLast?_trim h (isBlank_iff.2 hc)⟩

end Adventure.Text
