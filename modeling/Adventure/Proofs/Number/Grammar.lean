import Adventure.Number.Numeral
import Adventure.Proofs.Number.Decimal
import Adventure.Proofs.Number.Monotone
import Mathlib.Data.List.TakeWhile
import Mathlib.Data.Nat.Digits.Defs
/-!
# The grammar of numerals

What numerals look like, as relations between characters and values that know nothing of how they
are read: signs, fractions and exponents, which the numbers of JSON (`Strict`) and the numerals of
free text (`Denotes`) share, and digits of other bases. Each part has two lemmas, that it is read
whole and that nothing else is read, and both readers are put together from them: a number of JSON
is read from the front of a text if what follows does not go on with it (`Strict.read`,
`readJson_eq_some`), and a text stands for a finite number if it is a numeral or blank
(`ofText_eq_finite`).
-/

namespace Adventure.Numeral

open Decimal Number

variable {cs ds ws ft fs et st rest : List Char} {c mark : Char} {e : Int} {q x : Rat}
  {negative : Bool}

/-! ## What follows a numeral -/

/-- What a numeral may go on with. -/
def goesOn (c : Char) : Bool := c.isDigit || c == '.' || c == 'e' || c == 'E'

/-- What follows does not go on with the numeral before it. -/
def Stops (rest : List Char) : Prop := ∀ c, rest.head? = some c → ¬ goesOn c

theorem stops_nil : Stops [] := by
  intro c hc
  cases hc

theorem Stops.not_isDigit (h : Stops rest) : ∀ c, rest.head? = some c → ¬ c.isDigit := by
  intro c hc hd
  exact h c hc (by simp [goesOn, hd])

theorem Stops.ne (h : Stops rest) (hg : goesOn c) : rest.head? ≠ some c := by
  intro hc
  exact h c hc hg

/-! ## Digits -/

theorem digits_append (hd : ∀ c ∈ ds, c.isDigit) (hr : ∀ c, rest.head? = some c → ¬ c.isDigit) :
    digits (ds ++ rest) = (ds, rest) := by
  have hrest : rest.takeWhile Char.isDigit = [] ∧ rest.dropWhile Char.isDigit = rest := by
    cases rest with
    | nil => exact ⟨rfl, rfl⟩
    | cons c rest =>
      have hc := hr c rfl
      exact ⟨List.takeWhile_cons_of_neg hc, List.dropWhile_cons_of_neg hc⟩
  rw [digits, List.span_eq_takeWhile_dropWhile, List.takeWhile_append_of_pos hd,
    List.dropWhile_append_of_pos hd, hrest.1, hrest.2, List.append_nil]

/-- The digits that are read and what is left of the text. -/
theorem digits_eq (h : digits cs = (ds, rest)) :
    cs = ds ++ rest ∧ (∀ c ∈ ds, c.isDigit) ∧ ∀ c, rest.head? = some c → ¬ c.isDigit := by
  rw [digits, List.span_eq_takeWhile_dropWhile, Prod.mk.injEq] at h
  obtain ⟨rfl, rfl⟩ := h
  refine ⟨List.takeWhile_append_dropWhile.symm, fun c hc => List.mem_takeWhile_imp hc, ?_⟩
  intro c hc
  have hnot := List.head?_dropWhile_not Char.isDigit cs
  rw [hc] at hnot
  simpa using hnot

theorem assemble_eq (whole fraction : List Char) (e : Int) :
    assemble whole fraction e =
      ofRat (Decimal.toRat ⟨value (whole ++ fraction), e - fraction.length⟩) :=
  toNumber_eq _

theorem withSign_ofRat (negative : Bool) (q : Rat) :
    withSign negative (ofRat q) = ofRat (if negative then -q else q) := by
  cases negative with
  | false => rfl
  | true => exact (ofRat_neg q).symm

/-! ## Signs, fractions and exponents -/

/-- A sign, and whether it is a minus. -/
inductive Sign : List Char → Bool → Prop where
  | absent : Sign [] false
  | plus : Sign ['+'] false
  | minus : Sign ['-'] true

/-- The digits behind a point; there may be no point, and no digits behind it. -/
inductive Fraction : List Char → List Char → Prop where
  | absent : Fraction [] []
  | point {ds : List Char} (hd : ∀ c ∈ ds, c.isDigit) : Fraction ('.' :: ds) ds

/-- An exponent and its value. Without a mark it is zero; behind one there are digits, perhaps with a
sign. -/
inductive Exponent : List Char → Int → Prop where
  | absent : Exponent [] 0
  | marked {mark : Char} {st ds : List Char} {negative : Bool} (hmark : mark = 'e' ∨ mark = 'E')
      (hs : Sign st negative) (hne : ds ≠ []) (hd : ∀ c ∈ ds, c.isDigit) :
      Exponent (mark :: (st ++ ds)) (if negative then -(value ds : Int) else value ds)

theorem exponent?_of_ne (he : rest.head? ≠ some 'e') (hE : rest.head? ≠ some 'E') :
    exponent? rest = some (0, rest) := by
  cases rest with
  | nil => rfl
  | cons c rest =>
    have hc : ¬ (c = 'e' ∨ c = 'E') := by
      rintro (rfl | rfl)
      · exact he rfl
      · exact hE rfl
    unfold exponent?
    dsimp only
    rw [if_neg hc]

/-! ## What numerals are made of -/

/-- The characters of numerals in base ten. -/
def isPart (c : Char) : Bool := goesOn c || c == '+' || c == '-'

theorem isPart_of_isDigit (h : c.isDigit) : isPart c := by simp [isPart, goesOn, h]

theorem Sign.isPart (h : Sign st negative) : ∀ c ∈ st, isPart c := by
  cases h <;> simp [Numeral.isPart, goesOn]

theorem Fraction.isPart (h : Fraction ft fs) : ∀ c ∈ ft, isPart c := by
  cases h with
  | absent => simp
  | point hd => exact List.forall_mem_cons.2 ⟨by decide, fun c hc => isPart_of_isDigit (hd c hc)⟩

theorem Exponent.isPart (h : Exponent et e) : ∀ c ∈ et, isPart c := by
  cases h with
  | absent => simp
  | marked hmark hs hne hd =>
    refine List.forall_mem_cons.2 ⟨?_, List.forall_mem_append.2
      ⟨hs.isPart, fun c hc => isPart_of_isDigit (hd c hc)⟩⟩
    rcases hmark with rfl | rfl <;> decide

theorem isPart_of_parts (hw : ∀ c ∈ ws, c.isDigit) (hf : Fraction ft fs) (he : Exponent et e) :
    ∀ c ∈ ws ++ (ft ++ et), isPart c :=
  List.forall_mem_append.2 ⟨fun c hc => isPart_of_isDigit (hw c hc),
    List.forall_mem_append.2 ⟨hf.isPart, he.isPart⟩⟩

/-! ## Reading exponents and fractions -/

/-- The sign in front of the digits of an exponent, and what follows it. -/
def exponentSign : List Char → Bool × List Char
  | '-' :: r => (true, r)
  | '+' :: r => (false, r)
  | r => (false, r)

theorem exponentSign_split (cs : List Char) :
    ∃ st, cs = st ++ (exponentSign cs).2 ∧ Sign st (exponentSign cs).1 := by
  unfold exponentSign
  split
  · exact ⟨['-'], rfl, .minus⟩
  · exact ⟨['+'], rfl, .plus⟩
  · exact ⟨[], rfl, .absent⟩

theorem Sign.exponentSign_append (h : Sign st negative) (hc : c.isDigit) :
    exponentSign (st ++ c :: cs) = (negative, c :: cs) := by
  cases h with
  | absent =>
    rw [List.nil_append]
    unfold exponentSign
    split
    · rename_i heq
      obtain rfl := (List.cons.inj heq).1
      exact absurd hc (by decide)
    · rename_i heq
      obtain rfl := (List.cons.inj heq).1
      exact absurd hc (by decide)
    · rfl
  | plus => rfl
  | minus => rfl

theorem exponent?_cons (hmark : mark = 'e' ∨ mark = 'E') (cs : List Char) :
    exponent? (mark :: cs) =
      match digits (exponentSign cs).2 with
      | ([], _) => none
      | (ds, r) => some (if (exponentSign cs).1 then -(value ds : Int) else value ds, r) := by
  unfold exponent?
  dsimp only
  rw [if_pos hmark]
  rfl

/-- An exponent is read whole. -/
theorem Exponent.read (h : Exponent et e) (hr : Stops rest) :
    exponent? (et ++ rest) = some (e, rest) := by
  cases h with
  | absent => exact exponent?_of_ne (hr.ne rfl) (hr.ne rfl)
  | @marked mark st ds negative hmark hs hne hd =>
    obtain ⟨d, ds, rfl⟩ := List.exists_cons_of_ne_nil hne
    have hread := digits_append hd hr.not_isDigit
    rw [List.cons_append, List.append_assoc, exponent?_cons hmark]
    rw [List.cons_append] at hread ⊢
    rw [hs.exponentSign_append (hd d List.mem_cons_self), hread]

/-- What is read as an exponent is one. -/
theorem exponent?_eq_some (h : exponent? cs = some (e, rest)) :
    ∃ et, cs = et ++ rest ∧ Exponent et e := by
  cases cs with
  | nil =>
    cases h
    exact ⟨[], rfl, .absent⟩
  | cons mark cs =>
    by_cases hmark : mark = 'e' ∨ mark = 'E'
    · rw [exponent?_cons hmark] at h
      obtain ⟨st, hcs, hs⟩ := exponentSign_split cs
      split at h
      · cases h
      · rename_i ds r hnil hread
        obtain ⟨hdigits, hd, -⟩ := digits_eq hread
        obtain ⟨rfl, rfl⟩ := Prod.mk.inj (Option.some.inj h)
        have hne : ds ≠ [] := by
          rintro rfl
          exact hnil rfl
        refine ⟨mark :: (st ++ ds), ?_, .marked hmark hs hne hd⟩
        rw [List.cons_append, List.append_assoc, ← hdigits, ← hcs]
    · unfold exponent? at h
      dsimp only at h
      rw [if_neg hmark] at h
      cases h
      exact ⟨[], rfl, .absent⟩

theorem Exponent.head?_append (h : Exponent et e) (hr : Stops rest) :
    ∀ c, (et ++ rest).head? = some c → ¬ c.isDigit ∧ c ≠ '.' := by
  intro c hc
  cases h with
  | absent => exact ⟨hr.not_isDigit c hc, fun hp => hr.ne (c := '.') rfl (hp ▸ hc)⟩
  | marked hmark hs hne hd =>
    obtain rfl := Option.some.inj hc
    rcases hmark with rfl | rfl <;> decide

/-- The digits behind a point, if there is one, and what follows them. -/
def fractionPart : List Char → List Char × List Char
  | '.' :: r => digits r
  | r => ([], r)

theorem Fraction.fractionPart_append (h : Fraction ft fs)
    (hr : ∀ c, rest.head? = some c → ¬ c.isDigit ∧ c ≠ '.') :
    fractionPart (ft ++ rest) = (fs, rest) := by
  cases h with
  | absent =>
    rw [List.nil_append]
    unfold fractionPart
    split
    · exact absurd rfl (hr '.' rfl).2
    · rfl
  | point hd => exact digits_append hd fun c hc => (hr c hc).1

theorem fractionPart_eq (h : fractionPart cs = (fs, rest)) :
    ∃ ft, cs = ft ++ rest ∧ Fraction ft fs := by
  unfold fractionPart at h
  split at h
  · obtain ⟨rfl, hd, -⟩ := digits_eq h
    exact ⟨'.' :: fs, rfl, .point hd⟩
  · cases h
    exact ⟨[], rfl, .absent⟩

theorem Fraction.head?_append (h : Fraction ft fs)
    (hr : ∀ c, rest.head? = some c → ¬ c.isDigit ∧ c ≠ '.') :
    ∀ c, (ft ++ rest).head? = some c → ¬ c.isDigit := by
  intro c hc
  cases h with
  | absent => exact (hr c hc).1
  | point hd =>
    obtain rfl := Option.some.inj hc
    decide

/-! ## Numbers of JSON -/

/-- Some digits, and zero does not stand before others. -/
structure IsWhole (ds : List Char) : Prop where
  ne_nil : ds ≠ []
  isDigit : ∀ c ∈ ds, c.isDigit
  zero : ds.head? = some '0' → ds = ['0']

theorem whole?_append (h : IsWhole ds) (hr : ∀ c, rest.head? = some c → ¬ c.isDigit) :
    whole? (ds ++ rest) = some (ds, rest) := by
  obtain ⟨d, ds, rfl⟩ := List.exists_cons_of_ne_nil h.ne_nil
  by_cases hd : d = '0'
  · subst hd
    obtain rfl : ds = [] := by simpa using h.zero rfl
    rfl
  · unfold whole?
    split
    · rename_i heq
      exact absurd (List.cons.inj heq).1 hd
    · rw [digits_append h.isDigit hr]

theorem whole?_eq_some (h : whole? cs = some (ws, rest)) : cs = ws ++ rest ∧ IsWhole ws := by
  unfold whole? at h
  split at h
  · cases h
    exact ⟨rfl, by simp, by simp, fun _ => rfl⟩
  · rename_i hzero
    split at h
    · cases h
    · rename_i hne
      obtain ⟨rfl, hd, -⟩ := digits_eq (Option.some.inj h)
      refine ⟨rfl, ?_, hd, ?_⟩
      · rintro rfl
        exact hne _ (Option.some.inj h)
      · intro h0
        obtain ⟨_, rfl⟩ := List.head?_eq_some_iff.1 h0
        exact absurd rfl (hzero _)

theorem Fraction.fraction?_append (h : Fraction ft fs) (hpoint : ft ≠ ['.'])
    (hr : ∀ c, rest.head? = some c → ¬ c.isDigit ∧ c ≠ '.') :
    fraction? (ft ++ rest) = some (fs, rest) := by
  cases h with
  | absent =>
    rw [List.nil_append]
    unfold fraction?
    split
    · exact absurd rfl (hr '.' rfl).2
    · rfl
  | point hd =>
    simp only [List.cons_append, fraction?, digits_append hd fun c hc => (hr c hc).1]
    split
    · rename_i heq
      exact absurd (congrArg ('.' :: ·) (Prod.mk.inj heq).1) hpoint
    · rfl

theorem fraction?_eq_some (h : fraction? cs = some (fs, rest)) :
    ∃ ft, cs = ft ++ rest ∧ Fraction ft fs ∧ ft ≠ ['.'] := by
  unfold fraction? at h
  split at h
  · split at h
    · cases h
    · rename_i hne
      obtain ⟨rfl, hd, -⟩ := digits_eq (Option.some.inj h)
      refine ⟨'.' :: fs, rfl, .point hd, ?_⟩
      intro hnil
      obtain rfl := (List.cons.inj hnil).2
      exact hne _ (Option.some.inj h)
  · cases h
    exact ⟨[], rfl, .absent, by simp⟩

/-- A number of JSON without a sign, and its value: there are digits on both sides of a point, and
nothing before a point or an exponent but a zero or digits that do not begin with one. -/
inductive Strict : List Char → Rat → Prop where
  | parts {ws ft fs et : List Char} {e : Int} (hw : IsWhole ws) (hf : Fraction ft fs)
      (hpoint : ft ≠ ['.']) (he : Exponent et e) :
      Strict (ws ++ (ft ++ et)) (Decimal.toRat ⟨value (ws ++ fs), e - fs.length⟩)

/-- A number of JSON without a sign begins with a digit. -/
theorem Strict.exists_cons (h : Strict cs q) : ∃ c r, cs = c :: r ∧ c.isDigit := by
  cases h with
  | @parts ws ft fs et e hw hf hpoint he =>
    obtain ⟨c, ws, rfl⟩ := List.exists_cons_of_ne_nil hw.ne_nil
    exact ⟨c, _, rfl, hw.isDigit c List.mem_cons_self⟩

theorem Strict.isPart (h : Strict cs q) : ∀ c ∈ cs, isPart c := by
  cases h with
  | parts hw hf hpoint he => exact isPart_of_parts hw.isDigit hf he

/-- The minus in front of a number of JSON, and what follows it. -/
def jsonSign : List Char → Bool × List Char
  | '-' :: r => (true, r)
  | r => (false, r)

theorem jsonSign_split (cs : List Char) :
    ∃ st, cs = st ++ (jsonSign cs).2 ∧ Sign st (jsonSign cs).1 ∧ st ≠ ['+'] := by
  unfold jsonSign
  split
  · exact ⟨['-'], rfl, .minus, by decide⟩
  · exact ⟨[], rfl, .absent, by decide⟩

theorem Sign.jsonSign_append (h : Sign st negative) (hplus : st ≠ ['+']) (hc : c.isDigit) :
    jsonSign (st ++ c :: cs) = (negative, c :: cs) := by
  cases h with
  | absent =>
    rw [List.nil_append]
    unfold jsonSign
    split
    · rename_i heq
      obtain rfl := (List.cons.inj heq).1
      exact absurd hc (by decide)
    · rfl
  | plus => exact absurd rfl hplus
  | minus => rfl

theorem readJson_eq_some_iff {x : Number} :
    readJson cs = some (x, rest) ↔
      ∃ ws r₁ fs r₂ e, whole? (jsonSign cs).2 = some (ws, r₁) ∧ fraction? r₁ = some (fs, r₂) ∧
        exponent? r₂ = some (e, rest) ∧ x = withSign (jsonSign cs).1 (assemble ws fs e) := by
  have hread : readJson cs = (whole? (jsonSign cs).2).bind fun w => (fraction? w.2).bind fun f =>
      (exponent? f.2).bind fun e => some (withSign (jsonSign cs).1 (assemble w.1 f.1 e.1), e.2) := rfl
  rw [hread]
  simp only [Option.bind_eq_some_iff, Option.some.injEq, Prod.mk.injEq, Prod.exists]
  constructor
  · rintro ⟨ws, r₁, hw, fs, r₂, hf, e, r₃, he, rfl, rfl⟩
    exact ⟨ws, r₁, fs, r₂, e, hw, hf, he, rfl⟩
  · rintro ⟨ws, r₁, fs, r₂, e, hw, hf, he, rfl⟩
    exact ⟨ws, r₁, hw, fs, r₂, hf, e, rest, he, rfl, rfl⟩

/-- **A number of JSON is read as its value**, rounded, whatever follows it. -/
theorem Strict.read (h : Strict cs q) (hs : Sign st negative) (hplus : st ≠ ['+'])
    (hr : Stops rest) :
    readJson (st ++ (cs ++ rest)) = some (ofRat (if negative then -q else q), rest) := by
  cases h with
  | @parts ws ft fs et e hw hf hpoint he =>
    have htail := he.head?_append hr
    obtain ⟨d, ds, hds⟩ := List.exists_cons_of_ne_nil hw.ne_nil
    have hsign : jsonSign (st ++ (ws ++ (ft ++ (et ++ rest)))) =
        (negative, ws ++ (ft ++ (et ++ rest))) := by
      rw [hds, List.cons_append]
      exact hs.jsonSign_append hplus (hw.isDigit d (hds ▸ List.mem_cons_self))
    rw [List.append_assoc, List.append_assoc, readJson_eq_some_iff, hsign]
    refine ⟨ws, _, fs, _, e, whole?_append hw (hf.head?_append htail),
      hf.fraction?_append hpoint htail, he.read hr, ?_⟩
    rw [assemble_eq, withSign_ofRat]

/-- What is read as a number of JSON is one. -/
theorem readJson_eq_some {x : Number} (h : readJson cs = some (x, rest)) :
    ∃ st negative cs' q, Sign st negative ∧ st ≠ ['+'] ∧ Strict cs' q ∧
      cs = st ++ (cs' ++ rest) ∧ x = ofRat (if negative then -q else q) := by
  obtain ⟨ws, r₁, fs, r₂, e, hwhole, hfraction, hexponent, rfl⟩ := readJson_eq_some_iff.1 h
  obtain ⟨st, hcs, hs, hplus⟩ := jsonSign_split cs
  obtain ⟨hsplit, hw⟩ := whole?_eq_some hwhole
  obtain ⟨ft, rfl, hf, hpoint⟩ := fraction?_eq_some hfraction
  obtain ⟨et, rfl, he⟩ := exponent?_eq_some hexponent
  refine ⟨st, _, _, _, hs, hplus, .parts hw hf hpoint he, ?_, ?_⟩
  · rw [hcs, hsplit]
    simp only [List.append_assoc]
  · rw [assemble_eq, withSign_ofRat]

theorem exists_cons_of_readJson {x : Number} (h : readJson cs = some (x, rest)) :
    ∃ c r, cs = c :: r ∧ (c.isDigit ∨ c = '-') := by
  obtain ⟨st, negative, cs', q, hs, hplus, hstrict, rfl, -⟩ := readJson_eq_some h
  obtain ⟨c, r, rfl, hc⟩ := hstrict.exists_cons
  cases hs with
  | absent => exact ⟨c, _, rfl, .inl hc⟩
  | plus => exact absurd rfl hplus
  | minus => exact ⟨'-', _, rfl, .inr rfl⟩

/-! ## Decimal numerals of free text -/

/-- A decimal numeral without a sign, and its value: digits, perhaps with a point before, among or
behind them, and perhaps an exponent. -/
inductive Plain : List Char → Rat → Prop where
  | parts {ws ft fs et : List Char} {e : Int} (hw : ∀ c ∈ ws, c.isDigit) (hf : Fraction ft fs)
      (hne : ws ++ fs ≠ []) (he : Exponent et e) :
      Plain (ws ++ (ft ++ et)) (Decimal.toRat ⟨value (ws ++ fs), e - fs.length⟩)

theorem decimal_eq (cs : List Char) :
    decimal cs =
      if (digits cs).1.isEmpty && (fractionPart (digits cs).2).1.isEmpty then .nan
      else
        match exponent? (fractionPart (digits cs).2).2 with
        | some (e, []) => assemble (digits cs).1 (fractionPart (digits cs).2).1 e
        | _ => .nan := rfl

/-- A decimal numeral is read as its value, rounded. -/
theorem Plain.read (h : Plain cs q) : decimal cs = ofRat q := by
  cases h with
  | @parts ws ft fs et e hw hf hne he =>
    have htail := he.head?_append stops_nil
    have hexponent := he.read stops_nil
    rw [List.append_nil] at htail hexponent
    have hempty : ¬ (ws.isEmpty && fs.isEmpty) = true := by simpa using hne
    rw [decimal_eq, digits_append hw (hf.head?_append htail), hf.fractionPart_append htail,
      if_neg hempty]
    dsimp only
    rw [hexponent]
    exact assemble_eq ws fs e

/-- What is read as a number is a decimal numeral. -/
theorem exists_plain (h : decimal cs ≠ .nan) : ∃ q, Plain cs q := by
  rw [decimal_eq] at h
  obtain ⟨ws, r₁, hwhole⟩ : ∃ ws r, digits cs = (ws, r) := ⟨_, _, rfl⟩
  rw [hwhole] at h
  obtain ⟨fs, r₂, hpoint⟩ : ∃ fs r, fractionPart r₁ = (fs, r) := ⟨_, _, rfl⟩
  dsimp only at h
  rw [hpoint] at h
  obtain ⟨rfl, hw, -⟩ := digits_eq hwhole
  obtain ⟨ft, rfl, hf⟩ := fractionPart_eq hpoint
  split at h
  · exact absurd rfl h
  · rename_i hempty
    have hne : ws ++ fs ≠ [] := by simpa using hempty
    split at h
    · rename_i e hexponent
      obtain ⟨et, rfl, he⟩ := exponent?_eq_some hexponent
      rw [List.append_nil]
      exact ⟨_, .parts hw hf hne he⟩
    · exact absurd rfl h

/-! ## Numerals in other bases -/

/-- Digits of a base, and their values. -/
def Digits (base : Nat) (cs : List Char) (ds : List Nat) : Prop :=
  List.Forall₂ (fun c d => digitValue? c = some d ∧ d < base) cs ds

/-- A digit in front of others counts as often as there are numerals of their length. -/
theorem ofDigits_reverse_cons (base acc d : Nat) (ds : List Nat) :
    acc * base ^ (d :: ds).length + Nat.ofDigits base (d :: ds).reverse =
      (acc * base + d) * base ^ ds.length + Nat.ofDigits base ds.reverse := by
  rw [List.reverse_cons, Nat.ofDigits_append, Nat.ofDigits_singleton, List.length_reverse,
    List.length_cons]
  ring

theorem inBase?_eq_some {base acc n : Nat} :
    inBase? base acc cs = some n ↔
      ∃ ds, Digits base cs ds ∧ n = acc * base ^ ds.length + Nat.ofDigits base ds.reverse := by
  induction cs generalizing acc with
  | nil => simp [inBase?, Digits, eq_comm]
  | cons c cs ih =>
    unfold inBase?
    simp only [Digits, List.forall₂_cons_left_iff]
    split
    · rename_i d hd
      split
      · rename_i hlt
        rw [ih]
        constructor
        · rintro ⟨ds, hds, rfl⟩
          exact ⟨d :: ds, ⟨d, ds, ⟨hd, hlt⟩, hds, rfl⟩, (ofDigits_reverse_cons base acc d ds).symm⟩
        · rintro ⟨_, ⟨d', ds, ⟨hd', -⟩, hds, rfl⟩, rfl⟩
          obtain rfl : d = d' := Option.some.inj (hd.symm.trans hd')
          exact ⟨ds, hds, ofDigits_reverse_cons base acc d ds⟩
      · rename_i hge
        simp only [reduceCtorEq, false_iff]
        rintro ⟨_, ⟨d', ds, ⟨hd', hlt⟩, -, -⟩, -⟩
        obtain rfl : d = d' := Option.some.inj (hd.symm.trans hd')
        exact hge hlt
    · rename_i hnone
      simp only [reduceCtorEq, false_iff]
      rintro ⟨_, ⟨d', ds, ⟨hd', -⟩, -, -⟩, -⟩
      cases hnone.symm.trans hd'

/-- Digits of a base are read as their value. -/
theorem Digits.read {base : Nat} {values : List Nat} (h : Digits base cs values) (hne : cs ≠ []) :
    based base cs = ofRat (Nat.ofDigits base values.reverse : Nat) := by
  have hread : inBase? base 0 cs = some (Nat.ofDigits base values.reverse) :=
    inBase?_eq_some.2 ⟨values, h, by rw [Nat.zero_mul, Nat.zero_add]⟩
  unfold based
  rw [if_neg (by simpa using hne), hread]
  rfl

/-- What is read as a number in a base are digits of it. -/
theorem exists_digits {base : Nat} (h : based base cs ≠ .nan) :
    cs ≠ [] ∧ ∃ values, Digits base cs values := by
  unfold based at h
  split at h
  · exact absurd rfl h
  · rename_i hempty
    refine ⟨by simpa using hempty, ?_⟩
    cases hn : inBase? base 0 cs with
    | none =>
      rw [hn] at h
      exact absurd rfl h
    | some n =>
      obtain ⟨values, hvalues, -⟩ := inBase?_eq_some.1 hn
      exact ⟨values, hvalues⟩

/-! ## Numerals of free text -/

/-- The marks of the bases that are not ten. -/
def baseMarks : List (Char × Nat) :=
  [('x', 16), ('X', 16), ('o', 8), ('O', 8), ('b', 2), ('B', 2)]

/-- A numeral and its value: a decimal numeral, perhaps with a sign, or a zero, the mark of a base
and digits of that base. -/
inductive Denotes : List Char → Rat → Prop where
  | decimal {st cs : List Char} {negative : Bool} {q : Rat} (hs : Sign st negative)
      (h : Plain cs q) : Denotes (st ++ cs) (if negative then -q else q)
  | based {mark : Char} {base : Nat} {cs : List Char} {ds : List Nat}
      (hmark : (mark, base) ∈ baseMarks) (hne : cs ≠ []) (h : Digits base cs ds) :
      Denotes ('0' :: mark :: cs) (Nat.ofDigits base ds.reverse : Nat)

theorem Plain.isPart (h : Plain cs q) : ∀ c ∈ cs, isPart c := by
  cases h with
  | parts hw hf hne he => exact isPart_of_parts hw hf he

/-- A decimal numeral begins with a digit or a point. -/
theorem Plain.exists_cons (h : Plain cs q) : ∃ c r, cs = c :: r ∧ (c.isDigit ∨ c = '.') := by
  cases h with
  | @parts ws ft fs et e hw hf hne he =>
    cases ws with
    | cons c ws => exact ⟨c, _, rfl, .inl (hw c List.mem_cons_self)⟩
    | nil =>
      cases hf with
      | absent => exact absurd rfl hne
      | point hd => exact ⟨'.', _, rfl, .inr rfl⟩

/-- A numeral is not empty. -/
theorem Denotes.exists_cons (h : Denotes cs q) : ∃ c r, cs = c :: r := by
  cases h with
  | @decimal st cs negative q hs hp =>
    obtain ⟨c, r, rfl, -⟩ := hp.exists_cons
    exact List.exists_cons_of_ne_nil (by simp)
  | based hmark hne hds => exact ⟨_, _, rfl⟩

theorem Plain.magnitude_eq (h : Plain cs q) : magnitude cs = ofRat q := by
  unfold magnitude
  rw [if_neg, h.read]
  obtain ⟨c, r, rfl, hc⟩ := h.exists_cons
  intro heq
  obtain rfl : c = 'I' := (List.cons.inj heq).1
  revert hc
  decide

/-- **A numeral is read as its value**, rounded. -/
theorem ofText_of_denotes {s : String} (h : Denotes (Text.trim s.toList) q) :
    ofText s = ofRat q := by
  unfold ofText
  generalize Text.trim s.toList = cs at h
  cases h with
  | based hmark hne hds =>
    have hread := hds.read hne
    simp only [baseMarks, List.mem_cons, Prod.mk.injEq, List.not_mem_nil, or_false] at hmark
    rcases hmark with ⟨rfl, rfl⟩ | ⟨rfl, rfl⟩ | ⟨rfl, rfl⟩ | ⟨rfl, rfl⟩ | ⟨rfl, rfl⟩ | ⟨rfl, rfl⟩
    all_goals exact hread
  | decimal hs hp =>
    have hread := hp.magnitude_eq
    cases hs with
    | plus => exact hread
    | minus =>
      rw [if_pos rfl, ofRat_neg, ← hread]
      rfl
    | absent =>
      obtain ⟨c, r, rfl, hc⟩ := hp.exists_cons
      have hsign {m : Char} {r' : List Char} (hm : ¬ (m.isDigit ∨ m = '.')) :
          c :: r ≠ m :: r' := by
        intro heq
        exact hm ((List.cons.inj heq).1 ▸ hc)
      have hbase {m : Char} {r' : List Char} (hm : ¬ isPart m) : c :: r ≠ '0' :: m :: r' := by
        intro heq
        exact hm (hp.isPart m (heq ▸ by simp))
      rw [List.nil_append]
      split
      · rename_i heq
        cases heq
      · exact absurd ‹_› (hbase (by decide))
      · exact absurd ‹_› (hbase (by decide))
      · exact absurd ‹_› (hbase (by decide))
      · exact absurd ‹_› (hbase (by decide))
      · exact absurd ‹_› (hbase (by decide))
      · exact absurd ‹_› (hbase (by decide))
      · exact absurd ‹_› (hsign (by decide))
      · exact absurd ‹_› (hsign (by decide))
      · exact hread

theorem exists_plain_of_magnitude (h : magnitude cs = .finite x) :
    ∃ q, Plain cs q ∧ ofRat q = .finite x := by
  unfold magnitude at h
  split at h
  · cases h
  · have hread : decimal cs ≠ .nan := by rw [h]; simp
    obtain ⟨q, hq⟩ := exists_plain hread
    exact ⟨q, hq, hq.read.symm.trans h⟩

theorem exists_denotes_of_based {base : Nat} (hmark : (mark, base) ∈ baseMarks)
    (h : based base cs = .finite x) :
    ∃ q, Denotes ('0' :: mark :: cs) q ∧ ofRat q = .finite x := by
  have hread : based base cs ≠ .nan := by rw [h]; simp
  obtain ⟨hne, ds, hds⟩ := exists_digits hread
  exact ⟨_, .based hmark hne hds, (hds.read hne).symm.trans h⟩

theorem exists_denotes_of_signed (hs : Sign st negative)
    (h : withSign negative (magnitude cs) = .finite x) :
    ∃ q, Denotes (st ++ cs) q ∧ ofRat q = .finite x := by
  cases negative with
  | false =>
    obtain ⟨q, hp, hq⟩ := exists_plain_of_magnitude h
    exact ⟨q, .decimal hs hp, hq⟩
  | true =>
    have hneg : magnitude cs = .finite (-x) := by
      rw [withSign, if_pos rfl] at h
      cases hm : magnitude cs with
      | finite y =>
        rw [hm] at h
        rw [← Number.finite.inj h, neg_neg]
      | _ =>
        rw [hm] at h
        cases h
    obtain ⟨q, hp, hq⟩ := exists_plain_of_magnitude hneg
    refine ⟨-q, .decimal hs hp, ?_⟩
    rw [ofRat_neg, hq]
    exact congrArg Number.finite (neg_neg x)

/-- **The numbers of texts.** A text stands for a finite number if, without the blanks around it, it
is empty, and the number is zero, or if it is a numeral, and the number is the one nearest to its
value. -/
theorem ofText_eq_finite {s : String} :
    ofText s = .finite x ↔
      Text.trim s.toList = [] ∧ x = 0 ∨
        ∃ q, Denotes (Text.trim s.toList) q ∧ ofRat q = .finite x := by
  constructor
  · intro h
    unfold ofText at h
    generalize Text.trim s.toList = cs at h ⊢
    split at h
    · exact .inl ⟨rfl, (Number.finite.inj h).symm⟩
    · exact .inr (exists_denotes_of_based (by decide) h)
    · exact .inr (exists_denotes_of_based (by decide) h)
    · exact .inr (exists_denotes_of_based (by decide) h)
    · exact .inr (exists_denotes_of_based (by decide) h)
    · exact .inr (exists_denotes_of_based (by decide) h)
    · exact .inr (exists_denotes_of_based (by decide) h)
    · exact .inr (exists_denotes_of_signed .minus h)
    · exact .inr (exists_denotes_of_signed .plus h)
    · exact .inr (exists_denotes_of_signed .absent h)
  · rintro (⟨hnil, rfl⟩ | ⟨q, hq, hx⟩)
    · unfold ofText
      rw [hnil]
      rfl
    · rw [ofText_of_denotes hq, hx]

end Adventure.Numeral
